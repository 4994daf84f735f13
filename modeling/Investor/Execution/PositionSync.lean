import Investor.Lib.Run
import Investor.Lib.Table
import Investor.Universe.Allocation
import Mathlib.Data.List.MinMax
import Mathlib.Data.Multiset.Basic

/-!
# Position sync and the portfolio view

`sync_from_broker` takes one account and position report, updates the position rows and
writes a portfolio snapshot, unless the report's fingerprint (equity, cash and positions,
rounded) is that of the newest snapshot. `portfolio_state_input` reads the newest snapshot
back. What the view then says about the last report is the subject here: everything when
the call wrote a snapshot, equity and cash up to the fingerprint's rounding when it did not.

A report's numbers are JSON values and are parsed here, so a report can be refused. Time is
in microseconds and moves between two calls, so that the newest snapshot is the last one.
-/

namespace Investor.Execution.PositionSync

open Lib Market Universe

/-- `SECTOR_MAP`. -/
def SECTOR_MAP : Dict String :=
  [("SPY", "Index"), ("QQQ", "Index"), ("IWM", "Index"), ("DIA", "Index"), ("EEM", "Index"),
    ("NVDA", "Technology"), ("MSFT", "Technology"), ("AMZN", "Consumer"),
    ("GOOGL", "Technology"), ("META", "Technology"), ("AVGO", "Technology"),
    ("AMD", "Technology"), ("AAPL", "Technology"), ("TSLA", "Consumer"),
    ("IONQ", "Technology"), ("PLTR", "Technology"), ("PATH", "Technology"),
    ("HPE", "Technology"), ("NOK", "Technology"), ("BB", "Technology"),
    ("NVTS", "Technology"), ("F", "Consumer"), ("SOFI", "Financials"), ("JBLU", "Consumer"),
    ("CORZ", "Technology"), ("IREN", "Technology"), ("WULF", "Technology"),
    ("SMR", "Utilities"), ("RDW", "Industrials"), ("QBTS", "Technology"),
    ("ONDS", "Technology"), ("KEEL", "Financials")]

/-! ## Reports -/

structure AccountReport where
  equity : Json
  portfolioValue : Json
  cash : Json
  lastEquity : Json
  longMarketValue : Json
  currency : String
  baseCurrency : String
  cashByCurrency : Dict ℚ

structure PositionReport where
  symbol : String
  qty : Json
  marketValue : Json
  costBasis : Json
  unrealizedPl : Json
  avgEntryPrice : Json
  exchange : String
  currency : String
  conId : Int

/-- `float(str(value))`, `none` where it raises. -/
def floatOfText : Json → Option ℚ
  | .num q => some q
  | .str s => parseFloat s
  | _ => none

/-- `float(str(value or 0))`. -/
def floatOrZero (value : Json) : Option ℚ := floatOfText (value.orElse (.num 0))

def AccountReport.equity? (a : AccountReport) : Option ℚ :=
  floatOrZero (a.equity.orElse a.portfolioValue)

def AccountReport.cash? (a : AccountReport) : Option ℚ := floatOrZero a.cash

/-- `last_equity`, when the report gives one; it raises on a value that is no number. -/
def AccountReport.lastEquity? (a : AccountReport) : Option (Option ℚ) :=
  if a.lastEquity.isNull then some none else (floatOfText a.lastEquity).map some

/-- `last_equity` is parsed only for a snapshot that is written. -/
def AccountReport.priorEquity (a : AccountReport) (writes : Bool) : Option (Option ℚ) :=
  if writes then a.lastEquity? else some none

def AccountReport.base (a : AccountReport) : String :=
  if a.currency ≠ "" then a.currency else if a.baseCurrency ≠ "" then a.baseCurrency else "USD"

/-- A text that is `None` when empty. -/
def nonEmpty (s : String) : Option String := if s = "" then none else some s

section Sync

/-- The balances of a report, `{str(k).upper(): float(v)}`. -/
def balances [Casing] (entries : Dict ℚ) : Dict ℚ :=
  Dict.ofPairs (entries.map fun e => (Casing.upper e.1, e.2))

/-- A position as `sync_from_broker` parses it. -/
structure ParsedPosition where
  symbol : String
  quantity : ℚ
  avgEntryPrice : ℚ
  marketValue : ℚ
  costBasis : ℚ
  unrealizedPnl : ℚ
  venue : Venue
  currency : Option String
  exchange : Option String
  conId : Option Int
  deriving DecidableEq

/-- One round of the parsing loop: `some none` for an entry without a symbol or a quantity. -/
def parsePosition [Casing] (cfg : Settings) (raw : PositionReport) : Option (Option ParsedPosition) := do
  let symbol := Casing.upper raw.symbol
  let qty ← floatOrZero raw.qty
  if symbol = "" ∨ qty = 0 then pure none
  else do
    let mv ← floatOrZero raw.marketValue
    let cost ← floatOrZero raw.costBasis
    let upnl ← floatOrZero raw.unrealizedPl
    let avg ← floatOrZero raw.avgEntryPrice
    let exchange := nonEmpty raw.exchange
    let currency := nonEmpty raw.currency
    pure (some
      { symbol := symbol, quantity := qty, avgEntryPrice := avg, marketValue := mv,
        costBasis := cost, unrealizedPnl := upnl,
        venue := venueForListing symbol cfg exchange currency, currency := currency,
        exchange := exchange, conId := if raw.conId = 0 then none else some raw.conId })

def parsePositions [Casing] (cfg : Settings) (raws : List PositionReport) : Option (List ParsedPosition) :=
  (raws.mapM (parsePosition cfg)).map fun ps => ps.filterMap id

/-! ## Position rows -/

/-- A row of the `positions` table. -/
structure PositionRow where
  id : ℕ
  symbol : String
  quantity : ℚ
  avgEntryPrice : ℚ
  marketValue : ℚ
  costBasis : ℚ
  unrealizedPnl : ℚ
  sector : String
  venue : String
  currency : Option String
  exchange : Option String
  conId : Option Int
  asOf : Int
  deriving DecidableEq

def PositionRow.listing (r : PositionRow) : String × String := (r.symbol, r.venue)

def put {κ ν : Type} [DecidableEq κ] (entries : List (κ × ν)) (k : κ) (v : ν) : List (κ × ν) :=
  (k, v) :: entries.filter fun e => e.1 ≠ k

def lookup {κ ν : Type} [DecidableEq κ] (entries : List (κ × ν)) (k : κ) : Option ν :=
  (entries.find? fun e => e.1 = k).map (·.2)

/-- The rows of a sync, and the two indices into those that were there when it began. -/
structure RowIndex where
  rows : List PositionRow
  byKey : List ((String × String) × ℕ)
  byCon : List (Int × ℕ)

def RowIndex.ofRows [Casing] (rows : List PositionRow) : RowIndex :=
  { rows := rows,
    byKey := rows.foldl
      (fun acc r => put acc (Casing.upper r.symbol, venueText r.venue) r.id) [],
    byCon := rows.foldl
      (fun acc r => match r.conId with
        | some c => if c = 0 then acc else put acc c r.id
        | none => acc) [] }

def freshRowId (rows : List PositionRow) : ℕ := (rows.map (·.id)).foldl max 0 + 1

def newPositionRow (p : ParsedPosition) (id : ℕ) (now : Int) : PositionRow :=
  { id := id, symbol := p.symbol, quantity := p.quantity, avgEntryPrice := p.avgEntryPrice,
    marketValue := p.marketValue, costBasis := p.costBasis, unrealizedPnl := p.unrealizedPnl,
    sector := (Dict.get? SECTOR_MAP p.symbol).getD "Unknown", venue := p.venue.value,
    currency := p.currency, exchange := p.exchange, conId := p.conId, asOf := now }

def updatePositionRow (r : PositionRow) (p : ParsedPosition) (now : Int) : PositionRow :=
  { r with
    quantity := p.quantity, avgEntryPrice := p.avgEntryPrice, marketValue := p.marketValue,
    costBasis := p.costBasis, unrealizedPnl := p.unrealizedPnl,
    sector := (Dict.get? SECTOR_MAP p.symbol).getD (if r.sector = "" then "Unknown" else r.sector),
    venue := p.venue.value, currency := p.currency, exchange := p.exchange,
    conId := match p.conId with
      | some c => some c
      | none => r.conId,
    asOf := now }

/-- One holding: the row of its contract id, else that of its symbol and venue, else a new row,
    which no index knows. -/
def applyPosition (now : Int) (ix : RowIndex) (p : ParsedPosition) : RowIndex :=
  let key := (p.symbol, p.venue.value)
  match (p.conId.bind (lookup ix.byCon)).orElse fun _ => lookup ix.byKey key with
  | none => { ix with rows := ix.rows ++ [newPositionRow p (freshRowId ix.rows) now] }
  | some id =>
    { rows := ix.rows.map fun r => if r.id = id then updatePositionRow r p now else r,
      byKey := put ix.byKey key id,
      byCon := match p.conId with
        | some c => put ix.byCon c id
        | none => ix.byCon }

def dropUnseen (parsed : List ParsedPosition) (ix : RowIndex) : List PositionRow :=
  let seen := parsed.map fun p => (p.symbol, p.venue.value)
  let seenCon := parsed.filterMap (·.conId)
  ix.rows.filter fun r =>
    r.conId.any (seenCon.contains ·) || ix.byKey.all fun e => e.2 != r.id || seen.contains e.1

/-- Whether the flush meets the unique column pair at no statement. The `UPDATE`s are sent in the
    order of the ids, then the `INSERT`s, and the `DELETE`s last: a row may not be moved to the
    listing of a row after it, nor to that of a row about to be deleted. -/
def Flushes (before after : List PositionRow) : Prop :=
  (after.map PositionRow.listing).Nodup ∧
    ∀ r ∈ after, ∀ s ∈ before, r.id < s.id → r.listing ≠ s.listing

instance (before after : List PositionRow) : Decidable (Flushes before after) :=
  inferInstanceAs (Decidable (_ ∧ _))

theorem Flushes.dropUnseen {before : List PositionRow} {parsed : List ParsedPosition}
    {ix : RowIndex} (h : Flushes before ix.rows) :
    ((dropUnseen parsed ix).map PositionRow.listing).Nodup :=
  h.1.sublist (List.filter_sublist.map _)

section

variable [Casing]

/-- The position rows after a sync; `none` where the flush violates the unique column pair. -/
def syncRows (table : KeyedTable PositionRow.listing) (parsed : List ParsedPosition) (now : Int) :
    Option (KeyedTable PositionRow.listing) :=
  let ix := parsed.foldl (applyPosition now) (RowIndex.ofRows table.rows)
  if h : Flushes table.rows ix.rows then some ⟨dropUnseen parsed ix, h.dropUnseen⟩ else none

/-! ## Snapshots -/

/-- What decides whether a report is news: the sorted position rows are the rows up to order. -/
structure Fingerprint where
  equity : ℚ
  cash : ℚ
  positions : Multiset (String × String × ℚ × ℚ)
  deriving DecidableEq

structure VenueBook where
  marketValue : ℚ
  positions : ℚ
  weightPct : ℚ
  deriving DecidableEq

structure PortfolioSnapshot where
  asOf : Int
  equity : ℚ
  cash : ℚ
  cashPct : ℚ
  grossExposurePct : ℚ
  dailyPnl : ℚ
  dailyPnlPct : ℚ
  drawdownPct : ℚ
  peakEquity : ℚ
  openPositions : ℕ
  fingerprint : Fingerprint
  baseCurrency : String
  cashByCurrency : Dict ℚ
  venueBooks : Dict VenueBook

def venueBook (parsed : List ParsedPosition) (equity : ℚ) (v : Venue) : VenueBook :=
  let held := parsed.filter fun p => p.venue = v ∧ 1 / 10 ^ 12 ≤ |p.quantity|
  let mv := (held.map fun p => |p.marketValue|).sum
  { marketValue := mv, positions := held.length,
    weightPct := if 0 < equity then mv / equity * 100 else 0 }

/-- `summarize_venue_books`. -/
def summarizeVenueBooks (parsed : List ParsedPosition) (equity : ℚ) : Dict VenueBook :=
  [Venue.us, Venue.au].map fun v => (v.value, venueBook parsed equity v)

/-- The gross exposure: the broker's own figure when it gives a positive one, else the sum of
    market values when they are all in the base currency. -/
def grossExposurePct (a : AccountReport) (parsed : List ParsedPosition) (equity : ℚ) : ℚ :=
  let gross := (parsed.map fun p => |p.marketValue|).sum
  let base := Casing.upper a.base
  let native := parsed.map fun p => Casing.upper (p.currency.getD base)
  let total :=
    match floatOfText a.longMarketValue with
    | some g => if 0 < g then g else if native.all (· == base) then gross else 0
    | none => if native.all (· == base) then gross else 0
  if equity = 0 then 0 else total / equity * 100

def fingerprintOf (equity cash : ℚ) (parsed : List ParsedPosition) : Fingerprint :=
  { equity := roundTo 4 equity, cash := roundTo 4 cash,
    positions := Multiset.ofList (parsed.map fun p =>
      (p.symbol, p.venue.value, roundTo 6 p.quantity, roundTo 4 p.marketValue)) }

/-- What the day has earned, in percent of the last equity; `0` for a report without one. -/
def dailyPnlPct (equity : ℚ) (prior : Option ℚ) : ℚ :=
  match prior with
  | some p => if p = 0 then 0 else (equity - p) / p * 100
  | none => 0

/-- `max(0, (peak - equity) / peak * 100)`. -/
def drawdownFrom (peak equity : ℚ) : ℚ := max 0 ((peak - equity) / peak * 100)

def newSnapshot (a : AccountReport) (parsed : List ParsedPosition) (equity cash : ℚ)
    (prior : Option ℚ) (last : Option PortfolioSnapshot) (now : Int) : PortfolioSnapshot :=
  let peak := match last with
    | some s => max equity s.peakEquity
    | none => equity
  let carried := match last with
    | some s => s.drawdownPct
    | none => 0
  { asOf := now, equity := equity, cash := cash,
    cashPct := if equity = 0 then 100 else cash / equity * 100,
    grossExposurePct := grossExposurePct a parsed equity,
    dailyPnl := match prior with
      | some p => equity - p
      | none => 0,
    dailyPnlPct := dailyPnlPct equity prior,
    drawdownPct := if 0 < peak then drawdownFrom peak equity else carried,
    peakEquity := peak, openPositions := parsed.length,
    fingerprint := fingerprintOf equity cash parsed, baseCurrency := a.base,
    cashByCurrency := a.cashByCurrency, venueBooks := summarizeVenueBooks parsed equity }

/-! ## The sync and the view -/

structure Book where
  positions : KeyedTable PositionRow.listing
  snapshots : List PortfolioSnapshot
  clock : Int

def Book.empty : Book := { positions := KeyedTable.empty, snapshots := [], clock := 0 }

def Book.last (b : Book) : Option PortfolioSnapshot :=
  @List.argmax _ _ Int.instLinearOrder.toPartialOrder.toPreorder _ (·.asOf) b.snapshots

/-- One call of `sync_from_broker`; `wait` is the time since the call before it. -/
structure SyncCall where
  account : AccountReport
  positions : List PositionReport
  forceSnapshot : Bool
  wait : ℕ

structure SyncResult where
  equity : ℚ
  cash : ℚ
  cashPct : ℚ
  grossExposurePct : ℚ
  openPositions : ℕ
  dailyPnl : ℚ
  dailyPnlPct : ℚ
  snapshotWritten : Bool
  deriving DecidableEq

def SyncCall.now (c : SyncCall) (b : Book) : Int := b.clock + c.wait + 1

/-- `sync_from_broker`; `none` where it raises. -/
def syncFromBroker (cfg : Settings) (b : Book) (c : SyncCall) : Option (Book × SyncResult) := do
  let now := c.now b
  let equity ← c.account.equity?
  let cash ← c.account.cash?
  let parsed ← parsePositions cfg c.positions
  let table ← syncRows b.positions parsed now
  let writes := c.forceSnapshot || decide
    (b.last.map (·.fingerprint) ≠ some (fingerprintOf equity cash parsed))
  let prior ← c.account.priorEquity writes
  let snap := newSnapshot c.account parsed equity cash prior b.last now
  let snapshots := if writes then b.snapshots ++ [snap] else b.snapshots
  let shown := if writes then some snap else b.last
  pure
    ({ positions := table, snapshots := snapshots, clock := now },
      { equity := equity, cash := cash,
        cashPct := if equity = 0 then 100 else cash / equity * 100,
        grossExposurePct := grossExposurePct c.account parsed equity,
        openPositions := parsed.length,
        dailyPnl := (shown.map (·.dailyPnl)).getD 0,
        dailyPnlPct := (shown.map (·.dailyPnlPct)).getD 0, snapshotWritten := writes })

def syncStep (cfg : Settings) (b : Book) (c : SyncCall) : Book :=
  ((syncFromBroker cfg b c).map (·.1)).getD b

structure PositionSnapshot where
  symbol : String
  quantity : ℚ
  marketValue : ℚ
  costBasis : ℚ
  unrealizedPnl : ℚ
  sector : String
  weightPct : ℚ
  venue : String
  currency : Option String
  conId : Option Int
  deriving DecidableEq

/-- The losing run the view reports, counted from the closed lifecycles. -/
structure LossStreak where
  consecutiveLosses : ℕ
  cooldownUntil : Option Int
  deriving DecidableEq

structure PortfolioStateInput where
  asOf : Option Int
  equity : ℚ
  cash : ℚ
  cashPct : ℚ
  grossExposurePct : ℚ
  positions : List PositionSnapshot
  dailyPnlPct : ℚ
  drawdownPct : ℚ
  consecutiveLosses : Int
  tradingHalted : Bool
  cooldownUntil : Option Int
  baseCurrency : String
  cashByCurrency : Dict ℚ
  venueBooks : Dict VenueBook
  deriving DecidableEq

def positionSnapshot (equity : ℚ) (r : PositionRow) : PositionSnapshot :=
  { symbol := r.symbol, quantity := r.quantity, marketValue := r.marketValue,
    costBasis := r.costBasis, unrealizedPnl := r.unrealizedPnl, sector := r.sector,
    weightPct := r.marketValue / equity * 100, venue := if r.venue = "" then "US" else r.venue,
    currency := r.currency, conId := r.conId.filter (· ≠ 0) }

/-- `portfolio_state_input`. An `asOf` of `none` is the time of the read. -/
def portfolioStateInput (cfg : Settings) (streak : LossStreak) (b : Book) : PortfolioStateInput :=
  match b.last with
  | none =>
    { asOf := none, equity := cfg.startingCash, cash := cfg.startingCash, cashPct := 100,
      grossExposurePct := 0, positions := [], dailyPnlPct := 0, drawdownPct := 0,
      consecutiveLosses := streak.consecutiveLosses, tradingHalted := false,
      cooldownUntil := streak.cooldownUntil, baseCurrency := "USD", cashByCurrency := [],
      venueBooks := [] }
  | some snap =>
    { asOf := some snap.asOf, equity := snap.equity, cash := snap.cash,
      cashPct := snap.cashPct, grossExposurePct := snap.grossExposurePct,
      positions := b.positions.rows.map
        (positionSnapshot (if snap.equity = 0 then 1 else snap.equity)),
      dailyPnlPct := snap.dailyPnlPct, drawdownPct := snap.drawdownPct,
      consecutiveLosses := streak.consecutiveLosses, tradingHalted := false,
      cooldownUntil := streak.cooldownUntil,
      baseCurrency := if snap.baseCurrency = "" then "USD" else snap.baseCurrency,
      cashByCurrency := balances snap.cashByCurrency, venueBooks := snap.venueBooks }

def results (cfg : Settings) : Book → List SyncCall → List SyncResult
  | _, [] => []
  | b, c :: calls =>
    match syncFromBroker cfg b c with
    | none => results cfg b calls
    | some (b', r) => r :: results cfg b' calls

/-! ## What one call does -/

/-- The call writes a snapshot: it is forced, or its fingerprint is not the newest one's. -/
def WritesSnapshot (cfg : Settings) (b : Book) (c : SyncCall) : Prop :=
  c.forceSnapshot = true ∨ ∀ equity cash parsed, c.account.equity? = some equity →
    c.account.cash? = some cash → parsePositions cfg c.positions = some parsed →
    b.last.map (·.fingerprint) ≠ some (fingerprintOf equity cash parsed)

theorem sync_cases {cfg : Settings} {b b' : Book} {c : SyncCall} {r : SyncResult}
    (h : syncFromBroker cfg b c = some (b', r)) :
    ∃ parsed, c.account.equity? = some r.equity ∧ c.account.cash? = some r.cash ∧
      parsePositions cfg c.positions = some parsed ∧ b'.clock = c.now b ∧
      ((r.snapshotWritten = true ∧ (c.forceSnapshot = true ∨
          b.last.map (·.fingerprint) ≠ some (fingerprintOf r.equity r.cash parsed)) ∧
        ∃ prior, c.account.lastEquity? = some prior ∧ b'.snapshots = b.snapshots ++
          [newSnapshot c.account parsed r.equity r.cash prior b.last (c.now b)]) ∨
      (r.snapshotWritten = false ∧ b'.snapshots = b.snapshots ∧
        b.last.map (·.fingerprint) = some (fingerprintOf r.equity r.cash parsed) ∧
        c.forceSnapshot = false)) := by
  unfold syncFromBroker at h
  simp only [Option.bind_eq_bind, Option.bind_eq_some_iff, Option.pure_def,
    Option.some.injEq, Prod.mk.injEq] at h
  obtain ⟨equity, heq, cash, hcash, parsed, hparsed, table, -, prior, hprior, hb, hr⟩ := h
  subst hb hr
  refine ⟨parsed, heq, hcash, hparsed, rfl, ?_⟩
  by_cases hw : (c.forceSnapshot || decide
      (b.last.map (·.fingerprint) ≠ some (fingerprintOf equity cash parsed))) = true
  · rw [hw] at hprior
    refine Or.inl ⟨hw, ?_, prior, hprior, if_pos hw⟩
    simpa using hw
  · refine Or.inr ⟨by simpa using hw, if_neg hw, ?_⟩
    simp only [Bool.or_eq_true, decide_eq_true_eq, not_or, not_not] at hw
    exact ⟨hw.2, by simpa using hw.1⟩

theorem sync_writes_iff {cfg : Settings} {b b' : Book} {c : SyncCall} {r : SyncResult}
    (h : syncFromBroker cfg b c = some (b', r)) :
    r.snapshotWritten = true ↔ WritesSnapshot cfg b c := by
  obtain ⟨parsed, heq, hcash, hparsed, -, ⟨hw, hnews, -⟩ | ⟨hw, -, hold, hforce⟩⟩ := sync_cases h
  · refine iff_of_true hw (hnews.imp_right ?_)
    intro hne equity cash parsed' heq' hcash' hparsed'
    rw [heq, Option.some.injEq] at heq'
    rw [hcash, Option.some.injEq] at hcash'
    rw [hparsed, Option.some.injEq] at hparsed'
    rwa [← heq', ← hcash', ← hparsed']
  · refine iff_of_false (by simp [hw]) ?_
    intro hor
    rcases hor with hf | hne
    · simp [hforce] at hf
    · exact hne _ _ _ heq hcash hparsed hold

end

/-! ## What the snapshots of a run say -/

/-- The drawdown against a peak; none is measured against a peak that is not positive. -/
def drawdownAt (peak equity : ℚ) : ℚ := if 0 < peak then drawdownFrom peak equity else 0

/-- **The snapshots of a book.** None is younger than the last call, each has the fingerprint of
    its own figures, the newest one is the last written, and it carries the greatest equity of
    them all and the drawdown against that. -/
structure Charted (b : Book) : Prop where
  past : ∀ s ∈ b.snapshots, s.asOf ≤ b.clock
  figures : ∀ s ∈ b.snapshots, s.fingerprint.equity = roundTo 4 s.equity ∧
    s.fingerprint.cash = roundTo 4 s.cash
  newest : b.last = b.snapshots.getLast?
  peak : ∀ s, b.last = some s → IsGreatest {e | e ∈ b.snapshots.map (·.equity)} s.peakEquity
  drawdown : ∀ s, b.last = some s → s.drawdownPct = drawdownAt s.peakEquity s.equity

theorem Charted.empty : Charted Book.empty :=
  { past := fun _ h => absurd h List.not_mem_nil
    figures := fun _ h => absurd h List.not_mem_nil
    newest := rfl
    peak := fun _ h => nomatch h
    drawdown := fun _ h => nomatch h }

theorem last_append {b b' : Book} {s : PortfolioSnapshot}
    (hsnaps : b'.snapshots = b.snapshots ++ [s]) (hyoung : ∀ t ∈ b.snapshots, t.asOf < s.asOf) :
    b'.last = some s := by
  have hconcat : b'.last = Option.casesOn (motive := fun _ => Option PortfolioSnapshot) b.last
      (some s) fun t => if t.asOf < s.asOf then some s else some t := by
    unfold Book.last
    rw [hsnaps]
    exact List.argmax_concat (fun t : PortfolioSnapshot => t.asOf) s b.snapshots
  rw [hconcat]
  cases hmax : b.last with
  | none => rfl
  | some t => simp only [hyoung t (List.argmax_mem hmax), if_true]

theorem newSnapshot_peak [Casing] {a : AccountReport} {parsed : List ParsedPosition} {equity cash : ℚ}
    {prior : Option ℚ} {b : Book} {now : Int} (h : Charted b) :
    IsGreatest {e | e ∈ (b.snapshots ++ [newSnapshot a parsed equity cash prior b.last now]).map
      (·.equity)} (newSnapshot a parsed equity cash prior b.last now).peakEquity := by
  simp only [List.map_append, List.map_cons, List.map_nil, List.mem_append, List.mem_singleton]
  cases hlast : b.last with
  | none =>
    have hnil : b.snapshots = [] := by
      have hnew := h.newest
      rw [hlast] at hnew
      exact List.getLast?_eq_none_iff.mp hnew.symm
    refine ⟨Or.inr rfl, ?_⟩
    intro e he
    rcases he with he | rfl
    · simp [hnil] at he
    · exact le_rfl
  | some s =>
    have hpeak := h.peak s hlast
    refine ⟨?_, ?_⟩
    · show max equity s.peakEquity ∈ _ ∨ max equity s.peakEquity = equity
      rcases le_total equity s.peakEquity with hle | hle
      · rw [max_eq_right hle]
        exact Or.inl hpeak.1
      · exact Or.inr (max_eq_left hle)
    · intro e he
      rcases he with he | rfl
      · exact le_max_of_le_right (hpeak.2 he)
      · exact le_max_left _ _

theorem newSnapshot_drawdown [Casing] {a : AccountReport} {parsed : List ParsedPosition} {equity cash : ℚ}
    {prior : Option ℚ} {b : Book} {now : Int} (h : Charted b) :
    (newSnapshot a parsed equity cash prior b.last now).drawdownPct =
      drawdownAt (newSnapshot a parsed equity cash prior b.last now).peakEquity equity := by
  cases hlast : b.last with
  | none => rfl
  | some s =>
    by_cases hpos : 0 < max equity s.peakEquity
    · simp only [newSnapshot, drawdownAt, if_pos hpos]
    · -- a peak that is not positive never was, so what is carried on is zero
      have hold : ¬ 0 < s.peakEquity := fun hs => hpos (lt_max_of_lt_right hs)
      have hcarried := h.drawdown s hlast
      simp only [drawdownAt, if_neg hold] at hcarried
      simp only [newSnapshot, drawdownAt, if_neg hpos, hcarried]

theorem last_of_written [Casing] {cfg : Settings} {b b' : Book} {c : SyncCall} {r : SyncResult}
    (h : syncFromBroker cfg b c = some (b', r)) (hb : Charted b) (hw : r.snapshotWritten = true) :
    ∃ parsed prior, c.account.lastEquity? = some prior ∧
      b'.last = some (newSnapshot c.account parsed r.equity r.cash prior b.last (c.now b)) ∧
      b'.snapshots = b.snapshots ++
        [newSnapshot c.account parsed r.equity r.cash prior b.last (c.now b)] := by
  obtain ⟨parsed, -, -, -, -, ⟨-, -, prior, hprior, hsnaps⟩ | ⟨hno, -⟩⟩ := sync_cases h
  · refine ⟨parsed, prior, hprior, last_append hsnaps ?_, hsnaps⟩
    intro t ht
    have hle := hb.past t ht
    show t.asOf < b.clock + c.wait + 1
    omega
  · rw [hw] at hno
    cases hno

theorem last_congr {b b' : Book} (h : b'.snapshots = b.snapshots) : b'.last = b.last := by
  unfold Book.last
  rw [h]

variable [Casing]

theorem last_of_skipped {cfg : Settings} {b b' : Book} {c : SyncCall} {r : SyncResult}
    (h : syncFromBroker cfg b c = some (b', r)) (hw : r.snapshotWritten = false) :
    b'.snapshots = b.snapshots ∧ b'.last = b.last := by
  obtain ⟨-, -, -, -, -, ⟨hyes, -⟩ | ⟨-, hsnaps, -⟩⟩ := sync_cases h
  · rw [hw] at hyes
    cases hyes
  · exact ⟨hsnaps, last_congr hsnaps⟩

/-- A sync keeps the book charted. -/
theorem Charted.sync {cfg : Settings} {b b' : Book} {c : SyncCall} {r : SyncResult}
    (hb : Charted b) (h : syncFromBroker cfg b c = some (b', r)) : Charted b' := by
  have hclock : b'.clock = c.now b := by
    obtain ⟨-, -, -, -, hclock, -⟩ := sync_cases h
    exact hclock
  have htime : b.clock ≤ b'.clock := by
    rw [hclock]
    show b.clock ≤ b.clock + c.wait + 1
    omega
  cases hw : r.snapshotWritten with
  | true =>
    obtain ⟨parsed, prior, -, hlast, hsnaps⟩ := last_of_written h hb hw
    constructor
    case past =>
      intro s hs
      rw [hsnaps] at hs
      rcases List.mem_append.mp hs with hs | hs
      · exact (hb.past s hs).trans htime
      · rw [List.mem_singleton.mp hs, hclock]
        exact le_rfl
    case figures =>
      intro s hs
      rw [hsnaps] at hs
      rcases List.mem_append.mp hs with hs | hs
      · exact hb.figures s hs
      · rw [List.mem_singleton.mp hs]
        exact ⟨rfl, rfl⟩
    case newest =>
      rw [hlast, hsnaps, List.getLast?_append]
      rfl
    case peak =>
      intro s hs
      rw [hlast, Option.some.injEq] at hs
      rw [hsnaps, ← hs]
      exact newSnapshot_peak hb
    case drawdown =>
      intro s hs
      rw [hlast, Option.some.injEq] at hs
      rw [← hs]
      exact newSnapshot_drawdown hb
  | false =>
    obtain ⟨hsnaps, hlast⟩ := last_of_skipped h hw
    constructor
    case past =>
      intro s hs
      rw [hsnaps] at hs
      exact (hb.past s hs).trans htime
    case figures =>
      rw [hsnaps]
      exact hb.figures
    case newest =>
      rw [hlast, hsnaps]
      exact hb.newest
    case peak =>
      rw [hlast, hsnaps]
      exact hb.peak
    case drawdown =>
      rw [hlast]
      exact hb.drawdown

theorem Charted.step {cfg : Settings} {b : Book} (c : SyncCall) (hb : Charted b) :
    Charted (syncStep cfg b c) := by
  unfold syncStep
  cases h : syncFromBroker cfg b c with
  | none => exact hb
  | some out => exact hb.sync h

theorem Charted.run (cfg : Settings) (calls : List SyncCall) :
    Charted (runFrom (syncStep cfg) Book.empty calls) :=
  run_invariant (fun _ c hb => hb.step c) Charted.empty

/-! ## The reports of a run -/

def writtenEquities (rs : List SyncResult) : List ℚ :=
  (rs.filter (·.snapshotWritten)).map (·.equity)

theorem snapshots_equities (cfg : Settings) {b : Book} (hb : Charted b) (calls : List SyncCall) :
    (runFrom (syncStep cfg) b calls).snapshots.map (·.equity) =
      b.snapshots.map (·.equity) ++ writtenEquities (results cfg b calls) := by
  induction calls generalizing b with
  | nil => exact (List.append_nil _).symm
  | cons c calls ih =>
    rw [runFrom_cons, ih (hb.step c)]
    cases h : syncFromBroker cfg b c with
    | none => simp [results, syncStep, h]
    | some out =>
      have hstep : syncStep cfg b c = out.1 := by simp [syncStep, h]
      simp only [results, h, hstep, writtenEquities]
      cases hw : out.2.snapshotWritten with
      | true =>
        obtain ⟨parsed, prior, -, -, hsnaps⟩ := last_of_written h hb hw
        simp [hsnaps, hw, newSnapshot]
      | false =>
        simp [(last_of_skipped h hw).1, hw]

theorem last_close {cfg : Settings} {b b' : Book} {c : SyncCall} {r : SyncResult}
    (h : syncFromBroker cfg b c = some (b', r)) (hb : Charted b) :
    ∃ s, b'.last = some s ∧ |s.equity - r.equity| ≤ 1 / 10 ^ 4 ∧
      |s.cash - r.cash| ≤ 1 / 10 ^ 4 := by
  cases hw : r.snapshotWritten with
  | true =>
    obtain ⟨parsed, prior, -, hlast, -⟩ := last_of_written h hb hw
    refine ⟨_, hlast, ?_, ?_⟩ <;> simp [newSnapshot]
  | false =>
    obtain ⟨parsed, -, -, -, -, ⟨hyes, -⟩ | ⟨-, hsnaps, hfp, -⟩⟩ := sync_cases h
    · rw [hw] at hyes
      cases hyes
    · obtain ⟨s, hs, hfp⟩ := Option.map_eq_some_iff.mp hfp
      have hlast := (last_congr hsnaps).trans hs
      have hfig := hb.figures s (List.argmax_mem hs)
      rw [hfp] at hfig
      exact ⟨s, hlast, abs_sub_le_of_roundTo_eq hfig.1.symm, abs_sub_le_of_roundTo_eq hfig.2.symm⟩

theorem results_close (cfg : Settings) {b : Book} (hb : Charted b) (calls : List SyncCall) :
    ∀ x ∈ results cfg b calls,
      ∃ e ∈ (runFrom (syncStep cfg) b calls).snapshots.map (·.equity),
        |e - x.equity| ≤ 1 / 10 ^ 4 := by
  induction calls generalizing b with
  | nil =>
    intro x hx
    exact absurd hx List.not_mem_nil
  | cons c calls ih =>
    intro x hx
    cases h : syncFromBroker cfg b c with
    | none =>
      simp only [results, h] at hx
      have hstep : syncStep cfg b c = b := by simp [syncStep, h]
      rw [runFrom_cons, hstep]
      exact ih hb x hx
    | some out =>
      simp only [results, h] at hx
      have hstep : syncStep cfg b c = out.1 := by simp [syncStep, h]
      have hout := hb.sync h
      rw [runFrom_cons, hstep]
      rcases List.mem_cons.mp hx with rfl | hx
      · obtain ⟨s, hs, hclose, -⟩ := last_close h hb
        refine ⟨s.equity, ?_, hclose⟩
        rw [snapshots_equities cfg hout calls]
        exact List.mem_append_left _ (List.mem_map_of_mem (List.argmax_mem hs))
      · exact ih hout x hx

/-! ## The view after a call -/

/-- **The view is that of a report.** Its equity, cash and balances, the day's gain against its
    last equity when it gives one, and the drawdown from the greatest of the given equities. -/
structure Mirrors (a : AccountReport) (equities : List ℚ) (v : PortfolioStateInput) : Prop where
  equity : a.equity? = some v.equity
  cash : a.cash? = some v.cash
  balances : v.cashByCurrency = balances a.cashByCurrency
  dailyPnl : ∀ p, a.lastEquity? = some (some p) → v.dailyPnlPct = dailyPnlPct v.equity (some p)
  drawdown : ∃ peak, IsGreatest {e | e ∈ equities} peak ∧ v.drawdownPct = drawdownAt peak v.equity

def MirrorsReport (cfg : Settings) (streak : LossStreak) (calls : List SyncCall) (c : SyncCall) :
    Prop :=
  ∀ b' r, syncFromBroker cfg (runFrom (syncStep cfg) Book.empty calls) c = some (b', r) →
    Mirrors c.account ((results cfg Book.empty (calls ++ [c])).map (·.equity))
      (portfolioStateInput cfg streak b')

theorem mirrors_of_written {cfg : Settings} {b b' : Book} {c : SyncCall} {r : SyncResult}
    {equities : List ℚ} (streak : LossStreak) (h : syncFromBroker cfg b c = some (b', r))
    (hb : Charted b) (hw : r.snapshotWritten = true)
    (hequities : b'.snapshots.map (·.equity) = equities) :
    Mirrors c.account equities (portfolioStateInput cfg streak b') := by
  obtain ⟨parsed, prior, hprior, hlast, -⟩ := last_of_written h hb hw
  obtain ⟨-, heq, hcash, -⟩ := sync_cases h
  have hb' := hb.sync h
  have hpeak := hb'.peak _ hlast
  have hdraw := hb'.drawdown _ hlast
  rw [hequities] at hpeak
  unfold portfolioStateInput
  rw [hlast]
  refine ⟨heq, hcash, rfl, ?_, _, hpeak, hdraw⟩
  intro p hp
  rw [hprior, Option.some.injEq] at hp
  subst hp
  rfl

/-- **What the view says right after a sync.** A call writes a snapshot exactly when it is
    forced or its fingerprint is new, and the view is then that of its report, the drawdown
    taken from the greatest equity that wrote a snapshot. After any call the equity and cash
    shown are the report's up to the rounding of the fingerprint, and the drawdown is that of
    the equity shown against a peak no report so far lies above by more than the rounding. -/
theorem view_after_sync (cfg : Settings) (streak : LossStreak) (calls : List SyncCall)
    (c : SyncCall) {b' : Book} {r : SyncResult}
    (h : syncFromBroker cfg (runFrom (syncStep cfg) Book.empty calls) c = some (b', r)) :
    (r.snapshotWritten = true ↔ WritesSnapshot cfg (runFrom (syncStep cfg) Book.empty calls) c) ∧
    (r.snapshotWritten = true →
      Mirrors c.account (writtenEquities (results cfg Book.empty (calls ++ [c])))
        (portfolioStateInput cfg streak b')) ∧
    (∃ equity cash, c.account.equity? = some equity ∧ c.account.cash? = some cash ∧
      |(portfolioStateInput cfg streak b').equity - equity| ≤ 1 / 10 ^ 4 ∧
      |(portfolioStateInput cfg streak b').cash - cash| ≤ 1 / 10 ^ 4) ∧
    ∃ peak, IsGreatest {e | e ∈ writtenEquities (results cfg Book.empty (calls ++ [c]))} peak ∧
      (∀ x ∈ results cfg Book.empty (calls ++ [c]), x.equity ≤ peak + 1 / 10 ^ 4) ∧
      (portfolioStateInput cfg streak b').drawdownPct =
        drawdownAt peak (portfolioStateInput cfg streak b').equity := by
  have hb := Charted.run cfg calls
  have hb' := hb.sync h
  have hstep : runFrom (syncStep cfg) Book.empty (calls ++ [c]) = b' := by
    rw [runFrom_append]
    simp [syncStep, h]
  have hequities : b'.snapshots.map (·.equity) =
      writtenEquities (results cfg Book.empty (calls ++ [c])) := by
    have hall := snapshots_equities cfg Charted.empty (calls ++ [c])
    rw [hstep] at hall
    exact hall
  obtain ⟨s, hlast, hequity, hcash⟩ := last_close h hb
  obtain ⟨-, heq, hca, -⟩ := sync_cases h
  have hpeak := hb'.peak s hlast
  rw [hequities] at hpeak
  unfold portfolioStateInput
  simp only [hlast]
  refine ⟨sync_writes_iff h, ?_, ⟨r.equity, r.cash, heq, hca, hequity, hcash⟩,
    s.peakEquity, hpeak, ?_, hb'.drawdown s hlast⟩
  · intro hw
    have hmirror := mirrors_of_written streak h hb hw hequities
    unfold portfolioStateInput at hmirror
    rw [hlast] at hmirror
    exact hmirror
  · intro x hx
    obtain ⟨e, he, hclose⟩ := results_close cfg Charted.empty (calls ++ [c]) x hx
    rw [hstep, hequities] at he
    have hle : e ≤ s.peakEquity := hpeak.2 he
    have hnear := (abs_le.mp hclose).1
    linarith

end Sync

/-! ## A report the view does not follow -/

section Sample

attribute [local instance] asciiCasing

def flatReport (equity cash lastEquity : ℚ) : SyncCall :=
  { account :=
      { equity := .num equity, portfolioValue := .null, cash := .num cash,
        lastEquity := .num lastEquity, longMarketValue := .null, currency := "USD",
        baseCurrency := "", cashByCurrency := [("USD", cash)] },
    positions := [], forceSnapshot := false, wait := 0 }

/-- **A new day without a new snapshot.** The account stands at 900 on both days. The first
    report's last equity is 1000; the second day's is 900, and the view still says the ten
    percent loss of the day before. -/
theorem new_day_shows_old_loss :
    ¬ MirrorsReport mockSettings ⟨0, none⟩ [flatReport 900 900 1000] (flatReport 900 900 900) := by
  intro hall
  have hshown : (syncFromBroker mockSettings
      (runFrom (syncStep mockSettings) Book.empty [flatReport 900 900 1000])
      (flatReport 900 900 900)).map
        (fun out => (portfolioStateInput mockSettings ⟨0, none⟩ out.1).dailyPnlPct) =
      some (-10) := by decide +kernel
  obtain ⟨out, hout, hpnl⟩ := Option.map_eq_some_iff.mp hshown
  have hview := hall out.1 out.2 hout
  have hzero := hview.dailyPnl 900 rfl
  have hequity : (portfolioStateInput mockSettings ⟨0, none⟩ out.1).equity = 900 :=
    (Option.some.inj hview.equity).symm
  rw [hpnl, hequity] at hzero
  revert hzero
  decide +kernel

theorem view_after_sync_two :
    ∃ b' r, syncFromBroker mockSettings
        (runFrom (syncStep mockSettings) Book.empty [flatReport 900 900 1000])
        (flatReport 800 800 900) = some (b', r) ∧
      Mirrors (flatReport 800 800 900).account [900, 800]
        (portfolioStateInput mockSettings ⟨0, none⟩ b') := by
  have hwrites : (syncFromBroker mockSettings
      (runFrom (syncStep mockSettings) Book.empty [flatReport 900 900 1000])
      (flatReport 800 800 900)).map (fun out => out.2.snapshotWritten) = some true := by
    decide +kernel
  have hseen : writtenEquities (results mockSettings Book.empty
      ([flatReport 900 900 1000] ++ [flatReport 800 800 900])) = [900, 800] := by decide +kernel
  obtain ⟨out, hout, hw⟩ := Option.map_eq_some_iff.mp hwrites
  refine ⟨out.1, out.2, hout, ?_⟩
  have hview := view_after_sync mockSettings ⟨0, none⟩ [flatReport 900 900 1000]
    (flatReport 800 800 900) hout
  rw [hseen] at hview
  exact hview.2.1 hw

end Sample

end Investor.Execution.PositionSync
