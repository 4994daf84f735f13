import Investor.Universe.Membership
import Investor.Workflow.Desk
import Mathlib.Data.Prod.Lex

/-!
# The watchlist and its writers

`UniverseService` keeps one table, the watchlist, with a row for each ticker. Six functions
write it (`service.py`): `ensureSeeded` adds the allowlists and puts the standing sleeve roster
back on its books, `reconstituteWatchlist` promotes the membership book and pauses the rest,
`applyProposals` applies the manager's reply, `hygieneActiveWatchlist` pauses what fails the
liquidity screen, `stampOutcomeStats` writes a payload, and every read of the universe begins
with `ensureSeeded`.

What a writer does to the table is said by what it does to the status of a ticker (`statusOf`):
one lemma for each writer, and the arguments about runs use no other.

Instants are stored in the payload as `stamp`s.
-/

namespace Investor.Universe

open Lib Market
open Workflow (stamp stamp?)

/-! ## Rows -/

inductive WatchStatus
  | active | paused | removed
  deriving DecidableEq

structure WatchlistSymbol [StripCasing] where
  symbol : Ticker
  horizon : String
  status : WatchStatus
  priority : Int
  thesis : String
  invalidation : String
  source : String
  lastReviewedAt : Option Int
  payload : Dict Json

abbrev Watchlist [StripCasing] := KeyedTable WatchlistSymbol.symbol

/-- The latest numbers of one name, each of which may be missing. -/
structure Quote where
  last : Option ℚ
  avgVolume20d : Option ℚ
  spreadBps : Option ℚ

/-- The stored snapshots, and what the provider answers; `none` where the fetch fails. -/
structure QuoteFeed where
  snapshots : String → Option Quote
  provider : Option (String → Option Quote)

structure Moment where
  now : Int
  isoWeek : ℕ
  positions : List (String × ℚ)
  quotes : QuoteFeed

/-! ## How long a name is listed -/

/-- `stamp_active_since`. -/
def stampActiveSince (payload : Dict Json) (now : Int) (reset : Bool) : Dict Json :=
  let out :=
    if reset || (stamp? (Dict.at payload "active_since")).isNone then
      Dict.set payload "active_since" (stamp now)
    else payload
  Dict.erase out "paused_at"

/-- `clear_active_since`. -/
def clearActiveSince (payload : Dict Json) (now : Int) : Dict Json :=
  Dict.set (Dict.erase payload "active_since") "paused_at" (stamp now)

section Service

variable [StripCasing]

/-! ## The liquidity screen -/

structure ScreenHit where
  symbol : String
  passed : Bool
  reasons : List String
  quote : Quote

structure ScreenResult where
  passed : List String
  rejected : List ScreenHit
  skippedNoData : List String
  source : String

/-- `evaluate_liquidity`. -/
def evaluateLiquidity (cfg : UniverseSettings) (symbol : String) (q : Quote) : ScreenHit :=
  let venue := (venueForSymbol symbol cfg.toSettings none).value
  let minVol := venueLiquidityFloor (some venue) cfg.universeScreenerMinAvgVolume
  let maxSpread := venueSpreadCap (some venue) cfg.universeScreenerMaxSpreadBps
  let reasons :=
    (if q.last.any (· < cfg.universeScreenerMinPrice) then ["penny_or_low_price"] else []) ++
      (if q.avgVolume20d.any (· < minVol) then ["insufficient_volume"] else []) ++
      (if q.spreadBps.any (maxSpread < ·) then ["excessive_spread"] else []) ++
      (if q.last.any (· ≤ 0) then ["invalid_price"] else [])
  { symbol := Casing.upper symbol, passed := reasons = [], reasons := reasons, quote := q }

/-- The quotes fetched for the names that have no snapshot, and where the data came from. -/
def fetchMissing (cfg : UniverseSettings) (feed : QuoteFeed) (ordered : List String) :
    (String → Option Quote) × String :=
  let missing := ordered.filter fun s => (feed.snapshots s).isNone
  let stored := ordered.any fun s => (feed.snapshots s).isSome
  if missing ≠ [] ∧ cfg.universeScreenerFetchLive then
    match feed.provider with
    | some quotes => (quotes, if stored then "db+provider" else "provider")
    | none => (fun _ => none, "db")
  else if missing ≠ [] ∧ stored = false then
    -- no data at all: the provider is asked once
    match feed.provider with
    | some quotes => (quotes, "provider")
    | none => (fun _ => none, "empty")
  else (fun _ => none, "db")

/-- `screen_candidates`: a name without data passes. -/
def screenCandidates (cfg : UniverseSettings) (feed : QuoteFeed) (symbols : List String) :
    ScreenResult :=
  let ordered := (symbols.filter fun s => strip s ≠ "").map foldName
  if cfg.universeScreenerEnabled = false then
    { passed := ordered, rejected := [], skippedNoData := [], source := "disabled" }
  else
    let (fetched, source) := fetchMissing cfg feed ordered
    let screen := fun sym => (((feed.snapshots sym).or (fetched sym)).map fun q =>
      evaluateLiquidity cfg sym q : Option ScreenHit)
    { passed := ordered.filter fun sym => ((screen sym).map (·.passed)).getD true
      rejected := ordered.filterMap fun sym => (screen sym).filter fun hit => !hit.passed
      skippedNoData := ordered.filter fun sym => (screen sym).isNone
      source := source }

/-- `_screened_candidate_pool`. -/
def screenedCandidatePool (cfg : UniverseSettings) (idx : IndexSnapshots) (feed : QuoteFeed)
    (themes : List String) (marketRegime : Option String) : ScreenResult :=
  screenCandidates cfg feed ((rankedCandidatePool cfg idx themes marketRegime).map Ticker.text)

/-! ## Seeding -/

def isDynamic (cfg : UniverseSettings) : Bool :=
  Casing.lower (if cfg.universeMode = "" then "dynamic" else cfg.universeMode) = "dynamic"

/-- `_horizon_for` and `_default_horizon`: the standing book, or a default of the venue. -/
def horizonFor (sym : Ticker) (venue : Venue) : String :=
  match assignedHorizon sym.text with
  | some forced => forced
  | none =>
    if venue = .au then
      if sym.text = "JPEQ" then UniverseHorizon.day.value else UniverseHorizon.short.value
    else if sym.text = "AMD" ∨ sym.text = "AAPL" then UniverseHorizon.day.value
    else UniverseHorizon.short.value

def defaultHorizon (cfg : UniverseSettings) (sym : Ticker) : String :=
  horizonFor sym (venueForUniverseSymbol cfg sym)

/-- `seed_books`: the allowlists to seed from, with the place of each name. -/
def seeds (cfg : UniverseSettings) : List (Venue × String × ℕ) :=
  let books := (Venue.us, cfg.tradeAllowlist) ::
    if Venue.au ∈ enabledVenues cfg then [(Venue.au, cfg.tradeAllowlistAu)] else []
  books.flatMap fun (venue, symbols) => symbols.zipIdx.map fun (raw, i) => (venue, raw, i)

def seedRow (now : Int) (venue : Venue) (sym : Ticker) (i : ℕ) : WatchlistSymbol :=
  let horizon := horizonFor sym venue
  { symbol := sym, horizon := horizon, status := .active, priority := max 10 (85 - i * 3),
    thesis := s!"Seeded into {horizon} book from {venue.value} allowlist",
    invalidation := "Liquidity failure or thesis break", source := "seed",
    lastReviewedAt := some now,
    payload := [("seed_index", .num i), ("venue", .str venue.value),
      ("active_since", stamp now)] }

/-- One name of an allowlist, with the number of rows written so far. -/
def addSeed (now : Int) (acc : Watchlist × ℕ) (seed : Venue × String × ℕ) : Watchlist × ℕ :=
  let (venue, raw, i) := seed
  let sym := Ticker.ofText raw
  if sym.text = "" ∨ acc.1.HasKey sym then acc
  else (acc.1.putNew (seedRow now venue sym i), acc.2 + 1)

def needsRepair (held : List String) (r : WatchlistSymbol) : Option String :=
  (assignedHorizon r.symbol.text).filter fun want =>
    r.symbol.text ∉ held ∧ ¬ (r.horizon = want ∧ r.status = .active)

def repairRow (held : List String) (r : WatchlistSymbol) : WatchlistSymbol :=
  match needsRepair held r with
  | none => r
  | some want =>
    { r with
      horizon := want
      thesis := if r.horizon ≠ want then s!"Standing {want} sleeve" else r.thesis
      status := .active
      source := "repair" }

theorem symbol_repairRow (held : List String) (r : WatchlistSymbol) :
    (repairRow held r).symbol = r.symbol := by
  unfold repairRow
  split <;> rfl

def heldPositions (positions : List (String × ℚ)) : List String :=
  (positions.filter fun p => 1 / 10 ^ 9 < |p.2|).map fun p => Casing.upper p.1

/-- `_repair_seed_horizons`, of the rows that were there before. -/
def repairSeedHorizons (positions : List (String × ℚ)) (before : Watchlist) (w : Watchlist) :
    Watchlist × ℕ :=
  let held := heldPositions positions
  (w.update (fun r => if before.HasKey r.symbol then repairRow held r else r)
      fun r => by split <;> simp [symbol_repairRow],
    (before.rows.filter fun r => (needsRepair held r).isSome).length)

/-- `ensure_seeded`, with the number of rows it wrote. -/
def ensureSeeded (cfg : UniverseSettings) (m : Moment) (w : Watchlist) : Watchlist × ℕ :=
  let seeded := (seeds cfg).foldl (addSeed m.now) (w, 0)
  let repaired := repairSeedHorizons m.positions w seeded.1
  (repaired.1, seeded.2 + repaired.2)

/-! ## Reconstitution -/

structure Reconstituted where
  added : List Ticker
  reactivated : List Ticker
  paused : List Ticker
  active : List String

def bookRow (cfg : UniverseSettings) (now : Int) (sym : Ticker) (i : ℕ) : WatchlistSymbol :=
  let horizon := defaultHorizon cfg sym
  { symbol := sym, horizon := horizon, status := .active, priority := max 10 (70 - i),
    thesis := s!"Weekly reconstitution into {horizon} book",
    invalidation := "Liquidity failure or thesis break", source := "reconstitute",
    lastReviewedAt := some now,
    payload := stampActiveSince [("venue", .str (venueForUniverseSymbol cfg sym).value)] now true }

def keepRow (cfg : UniverseSettings) (now : Int) (r : WatchlistSymbol) : WatchlistSymbol :=
  { r with
    status := .active
    payload := if r.status = .active then r.payload else stampActiveSince r.payload now true
    lastReviewedAt := some now
    horizon := if r.horizon = "" then defaultHorizon cfg r.symbol else r.horizon }

@[simp] theorem symbol_bookRow (cfg : UniverseSettings) (now : Int) (sym : Ticker) (i : ℕ) :
    (bookRow cfg now sym i).symbol = sym := rfl

@[simp] theorem symbol_keepRow (cfg : UniverseSettings) (now : Int) (r : WatchlistSymbol) :
    (keepRow cfg now r).symbol = r.symbol := rfl

def pauseRow (now : Int) (r : WatchlistSymbol) : WatchlistSymbol :=
  { r with
    status := .paused
    lastReviewedAt := some now
    payload := clearActiveSince r.payload now }

def promote (cfg : UniverseSettings) (now : Int) (w : Watchlist) (item : Ticker × ℕ) : Watchlist :=
  match w.find? item.1 with
  | none => w.putNew (bookRow cfg now item.1 item.2)
  | some _ => w.updateAt item.1 (keepRow cfg now) (symbol_keepRow cfg now)

def heldNames (holdings : List String) : List String :=
  (holdings.filter (· ≠ "")).map Casing.upper

def desiredBook (cfg : UniverseSettings) (idx : IndexSnapshots) (m : Moment)
    (holdings : List String) (screened : Option (List String)) : List Ticker :=
  let held := heldNames holdings
  let seed := (combinedSeedPool cfg).map Ticker.text
  let membership := (membershipSymbols cfg idx none).map Ticker.text
  let passed := screened.getD (screenedCandidatePool cfg idx m.quotes [] none).passed
  let screenedSet := passed.map Casing.upper
  let eligible :=
    if cfg.universeScreenerEnabled then
      membership.filter (· ∈ screenedSet) ++ seed ++ held
    else membership ++ seed ++ held
  rankedMembershipBook cfg idx (sortedBy id held.dedup) cfg.universeWatchlistLimit m.isoWeek
    eligible

def leavesBook (desired : List Ticker) (held : List String) (r : WatchlistSymbol) : Bool :=
  decide (r.status = .active ∧ r.symbol ∉ desired ∧ r.symbol.text ∉ held)

/-- `reconstitute_watchlist`. -/
def reconstituteWatchlist (cfg : UniverseSettings) (idx : IndexSnapshots) (m : Moment)
    (holdings : List String) (screened : Option (List String)) (w : Watchlist) :
    Watchlist × Reconstituted :=
  let desired := desiredBook cfg idx m holdings screened
  let held := heldNames holdings
  let w₁ := (ensureSeeded cfg m w).1
  let w₂ := desired.zipIdx.foldl (promote cfg m.now) w₁
  let w₃ := w₂.update (fun r => if leavesBook desired held r then pauseRow m.now r else r)
    fun r => by split <;> rfl
  (w₃,
    { added := desired.filter fun sym => (w₁.find? sym).isNone
      reactivated := desired.filter fun sym => (w₁.find? sym).any fun r => r.status ≠ .active
      paused := (w₂.rows.filter (leavesBook desired held)).map (·.symbol)
      active := sortedBy id (desired.map Ticker.text ++ held).dedup })

/-! ## Proposals -/

structure WatchlistProposal where
  symbol : String
  horizon : UniverseHorizon
  action : String
  priority : Int
  thesis : String
  invalidation : String
  rationale : String

/-- `list_active`: by priority, then by symbol. -/
def listActive (w : Watchlist) : List WatchlistSymbol :=
  sortedBy (fun r => toLex (-r.priority, r.symbol.text))
    (w.rows.filter fun r => r.status = .active)

/-- A row a proposal writes: a text it leaves empty stays as it was. -/
def proposeRow (prop : WatchlistProposal) (action venueTag : String) (now : Int)
    (r : WatchlistSymbol) : WatchlistSymbol :=
  let venue := (Dict.at r.payload "venue").orElse (.str venueTag)
  { r with
    horizon := if action ∈ ["add", "keep", "rehorizon"] then prop.horizon.value else r.horizon
    status := .active
    priority := prop.priority
    thesis := if prop.thesis ≠ "" then prop.thesis else r.thesis
    invalidation := if prop.invalidation ≠ "" then prop.invalidation else r.invalidation
    source := "universe_manager"
    lastReviewedAt := some now
    payload := stampActiveSince
      (Dict.set (Dict.set r.payload "rationale" (.str prop.rationale)) "venue" venue) now
      (decide (r.status ≠ .active)) }

def applyProposal (cfg : UniverseSettings) (now : Int) (candidates : List String)
    (lockMembership : Bool) (w : Watchlist) (prop : WatchlistProposal) : Watchlist :=
  let sym := Ticker.ofText prop.symbol
  let action := Casing.lower prop.action
  let venueTag := (venueForUniverseSymbol cfg sym).value
  if sym.text = "" then w
  else if sym.text ∉ addableUniverse cfg (w.rows.map (·.symbol)) candidates ∧
      prop.action = "add" then w
  else if lockMembership ∧ (action = "remove" ∨ action = "pause") then w
  else if action = "remove" then
    w.updateAt sym (fun r =>
      { r with
        status := .removed
        lastReviewedAt := some now
        payload := clearActiveSince r.payload now }) fun _ => rfl
  else if action = "pause" then
    w.updateAt sym (fun r =>
      { pauseRow now r with
        thesis := if prop.thesis ≠ "" then prop.thesis else r.thesis
        invalidation := if prop.invalidation ≠ "" then prop.invalidation else r.invalidation })
      fun _ => rfl
  else
    match w.find? sym with
    | none =>
      w.putNew
        { symbol := sym, horizon := prop.horizon.value, status := .active,
          priority := prop.priority, thesis := prop.thesis, invalidation := prop.invalidation,
          source := "universe_manager", lastReviewedAt := some now,
          payload := stampActiveSince
            [("rationale", .str prop.rationale), ("venue", .str venueTag)] now true }
    | some _ => w.updateAt sym (proposeRow prop action venueTag now) fun _ => rfl

/-- `xs[n:]`. -/
def dropFrom {α : Type*} (n : Int) (xs : List α) : List α :=
  if 0 ≤ n then xs.drop n.toNat else xs.drop (xs.length - (-n).toNat)

/-- `_apply_proposals`, and the limit after it. -/
def applyProposals (cfg : UniverseSettings) (now : Int) (proposals : List WatchlistProposal)
    (candidates : List String) (lockMembership : Bool) (w : Watchlist) : Watchlist :=
  let w' := proposals.foldl (applyProposal cfg now candidates lockMembership) w
  let extra := (dropFrom cfg.universeWatchlistLimit (listActive w')).map (·.symbol)
  w'.update (fun r => if r.symbol ∈ extra then pauseRow now r else r) fun r => by split <;> rfl

/-! ## Outcomes and hygiene -/

structure SymbolOutcome where
  symbol : String
  tradeCount : Json
  winRate : Json
  expectancy : Json
  totalPnl : Json
  signal : Json
  horizon : Json

/-- `recent_outcome_stats`, what the service reads of it. -/
structure OutcomeStats where
  bySymbol : List SymbolOutcome
  periodEnd : Json
  lookbackDays : Json

/-- `_stamp_outcome_stats`: a payload entry for the names that traded. -/
def stampOutcomeStats (outcomes : OutcomeStats) (w : Watchlist) : Watchlist :=
  let bySym := Dict.ofPairs ((outcomes.bySymbol.filter fun s => s.symbol ≠ "").map fun s =>
    (Casing.upper s.symbol, s))
  w.update (fun r =>
    match Dict.get? bySym r.symbol.text with
    | none => r
    | some pack =>
      if r.status = .removed then r
      else
        { r with
          payload := Dict.set r.payload "last_outcome_stats"
            (.obj [("trade_count", pack.tradeCount), ("win_rate", pack.winRate),
              ("expectancy", pack.expectancy), ("total_pnl", pack.totalPnl),
              ("signal", pack.signal), ("horizon", pack.horizon),
              ("as_of", outcomes.periodEnd), ("lookback_days", outcomes.lookbackDays)]) })
    fun r => by
      split
      · rfl
      · split <;> rfl

structure HygieneReport where
  skipped : Bool
  reason : Option String
  paused : List (Ticker × List String)
  checked : ℕ
  screenerSource : Option String

def illiquidRow (now : Int) (hit : ScreenHit) (r : WatchlistSymbol) : WatchlistSymbol :=
  let num := fun (q : Option ℚ) => (q.map Json.num).getD .null
  { pauseRow now r with
    payload := Dict.merge (clearActiveSince r.payload now)
      [("paused_by", .str "liquidity_screener"), ("reasons", .arr (hit.reasons.map .str)),
        ("avg_volume_20d", num hit.quote.avgVolume20d), ("spread_bps", num hit.quote.spreadBps)] }

def rejection (held : List String) (rejectMap : Dict ScreenHit) (r : WatchlistSymbol) :
    Option ScreenHit :=
  if r.status = .active ∧ r.symbol.text ∉ held then Dict.get? rejectMap r.symbol.text else none

/-- `hygiene_active_watchlist`. -/
def hygieneActiveWatchlist (cfg : UniverseSettings) (m : Moment) (holdings : List String)
    (w : Watchlist) : Watchlist × HygieneReport :=
  if cfg.universeScreenerEnabled = false then
    (w, { skipped := true, reason := some "screener_disabled", paused := [], checked := 0,
          screenerSource := none })
  else if cfg.universeScreenerPauseIlliquid = false then
    (w, { skipped := true, reason := some "pause_illiquid_disabled", paused := [], checked := 0,
          screenerSource := none })
  else
    let held := holdings.map Casing.upper
    let symbols := ((listActive w).map fun r => r.symbol.text).filter (· ∉ held)
    if symbols = [] then
      (w, { skipped := false, reason := none, paused := [], checked := 0, screenerSource := none })
    else
      let result := screenCandidates cfg m.quotes symbols
      let rejectMap := Dict.ofPairs (result.rejected.map fun h => (h.symbol, h))
      (w.update (fun r =>
          match rejection held rejectMap r with
          | none => r
          | some hit => illiquidRow m.now hit r)
          fun r => by split <;> rfl,
        { skipped := false, reason := none, checked := symbols.length,
          paused := (listActive w).filterMap fun r =>
            (rejection held rejectMap r).map fun hit => (r.symbol, hit.reasons)
          screenerSource := some result.source })

/-! ## Reading the universe -/

/-- `is_active_strategy_horizon`. -/
def isActiveStrategyHorizon (horizon : String) : Bool :=
  (UniverseHorizon.ofValue (Casing.lower (strip horizon))).isSome

/-- `combined_entry_allowlist`. -/
def combinedEntryAllowlist (cfg : UniverseSettings) : List String :=
  let out := (enabledVenues cfg).flatMap cfg.toSettings.allowlistForVenue
  if out = [] then cfg.tradeAllowlist else out

/-- `entry_universe`, with the table it leaves: `ValueError` for an unknown venue. -/
def entryUniverse (cfg : UniverseSettings) (idx : IndexSnapshots) (m : Moment)
    (venue : Option String) (w : Watchlist) : Watchlist × Except String (List String) :=
  let read := fun (want : Option Venue) =>
    let allow := (want.map cfg.toSettings.allowlistForVenue).getD (combinedEntryAllowlist cfg)
    if isDynamic cfg then
      let w' := (ensureSeeded cfg m w).1
      let active := listActive w'
      if active.isEmpty then (w', Except.ok allow)
      else
        let membership := membershipSymbols cfg idx want
        let activeSyms := (active.filter fun r => isActiveStrategyHorizon r.horizon).map (·.symbol)
        (w', Except.ok ((activeSyms.filter (· ∈ membership)).map Ticker.text))
    else (w, Except.ok allow)
  match parseVenue venue with
  | .absent => read none
  | .venue v => read (some v)
  | .unknown => (w, .error ("unknown_venue:" ++ venue.getD ""))

/-- `horizon_by_symbol`, with the table it leaves. -/
def horizonBySymbol (cfg : UniverseSettings) (m : Moment) (w : Watchlist) :
    Watchlist × Dict String :=
  let w' := (ensureSeeded cfg m w).1
  (w', (w'.rows.filter fun r => r.status = .active).map fun r => (r.symbol.text, r.horizon))

/-! ## What a writer does to a status -/

def statusOf (w : Watchlist) (sym : Ticker) : Option WatchStatus :=
  (w.find? sym).map (·.status)

variable {cfg : UniverseSettings} {idx : IndexSnapshots} {m : Moment} {w : Watchlist}
  {sym : Ticker}

variable {r : WatchlistSymbol}

theorem statusOf_of_mem (h : r ∈ w.rows) : statusOf w r.symbol = some r.status := by
  unfold statusOf
  rw [KeyedTable.find?_eq_some_iff.mpr ⟨h, rfl⟩, Option.map_some]

theorem statusOf_update {f : WatchlistSymbol → WatchlistSymbol}
    (hf : ∀ r, (f r).symbol = r.symbol) :
    statusOf (w.update f hf) sym = (w.find? sym).map fun r => (f r).status := by
  unfold statusOf
  rw [KeyedTable.find?_update, Option.map_map]
  rfl

/-! ### Seeding -/

variable {now : Int}

theorem find?_addSeed {acc : Watchlist × ℕ} {seed : Venue × String × ℕ}
    (h : acc.1.find? sym = some r) : (addSeed now acc seed).1.find? sym = some r := by
  obtain ⟨venue, raw, i⟩ := seed
  unfold addSeed
  dsimp only
  split
  · exact h
  · rw [KeyedTable.find?_putNew, h, Option.some_or]

theorem find?_foldl_addSeed {items : List (Venue × String × ℕ)} {acc : Watchlist × ℕ}
    (h : acc.1.find? sym = some r) : (items.foldl (addSeed now) acc).1.find? sym = some r := by
  induction items generalizing acc with
  | nil => exact h
  | cons seed items ih =>
    rw [List.foldl_cons]
    exact ih (find?_addSeed h)

theorem find?_ensureSeeded (h : w.find? sym = some r) :
    (ensureSeeded cfg m w).1.find? sym = some (repairRow (heldPositions m.positions) r) := by
  obtain ⟨hmem, hsym⟩ := KeyedTable.find?_eq_some_iff.mp h
  have hseeded : ((seeds cfg).foldl (addSeed m.now) (w, 0)).1.find? sym = some r :=
    find?_foldl_addSeed h
  unfold ensureSeeded repairSeedHorizons
  dsimp only
  rw [KeyedTable.find?_update, hseeded, Option.map_some, if_pos (KeyedTable.hasKey_of_mem hmem)]

theorem status_repairRow (held : List String) (r : WatchlistSymbol) :
    (repairRow held r).status =
      if (needsRepair held r).isSome then .active else r.status := by
  unfold repairRow
  cases needsRepair held r <;> rfl

theorem active_ensureSeeded (h : statusOf w sym = some .active) :
    statusOf (ensureSeeded cfg m w).1 sym = some .active := by
  obtain ⟨r, hr, hstatus⟩ := Option.map_eq_some_iff.mp h
  unfold statusOf
  rw [find?_ensureSeeded hr, Option.map_some, status_repairRow, hstatus, ite_self]

theorem statusOf_ensureSeeded {status : WatchStatus} (hbook : assignedHorizon sym.text = none)
    (h : statusOf w sym = some status) :
    statusOf (ensureSeeded cfg m w).1 sym = some status := by
  obtain ⟨r, hr, hstatus⟩ := Option.map_eq_some_iff.mp h
  have hnone : needsRepair (heldPositions m.positions) r = none := by
    unfold needsRepair
    rw [(KeyedTable.find?_eq_some_iff.mp hr).2, hbook]
    rfl
  unfold statusOf
  rw [find?_ensureSeeded hr, Option.map_some, status_repairRow, hnone, ← hstatus]
  rfl

/-! ### Reconstitution -/

theorem statusOf_promote {item : Ticker × ℕ} :
    statusOf (promote cfg now w item) sym =
      if item.1 = sym then some .active else statusOf w sym := by
  unfold promote statusOf
  cases hfind : w.find? item.1 with
  | none =>
    dsimp only
    rw [KeyedTable.find?_putNew, symbol_bookRow]
    by_cases hsym : item.1 = sym
    · rw [if_pos hsym, if_pos hsym, ← hsym, hfind, Option.none_or]
      rfl
    · rw [if_neg hsym, if_neg hsym, Option.or_none]
  | some r =>
    dsimp only
    rw [KeyedTable.find?_updateAt]
    by_cases hsym : item.1 = sym
    · rw [if_pos hsym, ← hsym, hfind, Option.map_some, Option.map_some, if_pos rfl]
      rfl
    · have hother : ¬ sym = item.1 := fun h => hsym h.symm
      simp only [if_neg hsym, if_neg hother, Option.map_id']

theorem statusOf_foldl_promote {now : Int} {items : List (Ticker × ℕ)} :
    statusOf (items.foldl (promote cfg now) w) sym =
      if sym ∈ items.map (·.1) then some .active else statusOf w sym := by
  induction items generalizing w with
  | nil => rfl
  | cons item items ih =>
    rw [List.foldl_cons, ih, statusOf_promote, List.map_cons]
    by_cases hrest : sym ∈ items.map (·.1)
    · rw [if_pos hrest, if_pos (List.mem_cons_of_mem _ hrest)]
    · rw [if_neg hrest]
      by_cases hsym : item.1 = sym
      · rw [if_pos hsym, if_pos (hsym ▸ List.mem_cons_self)]
      · rw [if_neg hsym, if_neg fun h => (List.mem_cons.mp h).elim (fun h => hsym h.symm) hrest]

variable {holdings : List String}

theorem statusOf_reconstitute {screened : Option (List String)} :
    (sym ∈ desiredBook cfg idx m holdings screened →
        statusOf (reconstituteWatchlist cfg idx m holdings screened w).1 sym = some .active) ∧
      (statusOf (reconstituteWatchlist cfg idx m holdings screened w).1 sym = some .active →
        sym ∈ desiredBook cfg idx m holdings screened ∨ sym.text ∈ heldNames holdings) := by
  unfold reconstituteWatchlist
  dsimp only
  rw [statusOf_update]
  generalize desiredBook cfg idx m holdings screened = book
  have hfold := @statusOf_foldl_promote _ cfg (ensureSeeded cfg m w).1 sym m.now book.zipIdx
  rw [List.zipIdx_map_fst] at hfold
  generalize book.zipIdx.foldl (promote cfg m.now) (ensureSeeded cfg m w).1 = w₂ at hfold ⊢
  constructor
  · intro hmem
    rw [if_pos hmem] at hfold
    obtain ⟨r, hr, hstatus⟩ := Option.map_eq_some_iff.mp hfold
    have hsym : r.symbol = sym := (KeyedTable.find?_eq_some_iff.mp hr).2
    have hstays : leavesBook book (heldNames holdings) r = false := by
      rw [leavesBook, hsym]
      exact decide_eq_false fun h => h.2.1 hmem
    rw [hr, Option.map_some, hstays]
    exact congrArg some hstatus
  · intro hactive
    obtain ⟨r, hr, hstatus⟩ := Option.map_eq_some_iff.mp hactive
    have hsym : r.symbol = sym := (KeyedTable.find?_eq_some_iff.mp hr).2
    by_contra hout
    obtain ⟨hbook, hheld⟩ := not_or.mp hout
    split at hstatus
    · cases hstatus
    · rename_i hstays
      refine hstays (decide_eq_true ⟨hstatus, ?_, ?_⟩)
      · rwa [hsym]
      · rwa [hsym]

/-! ### Outcomes and hygiene -/

theorem statusOf_stampOutcomeStats {outcomes : OutcomeStats} :
    statusOf (stampOutcomeStats outcomes w) sym = statusOf w sym := by
  unfold stampOutcomeStats
  dsimp only
  rw [statusOf_update]
  refine Option.map_congr fun r _ => ?_
  split
  · rfl
  · split <;> rfl

theorem statusOf_hygiene :
    (statusOf (hygieneActiveWatchlist cfg m holdings w).1 sym = some .active →
        statusOf w sym = some .active) ∧
      (sym.text ∈ holdings.map Casing.upper → statusOf w sym = some .active →
        statusOf (hygieneActiveWatchlist cfg m holdings w).1 sym = some .active) ∧
      (sym ∈ (hygieneActiveWatchlist cfg m holdings w).2.paused.map (·.1) →
        statusOf (hygieneActiveWatchlist cfg m holdings w).1 sym = some .paused) := by
  unfold hygieneActiveWatchlist
  dsimp only
  split
  · exact ⟨id, fun _ => id, fun h => absurd h List.not_mem_nil⟩
  split
  · exact ⟨id, fun _ => id, fun h => absurd h List.not_mem_nil⟩
  split
  · exact ⟨id, fun _ => id, fun h => absurd h List.not_mem_nil⟩
  dsimp only
  rw [statusOf_update]
  generalize Dict.ofPairs _ = rejectMap
  refine ⟨fun h => ?_, fun hheld h => ?_, fun h => ?_⟩
  · obtain ⟨r, hr, hstatus⟩ := Option.map_eq_some_iff.mp h
    rw [statusOf, hr, Option.map_some]
    cases hreject : rejection (holdings.map Casing.upper) rejectMap r with
    | none =>
      rw [hreject] at hstatus
      exact congrArg some hstatus
    | some hit =>
      rw [hreject] at hstatus
      cases hstatus
  · obtain ⟨r, hr, hstatus⟩ := Option.map_eq_some_iff.mp h
    have hsym : r.symbol = sym := (KeyedTable.find?_eq_some_iff.mp hr).2
    have hnone : rejection (holdings.map Casing.upper) rejectMap r = none :=
      if_neg fun hout => hout.2 (hsym ▸ hheld)
    rw [hr, Option.map_some, hnone]
    exact congrArg some hstatus
  · obtain ⟨entry, hentry, rfl⟩ := List.mem_map.mp h
    obtain ⟨r, hr, hhit⟩ := List.mem_filterMap.mp hentry
    obtain ⟨hit, hreject, rfl⟩ := Option.map_eq_some_iff.mp hhit
    have hmem : r ∈ w.rows := (List.mem_filter.mp ((sortedBy_perm _ _).mem_iff.mp hr)).1
    rw [KeyedTable.find?_eq_some_iff.mpr ⟨hmem, rfl⟩, Option.map_some, hreject]
    rfl

/-! ### How many are active -/

def activeRows (w : Watchlist) : List WatchlistSymbol := w.rows.filter fun r => r.status = .active

theorem length_activeRows_le {names : List Ticker}
    (h : ∀ sym, statusOf w sym = some .active → sym ∈ names) :
    (activeRows w).length ≤ names.length := by
  have hnodup : ((activeRows w).map (·.symbol)).Nodup :=
    w.unique.sublist (List.filter_sublist.map _)
  have hsubset : (activeRows w).map (·.symbol) ⊆ names := by
    intro sym hsym
    obtain ⟨r, hr, rfl⟩ := List.mem_map.mp hsym
    obtain ⟨hmem, hstatus⟩ := List.mem_filter.mp hr
    have hactive : r.status = .active := by simpa using hstatus
    exact h r.symbol (hactive ▸ statusOf_of_mem hmem)
  rw [← List.length_map (·.symbol)]
  exact (List.subperm_of_subset hnodup hsubset).length_le

theorem mem_desiredBook {screened : Option (List String)}
    (hcount : (holdings.length : Int) ≤ cfg.universeWatchlistLimit)
    (hheld : sym.text ∈ heldNames holdings) : sym ∈ desiredBook cfg idx m holdings screened := by
  have hname : sym.text ≠ "" := by
    intro hempty
    obtain ⟨h, hh, hupper⟩ := List.mem_map.mp hheld
    have hne : h ≠ "" := by simpa using (List.mem_filter.mp hh).2
    exact hne (StripCasing.upper_eq_empty h (hupper.trans hempty))
  have hperm := sortedBy_perm id (heldNames holdings).dedup
  have hmem : sym.text ∈ sortedBy id (heldNames holdings).dedup :=
    hperm.mem_iff.mpr (List.mem_dedup.mpr hheld)
  have hlength : (sortedBy id (heldNames holdings).dedup).length ≤ holdings.length := by
    rw [hperm.length_eq]
    refine (List.dedup_sublist _).length_le.trans ?_
    rw [heldNames, List.length_map]
    exact List.length_filter_le _ _
  unfold desiredBook
  dsimp only
  rw [← Ticker.ofText_text sym]
  exact (rankedMembershipBook_spec cfg idx (sortedBy id (heldNames holdings).dedup)
    cfg.universeWatchlistLimit m.isoWeek _).2.2 (by omega) sym.text hmem (by simpa using hname)

theorem length_desiredBook_le {holdings : List String} {screened : Option (List String)} :
    (desiredBook cfg idx m holdings screened).length ≤
      (max 1 cfg.universeWatchlistLimit).toNat :=
  (rankedMembershipBook_spec cfg idx _ cfg.universeWatchlistLimit m.isoWeek _).1

/-! ### Reading -/

theorem not_mem_entryUniverse {venue : Option String} {names : List String}
    (hdynamic : isDynamic cfg = true)
    (hsome : ∃ r ∈ (ensureSeeded cfg m w).1.rows, r.status = .active)
    (hsym : statusOf (ensureSeeded cfg m w).1 sym ≠ some .active)
    (h : (entryUniverse cfg idx m venue w).2 = .ok names) : sym.text ∉ names := by
  have hactive : (listActive (ensureSeeded cfg m w).1).isEmpty = false := by
    obtain ⟨r, hr, hstatus⟩ := hsome
    rw [List.isEmpty_eq_false_iff_exists_mem]
    exact ⟨r, (sortedBy_perm _ _).mem_iff.mpr (List.mem_filter.mpr ⟨hr, decide_eq_true hstatus⟩)⟩
  have hread : ∀ membership : List Ticker,
      sym.text ∉ ((((listActive (ensureSeeded cfg m w).1).filter fun r =>
        isActiveStrategyHorizon r.horizon).map (·.symbol)).filter (· ∈ membership)).map
          Ticker.text := by
    intro membership hmem
    obtain ⟨t, ht, htext⟩ := List.mem_map.mp hmem
    obtain ⟨r, hr, hrt⟩ := List.mem_map.mp (List.mem_filter.mp ht).1
    have hrow := List.mem_filter.mp ((sortedBy_perm _ _).mem_iff.mp (List.mem_filter.mp hr).1)
    have hstatus : r.status = .active := by simpa using hrow.2
    have hrsym : r.symbol = sym := hrt.trans (Ticker.text_inj htext)
    exact hsym (hrsym ▸ hstatus ▸ statusOf_of_mem hrow.1)
  unfold entryUniverse at h
  simp only [hdynamic, if_true, hactive, Bool.false_eq_true, if_false] at h
  split at h
  · exact Except.ok.inj h ▸ hread _
  · exact Except.ok.inj h ▸ hread _
  · cases h

end Service

end Investor.Universe
