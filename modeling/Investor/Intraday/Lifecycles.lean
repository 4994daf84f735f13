import Investor.Execution.OrderManager

/-!
# Position lifecycles and their broker sync

A lifecycle is the monitor's own record of one position. `sync_from_broker_positions` goes
through the broker's position list, writes each holding to a lifecycle
(`ensure_lifecycle_from_broker`: the active one of its contract id, else the active one of its
symbol and venue, else a new one), and closes every active lifecycle whose symbol and venue the
list did not have.

What the sync notes beside the columns of `Lifecycle` (close times, realised results, the
attribution and the trial of an entry, the exit policy) is read back by none of it and is not
modelled. The stop a watchlist book gives a lifecycle that has none is a parameter.
-/

namespace Investor.Intraday

open Lib Market Execution

inductive LifecycleStatus
  | pendingOpen | open | adding | reducing | pendingClose | closed
  deriving DecidableEq

namespace LifecycleStatus

/-- `_ACTIVE_LIFECYCLE_STATUSES`. -/
def isActive : LifecycleStatus → Bool
  | .pendingOpen | .open | .adding | .reducing | .pendingClose => true
  | .closed => false

theorem eq_closed_of_not_isActive {s : LifecycleStatus} (h : s.isActive = false) :
    s = .closed := by
  cases s <;> first | rfl | cases h

end LifecycleStatus

/-- A row of the `position_lifecycles` table. -/
structure Lifecycle where
  id : ℕ
  symbol : String
  status : LifecycleStatus
  quantity : ℚ
  averageEntryPrice : Option ℚ
  currentPrice : Option ℚ
  venue : String
  currency : Option String
  conId : Option Int
  stopPrice : Option ℚ
  protectionSubmitted : Bool
  deriving DecidableEq

abbrev LifecycleTable := KeyedTable Lifecycle.id

/-- `usable_mark`: the first price that could be a real print. -/
def usableMark (candidates : List (Option ℚ)) : Option ℚ :=
  (candidates.filterMap fun px => px.filter isSaneEquityPrice).head?

/-- One row of the broker's position list, by the keys the monitor reads; a text or a contract
    id it does not have is empty or zero. -/
structure BrokerRow where
  symbol : String
  qty : Json
  quantity : Json
  avgEntryPrice : Json
  averageEntryPrice : Json
  marketValue : Json
  currentPrice : Json
  stopPrice : Json
  exchange : String
  currency : String
  conId : Int

/-- A row, as `sync_from_broker_positions` hands it on. -/
structure Holding where
  symbol : String
  quantity : ℚ
  avgEntry : ℚ
  currentPrice : Option ℚ
  stopPrice : Option ℚ
  venue : Venue
  currency : Option String
  conId : Option Int
  deriving DecidableEq

/-- `float(value)` of a value that may be `None`. -/
def optionalFloat (value : Json) : Option (Option ℚ) :=
  if value.isNull then some none else value.float?.map some

/-- The price of a row: its own, else what its market value comes to for one share. -/
def BrokerRow.price (raw : BrokerRow) (qty : ℚ) : Option (Option ℚ) :=
  if raw.currentPrice.isNull ∧ ¬ raw.marketValue.isNull ∧ qty ≠ 0 then
    raw.marketValue.float?.map fun mv => some (mv / |qty|)
  else optionalFloat raw.currentPrice

section Sync

def Holding.listing (p : Holding) : String × String := (p.symbol, p.venue.value)

variable [Casing]

/-- One row of the list: `some none` where it has no symbol or no quantity to speak of, `none`
    where a number cannot be read. -/
def readRow (cfg : Settings) (raw : BrokerRow) : Option (Option Holding) := do
  let symbol := Casing.upper raw.symbol
  let qty ← (if raw.qty.isNull then raw.quantity.orElse (.num 0) else raw.qty).float?
  if symbol = "" ∨ |qty| < 1 / 10 ^ 12 then pure none
  else do
    let avg ← ((raw.avgEntryPrice.orElse raw.averageEntryPrice).orElse (.num 0)).float?
    let cur ← raw.price qty
    let stop ← optionalFloat raw.stopPrice
    let exchange := if raw.exchange = "" then none else some raw.exchange
    let currency := if raw.currency = "" then none else some raw.currency
    pure (some
      { symbol := symbol, quantity := qty, avgEntry := avg, currentPrice := cur,
        stopPrice := stop, venue := venueForListing symbol cfg exchange currency,
        currency := currency, conId := if raw.conId = 0 then none else some raw.conId })

def readRows (cfg : Settings) (raws : List BrokerRow) : Option (List Holding) :=
  (raws.mapM (readRow cfg)).map fun ps => ps.filterMap id

/-! ## One holding -/

def byConId (rows : List Lifecycle) (c : Int) : Option Lifecycle :=
  rows.find? fun r => r.conId = some c ∧ r.status.isActive

def byListing (rows : List Lifecycle) (symbol venue : String) : Option Lifecycle :=
  rows.find? fun r => r.symbol = Casing.upper symbol ∧ r.venue = venue ∧ r.status.isActive

def existing (rows : List Lifecycle) (p : Holding) : Option Lifecycle :=
  (p.conId.bind (byConId rows)).orElse fun _ => byListing rows p.symbol p.venue.value

/-- `stamp_horizon_stop_if_missing`. -/
def stampHorizonStop (horizonStop : Lifecycle → Option ℚ) (r : Lifecycle) : Lifecycle :=
  match r.stopPrice with
  | some _ => r
  | none => { r with stopPrice := horizonStop r }

/-- A lifecycle there is, after a holding was written to it; its symbol stays. -/
def updateLifecycle (horizonStop : Lifecycle → Option ℚ) (r : Lifecycle) (p : Holding) :
    Lifecycle :=
  let px := usableMark [p.currentPrice, some p.avgEntry]
  stampHorizonStop horizonStop
    { r with
      quantity := p.quantity
      averageEntryPrice := some p.avgEntry
      venue := p.venue.value
      currency := p.currency.orElse fun _ => r.currency
      conId := p.conId.orElse fun _ => r.conId
      currentPrice := px.orElse fun _ => r.currentPrice
      status := if r.status = .pendingClose ∧ 0 < p.quantity then .open else r.status
      stopPrice := r.stopPrice.orElse fun _ => p.stopPrice }

def newLifecycle (horizonStop : Lifecycle → Option ℚ) (id : ℕ) (p : Holding) : Lifecycle :=
  let px := usableMark [p.currentPrice, some p.avgEntry]
  stampHorizonStop horizonStop
    { id := id, symbol := Casing.upper p.symbol, status := .open, quantity := p.quantity
      averageEntryPrice := some p.avgEntry, currentPrice := px.orElse fun _ => some p.avgEntry
      venue := p.venue.value, currency := p.currency, conId := p.conId, stopPrice := p.stopPrice
      protectionSubmitted := false }

def freshLifecycleId (rows : List Lifecycle) : ℕ := (rows.map (·.id)).foldl max 0 + 1

/-- `ensure_lifecycle_from_broker`, at a venue that is given. -/
def ensureLifecycleFromBroker (horizonStop : Lifecycle → Option ℚ) (rows : List Lifecycle)
    (p : Holding) : List Lifecycle :=
  match existing rows p with
  | some found =>
    rows.map fun r => if r.id = found.id then updateLifecycle horizonStop r p else r
  | none => rows ++ [newLifecycle horizonStop (freshLifecycleId rows) p]

/-! ## The list -/

def Lifecycle.heldKey (r : Lifecycle) : String × String :=
  (Casing.upper r.symbol, venueText r.venue)

def isFlat (held : List (String × String)) (r : Lifecycle) : Bool :=
  r.status.isActive && !held.contains r.heldKey

/-- A lifecycle, after the sync looked for it among what is held. -/
def closeFlat (held : List (String × String)) (r : Lifecycle) : Lifecycle :=
  if isFlat held r then { r with status := .closed, quantity := 0 } else r

structure SyncResult where
  upserted : ℕ
  closed : ℕ
  held : List (String × String)
  deriving DecidableEq

def syncRows (horizonStop : Lifecycle → Option ℚ) (rows : List Lifecycle) (ps : List Holding) :
    List Lifecycle × SyncResult :=
  let after := ps.foldl (ensureLifecycleFromBroker horizonStop) rows
  let held := ps.map Holding.listing
  (after.map (closeFlat held),
    { upserted := ps.length, closed := (after.filter (isFlat held)).length, held := held.dedup })

/-- `sync_from_broker_positions`; `none` where a number of the list cannot be read. -/
def syncFromBrokerPositions (cfg : Settings) (horizonStop : Lifecycle → Option ℚ)
    (rows : List Lifecycle) (raws : List BrokerRow) : Option (List Lifecycle × SyncResult) :=
  (readRows cfg raws).map (syncRows horizonStop rows)

end Sync

end Investor.Intraday
