import Investor.Lib.Json
import Investor.Lib.Newest
import Investor.Lib.Table
import Mathlib.Data.Rat.Floor

/-!
# The intraday event bus

Monitors, news and the broker publish what happened as rows of one table; drains read what is
still `NEW` and escalates, and mark it when it has been dealt with. `publish` keeps one row of a
key for the length of a window, and for as long as one is still to be dealt with: what comes again
only counts up.

Times are in microseconds. The database sorts rows of one time as it likes, so every query that
sorts goes through a `NewestFirst` of its own, and so does what is proved about it.
-/

namespace Investor.Intraday

open Lib

/-- `PRIORITY`. -/
def PRIORITY : Dict Int :=
  [("EMERGENCY_STOP_TRIGGERED", 100), ("RISK_LIMIT_BREACH", 95), ("STOP_TRIGGERED", 90),
    ("INVALIDATION_TRIGGERED", 88), ("TRADING_HALT", 85), ("DATA_STALE", 80), ("ORDER_REJECTED", 75),
    ("TAKE_PROFIT_TRIGGERED", 70), ("HIGH_IMPORTANCE_NEWS", 65), ("EARNINGS_RELEASE", 62),
    ("SEC_MATERIAL_FILING", 68), ("CLOSING_WINDOW_ENTERED", 60), ("RISK_LIMIT_WARNING", 55),
    ("POSITION_CHANGED", 50), ("BROKER_ORDER_UPDATE", 45), ("MARKET_DATA_UPDATE", 20)]

def priorityOf (eventType : String) : Int := (Dict.get? PRIORITY eventType).getD 10

/-- What `publish` is called with. No symbols and no payload are empty ones. -/
structure Publication where
  eventType : String
  source : String
  symbols : List String
  importance : String
  deduplicationKey : String
  requiresAnalysis : Bool
  requiresRiskReview : Bool
  requiresExecutionReview : Bool
  payload : Dict Json
  workflowRunId : Option ℕ
  decisionId : Option ℕ
  intentId : Option ℕ
  orderId : Option ℕ
  positionId : Option ℕ
  sourceEventId : Option String
  bypassCooldown : Bool

/-- A row of `intraday_events`. -/
structure IntradayEvent extends Publication where
  id : ℕ
  detectedAt : Int
  effectiveAt : Int
  expiresAt : Int
  status : String
  revision : Int
  priority : Int

abbrev EventTable := KeyedTable IntradayEvent.id

/-! ## Publishing -/

inductive PublishStatus
  | new | deduplicated
  deriving DecidableEq

structure EventPublishResult where
  eventId : ℕ
  status : PublishStatus
  priority : Int
  requiresAnalysis : Bool
  deriving DecidableEq

/-- `status.in_(["NEW", "QUEUED"])`. -/
def isOpenStatus (status : String) : Bool := status ∈ ["NEW", "QUEUED"]

/-- The newest row of the key since the window began. -/
def inWindow (o : NewestFirst IntradayEvent.detectedAt) (since : Int) (key : String)
    (t : EventTable) : Option IntradayEvent :=
  (o.sort (t.rows.filter fun r => r.deduplicationKey = key && since ≤ r.detectedAt)).head?

/-- The newest row of the key that is still to be dealt with. -/
def stillOpen (o : NewestFirst IntradayEvent.detectedAt) (key : String) (t : EventTable) :
    Option IntradayEvent :=
  (o.sort (t.rows.filter fun r => r.deduplicationKey = key && isOpenStatus r.status)).head?

/-- `int(value or 0)`, `none` where it raises. -/
def countOf (value : Json) : Option Int :=
  match value.orElse (.num 0) with
  | .num q => some (if 0 ≤ q then ⌊q⌋ else ⌈q⌉)
  | .bool b => some (if b then 1 else 0)
  | .str s => (digits? (splitSign (strip s).toList).2).map fun n =>
      (splitSign (strip s).toList).1 * n
  | _ => none

/-- `existing.revision = int(existing.revision or 1) + 1`. -/
def bumped (r : IntradayEvent) : IntradayEvent :=
  { r with revision := (if r.revision = 0 then 1 else r.revision) + 1 }

/-- One more hit in the payload; where the old count is no number this raises, and the row is left
    with its new revision. -/
def hit (r : IntradayEvent) : IntradayEvent :=
  match countOf (Dict.at r.payload "dedupe_hits") with
  | some n => { bumped r with payload := Dict.set r.payload "dedupe_hits" (.num (n + 1 : Int)) }
  | none => bumped r

theorem id_hit (r : IntradayEvent) : (hit r).id = r.id := by
  unfold hit
  split <;> rfl

def freshId (t : EventTable) : ℕ := (t.rows.map (·.id)).foldl max 0 + 1

def newEvent (p : Publication) (now : Int) (id : ℕ) : IntradayEvent :=
  { p with
    id, detectedAt := now, effectiveAt := now, expiresAt := now + 6 * 3600 * 1000000
    status := "NEW", revision := 1, priority := priorityOf p.eventType }

/-- The row a publication falls on, if any: one within the window, or else one that is open. -/
def existingEvent (o : NewestFirst IntradayEvent.detectedAt) (windowSeconds : Int) (p : Publication)
    (now : Int) (t : EventTable) : Option IntradayEvent :=
  (inWindow o (now - windowSeconds * 1000000) p.deduplicationKey t).or
    (stillOpen o p.deduplicationKey t)

/-- `publish`: the table, and the result unless it raises. -/
def publish (o : NewestFirst IntradayEvent.detectedAt) (windowSeconds : Int) (p : Publication)
    (now : Int) (t : EventTable) : EventTable × Option EventPublishResult :=
  match existingEvent o windowSeconds p now t with
  | some r =>
    (t.updateAt r.id hit id_hit,
      (countOf (Dict.at r.payload "dedupe_hits")).map fun _ =>
        { eventId := r.id, status := .deduplicated, priority := priorityOf p.eventType
          requiresAnalysis := r.requiresAnalysis })
  | none =>
    let ev := newEvent p now (freshId t)
    (t.putNew ev,
      some { eventId := ev.id, status := .new, priority := ev.priority
             requiresAnalysis := p.requiresAnalysis })

/-- `mark`: the row gets the status, and is returned if it is there. -/
def mark (eventId : ℕ) (status : String) (t : EventTable) : EventTable × Option IntradayEvent :=
  let marked := t.updateAt eventId (fun r => { r with status }) fun _ => rfl
  (marked, marked.find? eventId)

/-! ## Listing -/

/-- `list_events`. -/
def listEvents (o : NewestFirst IntradayEvent.detectedAt) (limit : ℕ) (t : EventTable) :
    List IntradayEvent :=
  (o.sort t.rows).take limit

/-- `_FAKE_SEC_PREFIX`. -/
def FAKE_SEC_PREFIX : String := "sec:0000000000"

section Listing

variable [Casing] (str : Json → String)

/-- `str(value)`, which leaves a text as it is. -/
def valueText : Json → String
  | .str s => s
  | j => str j

/-- The event is another book's: its payload names another venue, or it is a US filing. -/
def otherBook (book : String) (ev : IntradayEvent) : Bool :=
  ((Dict.at ev.payload "venue").truthy &&
      decide (Casing.upper (valueText str (Dict.at ev.payload "venue")) ≠ book)) ||
    (decide (book = "AU") && decide (ev.eventType = "SEC_MATERIAL_FILING"))

/-- `str(venue).upper() if venue else None`, where an empty text is no book either. -/
def bookOf? (venue : Option String) : Option String :=
  ((venue.filter (· ≠ "")).map Casing.upper).filter (· ≠ "")

/-- The event is new, asks for something, is of the book, and is no made-up filing. -/
def isActionable (venue : Option String) (ev : IntradayEvent) : Bool :=
  decide (ev.status = "NEW") &&
    (ev.requiresAnalysis || ev.requiresExecutionReview || ev.requiresRiskReview ||
      decide (Casing.lower ev.importance ∈ ["high", "critical"])) &&
    ((bookOf? venue).all fun book => !otherBook str book ev) &&
    !hasPrefix ev.deduplicationKey FAKE_SEC_PREFIX

/-- The loop of `list_pending_actionable` over the rows that are left: it stops as soon as it has
    `limit` of them. -/
def collect (keep : IntradayEvent → Bool) (limit : Int) :
    List IntradayEvent → List IntradayEvent → List IntradayEvent
  | [], out => out
  | ev :: rows, out =>
    if keep ev then
      if limit ≤ (out ++ [ev]).length then out ++ [ev] else collect keep limit rows (out ++ [ev])
    else collect keep limit rows out

/-- How many rows are fetched: `max(limit * 3, 40)`. -/
def fetched (limit : Int) : ℕ := (max (limit * 3) 40).toNat

/-- `list_pending_actionable`. -/
def listPendingActionable (o : NewestFirst IntradayEvent.detectedAt) (limit : Int)
    (venue : Option String) (t : EventTable) : List IntradayEvent :=
  collect (isActionable str venue) limit (listEvents o (fetched limit) t) []

end Listing

/-! ## For evaluation -/

def inTurn : NewestFirst IntradayEvent.detectedAt := lastAmong _ fun _ => false

def published (eventType key : String) : Publication :=
  { eventType, source := "position_monitor", symbols := ["BHP"], importance := "medium"
    deduplicationKey := key, requiresAnalysis := eventType = "STOP_TRIGGERED"
    requiresRiskReview := false, requiresExecutionReview := false, payload := []
    workflowRunId := none, decisionId := none, intentId := none, orderId := none
    positionId := none, sourceEventId := none, bypassCooldown := false }

end Investor.Intraday
