import Investor.Execution.BatchTurns
import Investor.Intraday.EventBus
import Investor.Intraday.Protection
import Investor.Intraday.Reanalysis

/-!
# The closing window

`ClosingService.run_closing` decides of every open lifecycle whether to keep, reduce or close it,
writes an exit intent for each symbol it is to leave, and where the force close is armed submits
market exits for the plans.

A plan knows its symbol and not its lifecycle, and the lifecycle is looked up twice: the intent is
written for the first one of the symbol (`firstOf`), the order is submitted for the last one
(`lastOf`). The order has the key of its lifecycle and of the day, so that an order of the day that
is filled or works is not made again.

The stamps of the exit reason and the drafts in the metadata of a lifecycle are left out, and so is
the row of the review.
-/

namespace Investor.Intraday

open Lib Market Risk Execution Universe Workflow

/-! ## The policy -/

/-- `ClosingPolicy`. -/
inductive ClosingPolicy
  | keepOvernight | reduceRisk | closeIntradayOnly | closeAll | manualReview
  deriving DecidableEq

def ClosingPolicy.value : ClosingPolicy → String
  | .keepOvernight => "KEEP_OVERNIGHT"
  | .reduceRisk => "REDUCE_RISK"
  | .closeIntradayOnly => "CLOSE_INTRADAY_ONLY"
  | .closeAll => "CLOSE_ALL"
  | .manualReview => "MANUAL_REVIEW"

/-- `ClosingPolicy(text)`; `none` for its `ValueError`. -/
def ClosingPolicy.ofValue (text : String) : Option ClosingPolicy :=
  [keepOvernight, reduceRisk, closeIntradayOnly, closeAll, manualReview].find? (·.value = text)

inductive CloseAction
  | keep | reduce | close
  deriving DecidableEq

def CloseAction.value : CloseAction → String
  | .keep => "keep"
  | .reduce => "reduce"
  | .close => "close"

def CloseAction.pending : CloseAction → LifecycleStatus
  | .reduce => .reducing
  | .keep | .close => .pendingClose

/-- What `run_closing` tells the policy of a position. -/
structure ClosingPosition where
  symbol : String
  quantity : ℚ
  isIntradayOnly : Bool
  horizon : Option String

structure PositionClosePlan where
  symbol : String
  quantity : ℚ
  isIntradayOnly : Bool
  action : CloseAction
  rationale : String
  deriving DecidableEq

structure ClosingDecision where
  policy : ClosingPolicy
  plans : List PositionClosePlan
  notes : List String

def closeAction (isIntra : Bool) : ClosingPolicy → CloseAction × String
  | .keepOvernight => (.keep, "policy KEEP_OVERNIGHT")
  | .closeAll => (.close, "policy CLOSE_ALL (not executed in Phase 3)")
  | .closeIntradayOnly =>
    if isIntra then (.close, "intraday-only position") else (.keep, "swing/position holding")
  | .reduceRisk => (.reduce, "policy REDUCE_RISK (not executed in Phase 3)")
  | .manualReview => (.keep, "MANUAL_REVIEW")

def PositionClosePlan.exitQty (plan : PositionClosePlan) : ℚ :=
  |if plan.action = .close then plan.quantity else plan.quantity * 2⁻¹|

section Policy

variable [Casing]

def closePlan (policy : ClosingPolicy) (intradaySymbols : List String) (p : ClosingPosition) :
    Option PositionClosePlan :=
  let symbol := Casing.upper p.symbol
  if symbol = "" ∨ p.quantity = 0 then none
  else
    let isIntra := intradaySymbols.contains symbol || p.isIntradayOnly
    some { symbol, quantity := p.quantity, isIntradayOnly := isIntra
           action := (closeAction isIntra policy).1, rationale := (closeAction isIntra policy).2 }

/-- `ClosingPolicyEngine.decide`. -/
def decideClosing (positions : List ClosingPosition) (policy : ClosingPolicy)
    (intradaySymbols : List String) : ClosingDecision where
  policy
  plans := positions.filterMap (closePlan policy (intradaySymbols.map Casing.upper))
  notes := ["Phase 3: closing plans are advisory only; broker orders disabled"]

end Policy

/-! ## The service -/

structure ClosingSettings extends WorkflowSettings where
  defaultClosingPolicy : String
  autoExecuteForceClose : Bool
  allowNewPositionsInClosingWindow : Bool
  cancelEntryOrdersAtClosingWindow : Bool
  eventDeduplicationWindowSeconds : Int

/-- A row of `position_lifecycles`, with the columns that closing reads. -/
structure HeldLifecycle extends Lifecycle where
  uuid : Ibkr.Uuid
  overnightAllowed : Bool
  exitPolicy : Dict Json
  decisionId : Option String

abbrev HeldTable := KeyedTable fun l : HeldLifecycle => l.uuid.text

structure ClosingWorld where
  lifecycles : HeldTable
  intents : IntentTable
  orders : OrderBook
  events : EventTable

/-- What a call of `run_closing` is given, finds and hears. -/
structure ClosingCall where
  settings : ClosingSettings
  venue : Venue
  inClosingWindow : Bool
  controls : TradingControlState
  now : Int
  /-- The UTC day. -/
  day : String
  /-- The horizons on the watchlist, by symbol. -/
  watchlist : Dict String
  newestFirst : NewestFirst IntradayEvent.detectedAt
  /-- `str(value)` of a value that is no text. -/
  str : Json → String
  /-- A fresh id, for the exit of a lifecycle without a decision. -/
  newDecisionId : PositionClosePlan → String
  /-- What the exits hear, one after another. -/
  answers : ℕ → OrderBook.SubmitAnswers

structure IntentDraft where
  symbol : String
  action : CloseAction
  quantity : ℚ
  rationale : String
  draftOnly : Bool
  skipped : Option String
  intentId : Option ℕ

structure ClosingReport where
  policy : ClosingPolicy
  plans : List PositionClosePlan
  intentDrafts : List IntentDraft
  intentIds : List ℕ
  ordersSubmitted : ℕ
  notes : List String

/-- What a call leaves: the tables as the session has them, the intents it wrote or took up, the
    orders it made, and what it returns, `none` where it raises. -/
structure ClosingRun where
  world : ClosingWorld
  intentIds : List ℕ
  made : List Order
  report : Option ClosingReport

section Closing

variable [Casing]

/-- `_open_lifecycle_clause`. -/
def HeldLifecycle.isOpenAt (venue : Venue) (l : HeldLifecycle) : Bool :=
  decide (l.status ∈ [.open, .adding, .reducing, .pendingClose] ∧ l.venue = venue.value)

def openLifecycles (c : ClosingCall) (w : ClosingWorld) : List HeldLifecycle :=
  w.lifecycles.rows.filter (·.isOpenAt c.venue)

/-! ## Horizons -/

/-- The horizon of the exit policy, folded; empty where there is none. -/
def HeldLifecycle.ownHorizon (str : Json → String) (l : HeldLifecycle) : String :=
  let horizon := Dict.at l.exitPolicy "horizon"
  if horizon.truthy then Casing.lower (strip (valueText str horizon)) else ""

/-- `_horizons_for_lifecycles`. -/
def horizonsForLifecycles (c : ClosingCall) (lifecycles : List HeldLifecycle) : Dict String :=
  let named := lifecycles.filter fun l => Casing.upper l.symbol ≠ ""
  let own := Dict.ofPairs ((named.filter fun l => l.ownHorizon c.str ≠ "").map fun l =>
    (Casing.upper l.symbol, l.ownHorizon c.str))
  let needWatch := (named.filter fun l => l.ownHorizon c.str = "").map fun l => Casing.upper l.symbol
  (c.watchlist.filter fun row => needWatch.contains row.1).foldl
    (fun out row => if Dict.contains out (Casing.upper row.1) then out
      else Dict.set out (Casing.upper row.1) row.2) own

/-- Scalp and day books are flattened near the close whatever the lifecycle allows. -/
def HeldLifecycle.forcedIntraday (horizons : Dict String) (l : HeldLifecycle) : Bool :=
  !l.overnightAllowed || (Dict.get? horizons (Casing.upper l.symbol)).any (["scalp", "day"].contains ·)

def closingPosition (horizons : Dict String) (l : HeldLifecycle) : ClosingPosition where
  symbol := l.symbol
  quantity := l.quantity
  isIntradayOnly := l.forcedIntraday horizons
  horizon := Dict.get? horizons (Casing.upper l.symbol)

def closingDecision (c : ClosingCall) (policy : ClosingPolicy) (lifecycles : List HeldLifecycle) :
    ClosingDecision :=
  let horizons := horizonsForLifecycles c lifecycles
  decideClosing (lifecycles.map (closingPosition horizons)) policy
    ((lifecycles.filter (·.forcedIntraday horizons)).map fun l => Casing.upper l.symbol)

/-! ## Modes -/

def ClosingCall.mode (c : ClosingCall) : IntradayOperationMode :=
  resolveMode c.settings.toWorkflowSettings .active

/-- `effective_auto_execute_force_close`. -/
def ClosingSettings.effectiveAutoExecuteForceClose (cfg : ClosingSettings) : Bool :=
  if Casing.upper cfg.intradayOperationMode = "PAPER_AUTOMATED" then true
  else cfg.autoExecuteForceClose

/-- `_should_auto_submit_force_close`. -/
def ClosingCall.shouldAutoSubmitForceClose (c : ClosingCall) : Bool :=
  c.settings.effectiveAutoExecuteForceClose && c.mode.canSubmit &&
    paperAutoSubmitAllowed c.settings.toSettings

/-! ## The lifecycle of a plan -/

/-- `next(x for x in lifecycles if x.symbol.upper() == symbol.upper())`. -/
def firstOf (lifecycles : List HeldLifecycle) (symbol : String) : Option HeldLifecycle :=
  lifecycles.find? fun l => Casing.upper l.symbol = Casing.upper symbol

/-- `{p.symbol.upper(): p for p in lifecycles}.get(symbol.upper())`. -/
def lastOf (lifecycles : List HeldLifecycle) (symbol : String) : Option HeldLifecycle :=
  Dict.get? (Dict.ofPairs (lifecycles.map fun l => (Casing.upper l.symbol, l))) (Casing.upper symbol)

/-! ## Exit intents -/

def priorIntent (symbol : String) (t : IntentTable) : Option OrderIntent :=
  t.rows.find? fun i => i.symbol = symbol ∧ i.status = IntentStatus.created.value

/-- An intent that a call of `run_closing` wrote. -/
def isClosingIntent (i : OrderIntent) : Bool := hasPrefix (i.thesis.getD "") "closing:"

def newIntentId (t : IntentTable) : ℕ := (t.rows.map (·.id)).foldl max 0 + 1

def exitIntentType (action : CloseAction) (isShort : Bool) : String :=
  match action, isShort with
  | .close, true => "CLOSE_SHORT"
  | .close, false => "CLOSE_LONG"
  | _, true => "REDUCE_SHORT"
  | _, false => "REDUCE_LONG"

def venueOf (c : ClosingCall) (l : HeldLifecycle) : String :=
  if l.venue = "" then c.venue.value else l.venue

/-- The row that `_create_exit_intent` adds. -/
def exitIntent (c : ClosingCall) (l : HeldLifecycle) (plan : PositionClosePlan) (id : ℕ) :
    OrderIntent :=
  { id, decisionId := l.decisionId, workflowRunId := none, symbol := l.symbol
    intentType := exitIntentType plan.action (decide (l.quantity < 0))
    side := if l.quantity < 0 then "buy" else "sell"
    quantity := some |plan.exitQty|, approvedQuantity := none, entryPrice := l.currentPrice
    stopPrice := l.stopPrice, status := IntentStatus.created.value, clientOrderId := none
    approvalId := none, thesis := some s!"closing:{plan.rationale}", expiresAt := none
    exitPolicy := l.exitPolicy
    metadata := [("source", .str "closing_service"), ("reason", .str plan.rationale),
      ("lifecycle_id", .str l.uuid.text), ("action", .str plan.action.value),
      ("venue", .str (venueOf c l)),
      ("con_id", match l.conId.filter (· ≠ 0) with | some id => .num id | none => .null)]
    updatedAt := none }

/-- What the loop over the plans has written and noted so far. -/
structure Drafting where
  /-- The open lifecycles, with the statuses that were set. -/
  lifecycles : List HeldLifecycle
  intents : IntentTable
  drafts : List IntentDraft
  intentIds : List ℕ
  notes : List String
  retryForceSubmit : Bool

/-- A plan that another tick has dealt with; its exit may be submitted all the same. -/
def Drafting.skip (c : ClosingCall) (draft : IntentDraft) (why note : String) (s : Drafting) :
    Drafting :=
  { s with
    drafts := s.drafts ++ [{ draft with skipped := some why }]
    notes := s.notes ++ [note]
    retryForceSubmit :=
      s.retryForceSubmit || (decide (0 < draft.quantity) && c.shouldAutoSubmitForceClose) }

def Drafting.setPending (l : HeldLifecycle) (action : CloseAction) (s : Drafting) : Drafting :=
  { s with
    lifecycles := s.lifecycles.map fun x =>
      if x.uuid.text = l.uuid.text then { x with status := action.pending } else x }

def Drafting.createExit (c : ClosingCall) (l : HeldLifecycle) (plan : PositionClosePlan)
    (draft : IntentDraft) (s : Drafting) : Drafting :=
  if c.mode.intentsAreDraftOnly then
    { s.setPending l plan.action with drafts := s.drafts ++ [draft] }
  else if plan.exitQty ≤ 0 then
    { s with
      drafts := s.drafts ++ [draft]
      notes := s.notes ++ [s!"exit_intent_failed:{plan.symbol}"] }
  else
    let id := newIntentId s.intents
    { s.setPending l plan.action with
      intents := s.intents.putNew (exitIntent c l plan id)
      intentIds := s.intentIds ++ [id]
      drafts := s.drafts ++ [{ draft with intentId := some id }] }

def draftPlan (c : ClosingCall) (s : Drafting) (plan : PositionClosePlan) : Drafting :=
  if plan.action = .keep ∨ c.mode.canCreateIntent = false then s
  else
    let draft : IntentDraft :=
      { symbol := plan.symbol, action := plan.action, quantity := plan.exitQty
        rationale := plan.rationale
        draftOnly := c.mode.intentsAreDraftOnly || !c.mode.canSubmit
        skipped := none, intentId := none }
    match firstOf s.lifecycles plan.symbol with
    | none => { s with drafts := s.drafts ++ [draft] }
    | some l =>
      if plan.action = .close ∧ l.status = .pendingClose then
        s.skip c draft "already_pending_close" s!"skip_duplicate_close:{plan.symbol}"
      else if plan.action = .reduce ∧ l.status = .reducing then
        s.skip c draft "already_reducing" s!"skip_duplicate_reduce:{plan.symbol}"
      else
        match (priorIntent l.symbol s.intents).filter isClosingIntent with
        | some prior =>
          { s.skip c { draft with intentId := some prior.id } "already_created"
              s!"skip_duplicate_intent:{plan.symbol}" with
            intentIds := s.intentIds ++ [prior.id] }
        | none => s.createExit c l plan draft

def draftPlans (c : ClosingCall) (w : ClosingWorld) (lifecycles : List HeldLifecycle)
    (plans : List PositionClosePlan) (notes : List String) : Drafting :=
  plans.foldl (draftPlan c)
    { lifecycles, intents := w.intents, drafts := [], intentIds := [], notes
      retryForceSubmit := false }

/-! ## Orders -/

def closeKey (id : String) (action : CloseAction) (day : String) : String :=
  "force-close:" ++ id ++ (":" ++ action.value ++ ":" ++ day)

def closeIntent (c : ClosingCall) (l : HeldLifecycle) (plan : PositionClosePlan) :
    ValidatedOrderIntent :=
  { symbol := Casing.upper l.symbol, side := l.exitSide, quantity := plan.exitQty
    orderType := "market", limitPrice := none, stopPrice := l.stopPrice
    idempotencyKey := closeKey l.uuid.text plan.action c.day
    decisionId := l.decisionId.getD (c.newDecisionId plan)
    thesis := s!"force_close:{plan.rationale}", venue := some (venueOf c l)
    conId := l.conId.filter (· ≠ 0), timeInForce := none, attribution := none }

def planIntent (c : ClosingCall) (lifecycles : List HeldLifecycle) (plan : PositionClosePlan) :
    Option ValidatedOrderIntent :=
  if plan.action = .keep then none
  else
    match lastOf lifecycles plan.symbol with
    | none => none
    | some l => if plan.exitQty ≤ 0 then none else some (closeIntent c l plan)

def closeTurns (c : ClosingCall) (lifecycles : List HeldLifecycle)
    (plans : List PositionClosePlan) : List BatchTurn :=
  ((plans.filterMap (planIntent c lifecycles)).zipIdx).map fun turn => (c.answers turn.2, turn.1)

/-- `_submit_close_intents`. -/
def submitCloseIntents (c : ClosingCall) (lifecycles : List HeldLifecycle)
    (plans : List PositionClosePlan) (b : OrderBook) : Batch :=
  if !c.controls.isNewOrderAllowed then ⟨b, [], false⟩
  else if submitBlocked c.settings.toSettings c.controls true then ⟨b, [], false⟩
  else submitBatch c.settings.toSettings b (closeTurns c lifecycles plans)

def markSubmitted (ids : List ℕ) (t : IntentTable) : IntentTable :=
  t.update (fun i => if i.id ∈ ids then { i with status := IntentStatus.submitted.value } else i)
    fun i => by split <;> rfl

/-! ## The call -/

def windowPublication (c : ClosingCall) : Publication where
  eventType := "CLOSING_WINDOW_ENTERED"
  source := "closing_service"
  symbols := []
  importance := "high"
  deduplicationKey := s!"{c.venue.value}:closing:{c.day}"
  requiresAnalysis := false
  requiresRiskReview := true
  requiresExecutionReview := false
  payload := [("venue", .str c.venue.value)]
  workflowRunId := none
  decisionId := none
  intentId := none
  orderId := none
  positionId := none
  sourceEventId := none
  bypassCooldown := true

/-- The entry of the closing window: the events, and the notes unless the bus raises. -/
def enterWindow (c : ClosingCall) (t : EventTable) : EventTable × Option (List String) :=
  if c.inClosingWindow then
    let published := publish c.newestFirst c.settings.eventDeduplicationWindowSeconds
      (windowPublication c) c.now t
    (published.1, published.2.map fun _ =>
      [if c.settings.allowNewPositionsInClosingWindow then "entries_allowed"
        else "new_entries_blocked"] ++
      if c.settings.cancelEntryOrdersAtClosingWindow then ["entry_orders_should_cancel"] else [])
  else (t, some [])

def writeStatuses (lifecycles : List HeldLifecycle) (t : HeldTable) : HeldTable :=
  t.update (fun r => match lifecycles.find? (·.uuid.text = r.uuid.text) with
    | some l => { r with status := l.status }
    | none => r) fun r => by split <;> rfl

/-- The end of `run_closing`, once the exits are drafted: they are submitted if the force close is
    armed, and the intents are marked if an order was made. -/
def finishClosing (c : ClosingCall) (w : ClosingWorld) (lifecycles : List HeldLifecycle)
    (decision : ClosingDecision) (s : Drafting) : ClosingRun :=
  let w := { w with lifecycles := writeStatuses s.lifecycles w.lifecycles, intents := s.intents }
  let report (submitted : ℕ) (notes : List String) : ClosingReport :=
    { policy := decision.policy, plans := decision.plans, intentDrafts := s.drafts
      intentIds := s.intentIds, ordersSubmitted := submitted, notes := s.notes ++ notes }
  if (s.intentIds ≠ [] ∨ s.retryForceSubmit) ∧ c.shouldAutoSubmitForceClose then
    let batch := submitCloseIntents c lifecycles decision.plans w.orders
    let w := { w with orders := batch.orders }
    if batch.raised then ⟨w, s.intentIds, batch.made, none⟩
    else
      let submitted := batch.made.length
      ⟨{ w with intents := if submitted = 0 then w.intents else markSubmitted s.intentIds w.intents },
        s.intentIds, batch.made,
        some (report submitted ([s!"force_close_orders_submitted={submitted}"] ++
          if s.retryForceSubmit ∧ s.intentIds = [] then ["force_close_retry_pending_close"]
          else []))⟩
  else
    ⟨w, s.intentIds, [],
      some (report 0 (if s.intentIds ≠ [] then ["force_close_intents_pending_submit"] else []))⟩

/-- `run_closing`. -/
def runClosing (c : ClosingCall) (w : ClosingWorld) : ClosingRun :=
  match ClosingPolicy.ofValue c.settings.defaultClosingPolicy with
  | none => ⟨w, [], [], none⟩
  | some policy =>
    let lifecycles := openLifecycles c w
    let decision := closingDecision c policy lifecycles
    let entered := enterWindow c w.events
    let w := { w with events := entered.1 }
    match entered.2 with
    | none => ⟨w, [], [], none⟩
    | some notes =>
      finishClosing c w lifecycles decision
        (draftPlans c w lifecycles decision.plans (decision.notes ++ notes))

end Closing

end Investor.Intraday
