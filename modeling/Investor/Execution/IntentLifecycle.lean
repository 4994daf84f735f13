import Investor.Execution.Service

/-!
# The life of an order intent

`ExecutionService` has four operations on an intent: `validate_intent` stores a pre-trade check
and sets the status from it, `approve_intent` and `reject_intent` are the operator's, and
`submit_intent` sends an order to the broker. Each of them reads the intent's row, raises or goes
on, and flushes.

`submit_intent` is cut where it awaits. The hash of `make_client_order_id` is a parameter, and so
is the result of the latest reconciliation run, which other components write.
-/

namespace Investor.Execution

open Lib Market Core

/-- `IntentStatus`. -/
inductive IntentStatus
  | created | validating | riskRejected | pendingApproval | approved | rejected | expired
  | cancelled | submitting | submitted | completed | failed
  deriving DecidableEq

def IntentStatus.value : IntentStatus → String
  | .created => "CREATED"
  | .validating => "VALIDATING"
  | .riskRejected => "RISK_REJECTED"
  | .pendingApproval => "PENDING_APPROVAL"
  | .approved => "APPROVED"
  | .rejected => "REJECTED"
  | .expired => "EXPIRED"
  | .cancelled => "CANCELLED"
  | .submitting => "SUBMITTING"
  | .submitted => "SUBMITTED"
  | .completed => "COMPLETED"
  | .failed => "FAILED"

/-! ## Rows -/

def setIntent (id : Nat) (f : OrderIntent → OrderIntent) (hf : ∀ r, (f r).id = r.id)
    (t : Tables) : Tables :=
  { t with
    intents := t.intents.update (fun r => if r.id = id then f r else r)
      (fun r => by split <;> simp [hf]) }

def setStatus (id : Nat) (status : IntentStatus) : Tables → Tables :=
  setIntent id (fun r => { r with status := status.value }) fun _ => rfl

/-- `_latest_approval`. -/
def latestApproval (id : Nat) (t : Tables) : Option OrderApproval :=
  (t.approvals.filter fun a => a.intentId = id).foldl
    (fun best a => if best.any (a.createdAt ≤ ·.createdAt) then best else some a) none

def setApproval (approvalId : Nat) (f : OrderApproval → OrderApproval) (t : Tables) : Tables :=
  { t with approvals := t.approvals.map fun a => if a.id = approvalId then f a else a }

/-- `session.add(OrderApproval(…))`, under a new id. -/
def addApproval (intentId : Nat) (now expiresAt : Int) (t : Tables) : Tables :=
  { t with
    approvals := t.approvals ++
      [{ id := (t.approvals.map (·.id)).foldl max 0 + 1, intentId, status := "PENDING_APPROVAL",
         actedBy := none, actedAt := none, expiresAt := some expiresAt, createdAt := now }] }

def latestCheck (id : Nat) (t : Tables) : Option PretradeRiskCheck :=
  (t.checks.filter fun c => c.intentId = id).getLast?

def storeCheck (intent : OrderIntent) (result : Pretrade.PretradeCheckResult) (t : Tables) :
    Tables :=
  setIntent intent.id (fun r => { r with approvedQuantity := some result.approvedQuantity })
    (fun _ => rfl)
    { t with checks := t.checks ++ [{ intentId := intent.id, decisionId := intent.decisionId,
                                      result }] }

/-! ## Validating -/

/-- The arguments of `validate_intent`. -/
structure ValidateIntentArgs where
  equity : ℚ
  cash : ℚ
  buyingPower : ℚ
  grossExposure : ℚ
  positionQty : ℚ
  dataQualityScore : ℚ := 1
  quoteAgeSeconds : Option ℚ := some 0
  spreadBps : Option ℚ := some 10
  hardVetoes : List String := []
  marketOpen : Bool := true
  assetTradable : Bool := true

def OrderIntent.expiredAt (intent : OrderIntent) (now : Int) : Bool :=
  intent.expiresAt.any (· < now)

/-- What `validate_intent` gives the pre-trade check. -/
def intentCheck (intent : OrderIntent) (a : ValidateIntentArgs) (now : Int) :
    Pretrade.PretradeArgs :=
  { side := intent.side, quantity := intent.quantity.getD 0,
    entryPrice := intent.entryPrice.getD 0, stopPrice := intent.stopPrice, equity := a.equity,
    cash := a.cash, buyingPower := a.buyingPower, grossExposure := a.grossExposure,
    positionQty := a.positionQty, dataQualityScore := a.dataQualityScore,
    quoteAgeSeconds := a.quoteAgeSeconds, spreadBps := a.spreadBps, hardVetoes := a.hardVetoes,
    assetTradable := a.assetTradable, marketOpen := a.marketOpen, accountBlocked := false,
    duplicateClientOrder := false, conflictingOpenOrder := false,
    decisionExpired := intent.expiredAt now, openPositions := 0 }

def verdictStatus (cfg : Settings) : Pretrade.PretradeStatus → IntentStatus
  | .rejected | .systemBlocked => .riskRejected
  | .requiresManualApproval => .pendingApproval
  | .approved | .approvedWithReduction =>
    if cfg.requireManualOrderApproval then .pendingApproval else .approved

section Operations

variable [Casing] (env : Env) (cfg : Settings)

def requireIntent (id : Nat) : Prog OrderIntent := do
  let found ← query env fun t => t.intents.find? id
  match found with
  | some intent => return intent
  | none => throw (.other "intent_not_found")

/-- `validate_intent`. -/
def validateIntent (controls : TradingControlState) (id : Nat) (a : ValidateIntentArgs) :
    Prog Unit := do
  let intent ← requireIntent env id
  write (setStatus id .validating)
  let w ← Eff.read
  let now := env.now w.ticks
  match Pretrade.validate cfg controls (intentCheck intent a now) with
  | none => throw (.other "float division by zero")
  | some result => do
    write (storeCheck intent result)
    write (setStatus id (verdictStatus cfg result.status))
    if result.status = .requiresManualApproval then
      write (addApproval id now (now + cfg.orderApprovalExpiryMinutes * 60))
    else pure ()
    flush env

/-! ## Approving and rejecting -/

def recordApproval (id : Nat) (actor : String) (now : Int) (t : Tables) : Tables :=
  let acted := match latestApproval id t with
    | some approval =>
      setIntent id (fun r => { r with approvalId := some approval.id }) (fun _ => rfl)
        (setApproval approval.id
          (fun a => { a with status := "APPROVED", actedBy := some actor, actedAt := some now }) t)
    | none => t
  setStatus id .approved acted

/-- `approve_intent`. -/
def approveIntent (id : Nat) (actor : String) : Prog Unit := do
  let intent ← requireIntent env id
  if intent.status ≠ IntentStatus.pendingApproval.value then
    throw (.other s!"approve_not_allowed_from:{intent.status}")
  else do
    let approval ← query env (latestApproval id)
    let w ← Eff.read
    let now := env.now w.ticks
    match approval.filter fun a => a.expiresAt.any (· < now) with
    | some expired => do
      write (setApproval expired.id fun a => { a with status := "EXPIRED" })
      write (setStatus id .expired)
      flush env
      throw (.other "approval_expired")
    | none => do
      write (recordApproval id actor now)
      flush env

def recordRejection (id : Nat) (actor : String) (now : Int) (t : Tables) : Tables :=
  let acted := match latestApproval id t with
    | some approval =>
      setApproval approval.id
        (fun a => { a with status := "REJECTED", actedBy := some actor, actedAt := some now }) t
    | none => t
  setStatus id .rejected acted

/-- `reject_intent`. -/
def rejectIntent (id : Nat) (actor : String) : Prog Unit := do
  let _ ← requireIntent env id
  let _ ← query env (latestApproval id)
  let w ← Eff.read
  write (recordRejection id actor (env.now w.ticks))
  flush env

end Operations

/-! ## Submitting -/

/-- `make_client_order_id`, under the hash of its parts. -/
def makeClientOrderId (digest : String → String) (intent : OrderIntent) (attempt : Int) : String :=
  let workflow := (intent.workflowRunId.filter (· ≠ "")).getD "wf"
  let decision := intent.decisionId.getD ""
  let base := s!"{workflow}|{decision}|{intent.id}|{intent.symbol}|{intent.side}|{attempt}"
  takeChars 48 ("inv-" ++ takeChars 24 (digest base))

def EXIT_INTENT_TYPES : List String :=
  ["REDUCE_LONG", "CLOSE_LONG", "REDUCE_SHORT", "CLOSE_SHORT", "CANCEL_PENDING"]

/-- `_intent_is_exit`. -/
def intentIsExit (intent : OrderIntent) : Bool :=
  EXIT_INTENT_TYPES.contains intent.intentType ||
    hasPrefix (intent.thesis.getD "") "closing:" || hasPrefix (intent.thesis.getD "") "force_close:"

/-- `intent.approved_quantity or intent.quantity or 0`. -/
def orderedQty (intent : OrderIntent) : ℚ :=
  (intent.approvedQuantity.filter (· ≠ 0)).getD (intent.quantity.getD 0)

def metadataText (intent : OrderIntent) (key default : String) : String :=
  match Dict.at intent.metadata key with
  | .str s => if s = "" then default else s
  | _ => default

def metadataConId (intent : OrderIntent) : Option Int :=
  match Dict.at intent.metadata "con_id" with
  | .num q => if q = 0 then none else some (Pretrade.truncate q)
  | _ => none

section Submission

variable (env : Env) (cfg : Settings)

def finalCheck (intent : OrderIntent) (now : Int) : Pretrade.PretradeArgs :=
  { side := intent.side, quantity := orderedQty intent, entryPrice := intent.entryPrice.getD 0,
    stopPrice := intent.stopPrice, equity := cfg.startingCash, cash := cfg.startingCash,
    buyingPower := cfg.startingCash, grossExposure := 0, positionQty := 0, dataQualityScore := 1,
    quoteAgeSeconds := some 0, spreadBps := some 10, hardVetoes := [], assetTradable := true,
    marketOpen := true, accountBlocked := false, duplicateClientOrder := false,
    conflictingOpenOrder := false, decisionExpired := intent.expiredAt now, openPositions := 0 }

def intentVenue [Casing] (intent : OrderIntent) : String :=
  metadataText intent "venue" (resolveVenue cfg).value

def idText (intent : OrderIntent) : Json := .str (toString intent.id)

def submittingOrder [Casing] (intent : OrderIntent) (clientOrderId : String) (now : Int) : Order :=
  { brokerOrderId := none, idempotencyKey := clientOrderId, symbol := intent.symbol,
    side := intent.side, qty := orderedQty intent,
    orderType := metadataText intent "order_type" "limit", limitPrice := intent.entryPrice,
    stopPrice := intent.stopPrice, status := InternalOrderState.submitting.value,
    decisionId := intent.decisionId, submittedAt := some now,
    rawPayload := [("intent_id", idText intent),
      ("state", .str InternalOrderState.submitting.value), ("venue", .str (intentVenue cfg intent)),
      ("con_id", match metadataConId intent with | some c => .num c | none => .null)],
    createdAt := now }

def recoveredOrder (intent : OrderIntent) (clientOrderId : String) (remote : OrderResult)
    (now : Int) : Order :=
  { brokerOrderId := some remote.brokerOrderId, idempotencyKey := clientOrderId,
    symbol := intent.symbol, side := intent.side, qty := orderedQty intent,
    orderType := metadataText intent "order_type" "limit", limitPrice := intent.entryPrice,
    stopPrice := intent.stopPrice, status := remote.status.value, decisionId := intent.decisionId,
    submittedAt := some remote.submittedAt,
    rawPayload := [("recovered", .bool true), ("intent_id", idText intent)], createdAt := now }

def intentRequest [Casing] (intent : OrderIntent) (clientOrderId : String) : OrderRequest :=
  { symbol := intent.symbol, side := if Casing.lower intent.side = "buy" then "buy" else "sell",
    qty := orderedQty intent, orderType := metadataText intent "order_type" "limit",
    limitPrice := intent.entryPrice, stopPrice := intent.stopPrice,
    idempotencyKey := clientOrderId, timeInForce := "day",
    venue := some (intentVenue cfg intent), conId := metadataConId intent }

def submittedOrder [Casing] (intent : OrderIntent) (result : OrderResult) (row : Order) : Order :=
  { row with
    brokerOrderId := some result.brokerOrderId
    status := result.status.value
    rawPayload := [("intent_id", idText intent), ("broker", .obj result.raw),
      ("state", .str InternalOrderState.submitted.value), ("venue", .str (intentVenue cfg intent)),
      ("con_id", match metadataConId intent with | some c => .num c | none => .null)] }

def unknownOrder (intent : OrderIntent) (row : Order) : Order :=
  { row with
    status := InternalOrderState.unknown.value
    rawPayload := [("intent_id", idText intent),
      ("state", .str InternalOrderState.reconciliationRequired.value), ("error", .str "timeout")] }

def failedOrder (intent : OrderIntent) (error : String) (row : Order) : Order :=
  { row with
    status := InternalOrderState.failed.value
    rawPayload := [("intent_id", idText intent), ("error", .str (takeChars 300 error))] }

/-- The exit policy of a submitted intent: that of its creation, with the stop refreshed. -/
def refreshedPolicy (intent : OrderIntent) : Dict Json :=
  let prior := intent.exitPolicy
  [("stop_loss", match intent.stopPrice with
      | some q => .num q
      | none => Dict.at prior "stop_loss"),
    ("invalidation_condition", Dict.at prior "invalidation_condition"),
    ("take_profit_policy", Dict.at prior "take_profit_policy"),
    ("max_holding_time_minutes", Dict.at prior "max_holding_time_minutes"),
    ("closing_policy", match Dict.at prior "closing_policy" with
      | .str s => .str (if s = "" then "CLOSE_INTRADAY_ONLY" else s)
      | _ => .str "CLOSE_INTRADAY_ONLY"),
    ("overnight_allowed", .bool (match Dict.at prior "overnight_allowed" with
      | .bool b => b
      | _ => false)),
    ("protection_submitted", .bool false)]

def submittedIntent (r : OrderIntent) : OrderIntent :=
  { r with
    status := IntentStatus.submitted.value
    exitPolicy := refreshedPolicy r
    metadata := Dict.set r.metadata "exit_policy" (.obj (refreshedPolicy r)) }

def submitGate (controls : TradingControlState) : Option String :=
  if controls.state = .emergencyStop then some "emergency_stop_active"
  else if !cfg.enableBrokerOrders then some "enable_broker_orders_false"
  else if !cfg.enableBrokerConnection && cfg.brokerProvider ≠ "mock" then
    some "broker_connection_disabled"
  else none

def reconciliationBlocks (latestRecon : Option String) (intent : OrderIntent) : Option String :=
  (latestRecon.filter fun result =>
    result ∈ ["MATERIAL_DRIFT", "BROKER_UNAVAILABLE", "LOCAL_STATE_INVALID"] ∧
      !intentIsExit intent).map fun result => s!"reconciliation_blocks_submit:{result}"

/-- `session.add(order)`, and the intent with its new status and client id. -/
def markSent (id : Nat) (status : IntentStatus) (clientOrderId : String) : Prog Unit :=
  write (setIntent id
    (fun r => { r with status := status.value, clientOrderId := some clientOrderId }) fun _ => rfl)

variable [Casing]

def sendIntent (intent : OrderIntent) (clientOrderId : String) : Prog Unit := do
  let result ← brokerSubmit env intent.planKey (intentRequest cfg intent clientOrderId)
  write (setOrder clientOrderId (submittedOrder cfg intent result) fun _ => rfl)
  write (setIntent intent.id submittedIntent fun _ => rfl)
  flush env

def recordFailure (intent : OrderIntent) (clientOrderId : String) (e : Fault) : Prog Unit :=
  match e with
  | .cancelled => throw .cancelled
  | .timeout => do
    write (setOrder clientOrderId (unknownOrder intent) fun _ => rfl)
    write (setStatus intent.id .failed)
    flush env
    throw .timeout
  | e => do
    write (setOrder clientOrderId (failedOrder intent e.text) fun _ => rfl)
    write (setStatus intent.id .failed)
    flush env
    throw e

def placeIntent (intent : OrderIntent) (clientOrderId : String) : Prog Unit := do
  markSent intent.id .submitting clientOrderId
  if orderedQty intent ≤ 0 then do
    write (setStatus intent.id .failed)
    flush env
    throw (.broker "quantity_zero")
  else do
    let w ← Eff.read
    addOrder (submittingOrder cfg intent clientOrderId (env.now w.ticks))
    flush env
    tryCatch (sendIntent env cfg intent clientOrderId) (recordFailure env intent clientOrderId)

def remoteOrder (clientOrderId : String) : Prog (Option OrderResult) :=
  match env.clientOrders with
  | none => return none
  | some lookup => do
    suspend env
    let w ← Eff.read
    match lookup w.ticks clientOrderId with
    | .ok remote => return remote
    | .error e => throw e

def dispatchIntent (intent : OrderIntent) (clientOrderId : String) : Prog Unit := do
  let remote ← remoteOrder env clientOrderId
  match remote with
  | some remote => do
    let w ← Eff.read
    addOrder (recoveredOrder intent clientOrderId remote (env.now w.ticks))
    markSent intent.id .submitted clientOrderId
    flush env
  | none => placeIntent env cfg intent clientOrderId

def isAged (intent : OrderIntent) (now : Int) : Bool :=
  intent.updatedAt.any fun t => cfg.orderSubmissionRevalidationMaxAgeSeconds < now - t

def gateIntent (controls : TradingControlState) (intent : OrderIntent) (clientOrderId : String) :
    Prog Unit := do
  let w ← Eff.read
  let now := env.now w.ticks
  match Pretrade.validate cfg controls (finalCheck cfg intent now) with
  | none => throw (.other "float division by zero")
  | some hard =>
    if hard.status = .rejected ∨ hard.status = .systemBlocked then do
      write (setStatus intent.id .riskRejected)
      flush env
      throw (.broker ("final_pretrade_blocked:" ++ ",".intercalate hard.violations))
    else do
      if isAged cfg intent now then
        write (setIntent intent.id
          (fun r => { r with
            metadata := Dict.set r.metadata "revalidation_warning" (.str "approval_aged") })
          fun _ => rfl)
      else pure ()
      dispatchIntent env cfg intent clientOrderId

/-- `submit_intent`. An order on file under the client id is returned before anything else is
    looked at. -/
def submitIntent (digest : String → String) (controls : TradingControlState) (id : Nat)
    (attempt : Int) (latestRecon : Option String) : Prog Unit := do
  let intent ← requireIntent env id
  match submitGate cfg controls with
  | some message => throw (.broker message)
  | none =>
    if intent.status ∉ [IntentStatus.approved.value, IntentStatus.submitted.value,
        IntentStatus.submitting.value] then
      throw (.other s!"submit_not_allowed_from:{intent.status}")
    else do
      let clientOrderId := makeClientOrderId digest intent attempt
      let existing ← query env fun t => t.orders.find? clientOrderId
      if existing.isSome then pure ()
      else if intent.status ≠ IntentStatus.approved.value then
        throw (.other s!"submit_not_allowed_from:{intent.status}")
      else
        match reconciliationBlocks latestRecon intent with
        | some message => throw (.broker message)
        | none => gateIntent env cfg controls intent clientOrderId

end Submission

/-! ## Sequences of operations -/

/-- One call of the service on an intent, with the trading controls of the time. -/
inductive IntentOp
  | validate (controls : TradingControlState) (args : ValidateIntentArgs)
  | approve (actor : String)
  | reject (actor : String)
  | submit (controls : TradingControlState) (attempt : Int) (latestRecon : Option String)

section Operations

variable [Casing]

def IntentOp.run (env : Env) (cfg : Settings) (digest : String → String) (id : Nat) :
    IntentOp → Prog Unit
  | .validate controls args => validateIntent env cfg controls id args
  | .approve actor => approveIntent env id actor
  | .reject actor => rejectIntent env id actor
  | .submit controls attempt latestRecon =>
    submitIntent env cfg digest controls id attempt latestRecon

def intentStep (env : Env) (cfg : Settings) (digest : String → String) (id : Nat) (w : World)
    (op : IntentOp) : World :=
  (op.run env cfg digest id w).2

end Operations

end Investor.Execution
