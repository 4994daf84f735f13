import Investor.Core.Runtime
import Investor.Execution.Validation

/-!
# The order manager

`OrderManager.submit_validated_intents` sends validated intents to the broker, one
`_submit_one` after another. A row of the `orders` table is written and flushed before
the broker is called, so that the key of an order is on file when the broker hears of
it; what comes back is written to the same row.

`_submit_one` is cut where it awaits: the exit checks, the row, the broker call, and the
bookkeeping of its answer. What each part can do to the world is said once (`Frame`,
`SubmitStep`), by the rules of `Eff`.
-/

namespace Investor.Execution

open Lib Schema Market Core

/-! ## Which intents are exits -/

def FLATTEN_MARKERS : List String := ["force-close:", "hard-stop:", ":sell:SELL", ":buy:BUY"]

def PARTIAL_MARKERS : List String := [":sell:PARTIAL_SELL", ":sell:REDUCE", ":buy:REDUCE"]

/-- `_STALE_FLATTEN_SECONDS`. -/
def STALE_FLATTEN_SECONDS : Int := 90

section Manager

variable [Casing]

def thesisFlattens (intent : ValidatedOrderIntent) : Bool :=
  let thesis := Casing.lower intent.thesis
  hasPrefix thesis "force_close" || hasPrefix thesis "hard_stop" || hasPrefix thesis "closing:"

def isExitIntent (intent : ValidatedOrderIntent) : Bool :=
  (FLATTEN_MARKERS ++ PARTIAL_MARKERS).any (hasPart intent.idempotencyKey) ||
    thesisFlattens intent

def isFlattenIntent (intent : ValidatedOrderIntent) : Bool :=
  FLATTEN_MARKERS.any (hasPart intent.idempotencyKey) || thesisFlattens intent

def isPartialExit (intent : ValidatedOrderIntent) : Bool :=
  PARTIAL_MARKERS.any (hasPart intent.idempotencyKey)

/-- `_is_stale_flatten`, at a time in seconds. -/
def isStaleFlatten (now : Int) (row : Order) : Bool :=
  let age := now - row.submittedAt.getD row.createdAt
  if Casing.lower row.orderType ∈ ["limit", "lmt"] ∧ STALE_FLATTEN_SECONDS ≤ age then true
  else decide (180 ≤ age)

/-- `_working_same_side`. -/
def workingSameSide (symbol side : String) (t : Tables) : List Order :=
  t.orders.rows.filter fun o =>
    o.symbol = Casing.upper symbol ∧ o.side = Casing.lower side ∧ o.isWorking

/-! ## Order terms at the broker -/

def isRestingStop (orderType : String) : Bool :=
  strip orderType ≠ "" && ["stop", "stop_limit", "trailing_stop"].contains
    (canonicalOrderType (some orderType))

/-- `uses_marketable_limit` without an exchange. -/
def usesMarketableLimit (venue : String) : Bool := Casing.upper (strip venue) = "AU"

/-- `is_sane_equity_price`. -/
def isSaneEquityPrice (px : ℚ) : Bool := 0 < px && px < 1000000

/-- `aggressive_limit_price`; `none` for its `ValueError`s. -/
def aggressiveLimitPrice (side : String) (last : ℚ) (flatten : Bool) : Option ℚ :=
  if !isSaneEquityPrice last then none
  else
    let slip := max (last * (if flatten then 2 / 25 else 1 / 40)) (1 / 50)
    let raw := if Casing.lower side = "sell" then last - slip else last + slip
    let out := roundEquityPrice (max (1 / 100) raw)
    if isSaneEquityPrice out then some out else none

/-- `apply_marketable_limit` at a last price; `none` for its `ValueError`s. -/
def applyMarketableLimit (venue side orderType : String) (limitPrice : Option ℚ) (last : ℚ)
    (flatten : Bool) : Option (String × ℚ) :=
  if isRestingStop orderType || !usesMarketableLimit venue then none
  else
    -- `reference_price`: no bid and no ask are given, so the last price or nothing
    (aggressiveLimitPrice side last flatten).map fun want =>
      match limitPrice.filter isSaneEquityPrice with
      | none => ("limit", want)
      | some existing =>
        if Casing.lower orderType ∉ ["limit", "lmt"] then ("limit", want)
        else if Casing.lower side = "sell" then
          if existing ≤ want then ("limit", existing) else ("limit", want)
        else if want ≤ existing then ("limit", existing)
        else ("limit", want)

def orderVenue (cfg : Settings) (intent : ValidatedOrderIntent) : String :=
  match intent.venue with
  | some v => if v = "" then (resolveVenue cfg).value else v
  | none => (resolveVenue cfg).value

def truthyConId (intent : ValidatedOrderIntent) : Option Int := intent.conId.filter (· ≠ 0)

/-- The order type and limit after a live last price, where the venue takes no market
    orders. -/
def shapedTerms (cfg : Settings) (intent : ValidatedOrderIntent) (live : Option ℚ) :
    String × Option ℚ :=
  match live.filter (· ≠ 0) with
  | none => (intent.orderType, intent.limitPrice)
  | some last =>
    match applyMarketableLimit (orderVenue cfg intent) intent.side.value intent.orderType
      intent.limitPrice last (isFlattenIntent intent) with
    | some (orderType, limit) => (orderType, some limit)
    | none => (intent.orderType, intent.limitPrice)

def orderTif (intent : ValidatedOrderIntent) (orderType : String) : String :=
  let tif := Casing.lower (strip (intent.timeInForce.getD ""))
  if tif ≠ "" then tif else if isRestingStop orderType then "gtc" else "day"

def orderRequest (cfg : Settings) (intent : ValidatedOrderIntent) (orderType : String)
    (limit : Option ℚ) : OrderRequest :=
  { symbol := intent.symbol, side := intent.side.value, qty := intent.quantity, orderType,
    limitPrice := limit, stopPrice := intent.stopPrice, idempotencyKey := intent.idempotencyKey,
    timeInForce := orderTif intent orderType, venue := some (orderVenue cfg intent),
    conId := truthyConId intent }

/-! ## Rows -/

def orderPayload (cfg : Settings) (intent : ValidatedOrderIntent) : Dict Json :=
  [("thesis", .str intent.thesis), ("venue", .str (orderVenue cfg intent)),
    ("con_id", match intent.conId with | some c => .num c | none => .null)]

def pendingOrder (cfg : Settings) (intent : ValidatedOrderIntent) (decisionId : Option String)
    (now : Int) : Order :=
  { brokerOrderId := none, idempotencyKey := intent.idempotencyKey, symbol := intent.symbol,
    side := intent.side.value, qty := intent.quantity, orderType := intent.orderType,
    limitPrice := intent.limitPrice, stopPrice := intent.stopPrice, status := "pending_submit",
    decisionId := some (decisionId.getD intent.decisionId), submittedAt := none,
    rawPayload := orderPayload cfg intent, createdAt := now }

def resubmitted (cfg : Settings) (intent : ValidatedOrderIntent) (row : Order) : Order :=
  { row with
    qty := intent.quantity, orderType := intent.orderType, limitPrice := intent.limitPrice,
    stopPrice := intent.stopPrice, status := "pending_submit", brokerOrderId := none,
    rawPayload := Dict.merge row.rawPayload
      (orderPayload cfg intent ++ [("resubmit", .bool true)]) }

def answered (result : OrderResult) (row : Order) : Order :=
  { row with
    brokerOrderId := some result.brokerOrderId
    status := (internalStatus result.status).value
    submittedAt := some result.submittedAt
    rawPayload := Dict.set row.rawPayload "broker" (.obj result.raw)
    orderType := match Dict.get? result.raw "order_type" with
      | some (.str s) => if s = "" then row.orderType else s
      | _ => row.orderType
    limitPrice := match (Dict.get? result.raw "limit_price").bind Json.float? with
      | some q => some q
      | none => row.limitPrice }

def timedOut (row : Order) : Order :=
  { row with
    status := "UNKNOWN"
    rawPayload := Dict.merge row.rawPayload
      [("error", .str "timeout"), ("state", .str "RECONCILIATION_REQUIRED")] }

def recovered (remote : OrderResult) (row : Order) : Order :=
  { row with
    brokerOrderId := some remote.brokerOrderId
    status := (internalStatus remote.status).value
    submittedAt := some remote.submittedAt }

def refusedBy (message : String) (row : Order) : Order :=
  { row with
    status := InternalOrderState.rejected.value
    rawPayload := Dict.set row.rawPayload "error" (.str message) }

def setOrder (key : String) (f : Order → Order) (hf : ∀ r, (f r).idempotencyKey = r.idempotencyKey)
    (t : Tables) : Tables :=
  { t with
    orders := t.orders.update (fun r => if r.idempotencyKey = key then f r else r)
      (fun r => by split <;> simp [hf]) }

/-! ## The programs -/

variable (env : Env) (cfg : Settings)

/-- `session.add(row)`, whose key the database may refuse. -/
def addOrder (row : Order) : Prog Unit := do
  let w ← Eff.read
  match w.db.working.orders.insert row with
  | some orders => write fun t => { t with orders }
  | none =>
    abort
    throw (.other "IntegrityError")

/-- `SystemEventRepository.record`. -/
def recordEvent : Prog Unit := flush env

/-- `cancel_order`. -/
def cancelOrder (key : String) : Prog Unit := do
  let found ← query env fun t => t.orders.find? key
  match found with
  | none => throw (.other "order not found")
  | some row =>
    match row.brokerId? with
    | some oid =>
      let ended ← Eff.attempt (brokerCancel env oid)
      match ended with
      | .ok status => write (setOrder key (fun r => { r with status := status.value }) fun _ => rfl)
      | .error (.broker message) =>
        recordEvent env
        throw (.broker message)
      | .error e => throw e
    | none =>
      write (setOrder key (fun r => { r with status := OrderStatus.canceled.value }) fun _ => rfl)
    flush env

/-- `cancel_working_for_symbol` on one side. -/
def cancelWorkingForSymbol (symbol side : String) : Prog Unit := do
  let rows ← query env (workingSameSide symbol side)
  Eff.forEach (fun row => tryCatch (cancelOrder env row.idempotencyKey) fun e =>
    if e.isException then pure () else throw e) rows

def skipsExit (intent : ValidatedOrderIntent) : Prog Bool :=
  if !isExitIntent intent then return false
  else do
    let working ← query env (workingSameSide intent.symbol intent.side.value)
    if !working.isEmpty && isPartialExit intent then return true
    else if !working.isEmpty && isFlattenIntent intent then do
      let w ← Eff.read
      let same := working.filter fun r => r.idempotencyKey = intent.idempotencyKey
      if !same.isEmpty && !same.any (isStaleFlatten (env.now w.ticks)) then return true
      else do
        cancelWorkingForSymbol env intent.symbol intent.side.value
        return false
    else return false

/-- The row of the intent's key, new or taken up again; whether to go on with it. -/
def claimRow (intent : ValidatedOrderIntent) (decisionId : Option String) : Prog Bool := do
  let existing ← query env fun t => t.orders.find? intent.idempotencyKey
  match existing with
  | some row =>
    -- working, filled, or in any other state that is not dead: a duplicate
    if foldStatus row.status ∉ DEAD_ORDER_STATUSES then return false
    else do
      write (setOrder intent.idempotencyKey (resubmitted cfg intent) fun _ => rfl)
      return true
  | none =>
    let w ← Eff.read
    addOrder (pendingOrder cfg intent decisionId (env.now w.ticks))
    return true

def fetchLive (intent : ValidatedOrderIntent) : Prog (Option ℚ) :=
  if usesMarketableLimit (orderVenue cfg intent) && !isRestingStop intent.orderType then do
    suspend env
    let w ← Eff.read
    return env.livePrice w.ticks (Casing.upper intent.symbol)
  else return none

def sendOrder (intent : ValidatedOrderIntent) : Prog OrderResult := do
  let terms ← shapedTerms cfg intent <$> fetchLive env cfg intent
  if (terms.1 = "limit" ∨ terms.1 = "stop_limit") ∧ terms.2.isNone then
    throw (.broker s!"{intent.symbol}: limit order missing limit_price")
  else brokerSubmit env intent.idempotencyKey (orderRequest cfg intent terms.1 terms.2)

/-- What is done about a timeout: never a second submission, but a look at the broker. -/
def recoverTimeout (intent : ValidatedOrderIntent) : Prog Unit := do
  write (setOrder intent.idempotencyKey timedOut fun _ => rfl)
  recordEvent env
  match env.clientOrders with
  | none => return ()
  | some lookup =>
    suspend env
    let w ← Eff.read
    match lookup w.ticks intent.idempotencyKey with
    | .error e => throw e
    | .ok none => return ()
    | .ok (some remote) =>
      write (setOrder intent.idempotencyKey (recovered remote) fun _ => rfl)

def recordAnswer (intent : ValidatedOrderIntent) : Except Fault OrderResult → Prog Unit
  | .ok result => do
    write (setOrder intent.idempotencyKey (answered result) fun _ => rfl)
    flush env
  | .error .timeout => recoverTimeout env intent
  | .error (.broker message) => do
    write (setOrder intent.idempotencyKey (refusedBy message) fun _ => rfl)
    recordEvent env
  | .error e => throw e

/-- `_submit_one`: whether an order was made of the intent. -/
def submitOne (intent : ValidatedOrderIntent) (decisionId : Option String) : Prog Bool := do
  let skipped ← skipsExit env intent
  if skipped then return false
  else do
    let claimed ← claimRow env cfg intent decisionId
    if !claimed then return false
    else do
      flush env
      let ended ← Eff.attempt (sendOrder env cfg intent)
      recordAnswer env intent ended
      return true

/-- The gates of `submit_validated_intents`. -/
def submitBlocked (controls : TradingControlState) (approved : Bool) : Bool :=
  !approved || !controls.isNewOrderAllowed || !cfg.enableBrokerOrders ||
    (cfg.requireManualOrderApproval && !cfg.enableAutomatedExecution) ||
    cfg.enableLiveTrading || Casing.lower cfg.brokerEnvironment = "live"

def submitEach (decisionId : Option String) : List ValidatedOrderIntent → Prog Nat
  | [] => return 0
  | intent :: intents => do
    let made ← submitOne env cfg intent decisionId
    let rest ← submitEach decisionId intents
    return (if made then 1 else 0) + rest

/-- `submit_validated_intents`: how many orders were made. -/
def submitValidatedIntents (controls : TradingControlState)
    (validation : ExecutionValidationResult) (decisionId : Option String) : Prog Nat := do
  if submitBlocked cfg controls validation.approved then
    recordEvent env
    return 0
  else submitEach env cfg decisionId validation.intents

end Manager

end Investor.Execution
