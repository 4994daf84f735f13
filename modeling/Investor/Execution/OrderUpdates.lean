import Investor.Execution.IntentLifecycle

/-!
# What the broker's answers do to the orders

Five paths read an answer of the broker about an order and write to its row: `_submit_one` with
the recovery after a timeout, `submit_intent`, `cancel_order`, `sync_statuses_from_broker` and
`BrokerUpdateProcessor.apply_remote_status` under `poll_and_apply`. Here each is a function of the
tables it writes to and of the answers it gets, without the awaits; the rows they write are those
of the order manager and of the intents. A call of the broker comes to an answer or to one of
three kinds of exception (`BrokerFault`); the events on the bus and the system events are left
out.

Two fields of `OrderBook` are the model's own: what was sent to the broker, and the last answer
that was handled for each order.
-/

namespace Investor.Execution

open Lib Schema Market

/-- `Execution`: a fill, by the key of its order. -/
structure Execution where
  orderKey : String
  symbol : String
  qty : ℚ
  price : ℚ
  executedAt : Int
  rawPayload : Dict Json

/-- `BrokerOrderEvent`, by the key of its order. -/
structure BrokerOrderEvent where
  orderKey : String
  brokerOrderId : Option String
  eventType : String
  brokerStatus : String
  eventAt : Int
  filledQty : ℚ
  avgFillPrice : Option ℚ

structure OrderBook where
  orders : OrderTable
  executions : List Execution
  events : List BrokerOrderEvent
  /-- What was sent to the broker, oldest first. -/
  sent : List OrderRequest
  /-- The last answer that was handled for the order of a key. -/
  handled : Dict OrderResult

/-- What a call of the broker may raise. -/
inductive BrokerFault
  | timeout
  | broker (message : String)
  | other (message : String)
  deriving DecidableEq

/-! ## Internal states -/

def InternalOrderState.all : List InternalOrderState :=
  [.created, .validating, .riskRejected, .pendingApproval, .approved, .submitting, .submitted,
    .accepted, .partiallyFilled, .filled, .cancelPending, .cancelled, .replacePending, .replaced,
    .rejected, .expired, .failed, .unknown, .reconciliationRequired]

/-- `InternalOrderState(value)`; `none` for its `ValueError`. -/
def InternalOrderState.ofValue? (value : String) : Option InternalOrderState :=
  InternalOrderState.all.find? fun s => s.value = value

/-! ## Statuses that are written -/

/-- The statuses that the internal enum, the broker adapters and `_submit_one` write. -/
def writtenStatuses : List String :=
  InternalOrderState.all.map (·.value) ++
    ["new", "accepted", "filled", "partially_filled", "canceled", "rejected", "pending_submit"]

theorem InternalOrderState.mem_all (s : InternalOrderState) : s ∈ InternalOrderState.all := by
  cases s <;> decide

theorem value_written (s : InternalOrderState) : s.value ∈ writtenStatuses :=
  List.mem_append_left _ (List.mem_map_of_mem s.mem_all)

theorem InternalOrderState.value_inj {s s' : InternalOrderState} (h : s.value = s'.value) :
    s = s' := by
  revert h
  cases s <;> cases s' <;> decide

theorem ofValue?_value (s : InternalOrderState) :
    InternalOrderState.ofValue? s.value = some s := by
  cases s <;> decide

theorem value_written_broker (s : OrderStatus) : s.value ∈ writtenStatuses := by
  cases s <;> decide

section Folding

variable [Casing]

theorem lower_written {s : String} (h : s ∈ writtenStatuses) : Casing.lower s = asciiLower s := by
  refine Casing.lower_ascii s ?_
  revert s
  decide +kernel

theorem foldStatus_written {s : String} (h : s ∈ writtenStatuses) :
    foldStatus s = asciiLower s := by
  have hstrip : strip s = s := by
    revert s
    decide +kernel
  unfold foldStatus
  rw [hstrip, lower_written h]

end Folding

/-! ## Updates -/

/-- `ALLOWED_ORDER_TRANSITIONS`. -/
def ALLOWED_ORDER_TRANSITIONS : InternalOrderState → List InternalOrderState
  | .created => [.validating, .cancelled, .failed]
  | .validating => [.riskRejected, .pendingApproval, .approved, .failed]
  | .riskRejected => []
  | .pendingApproval => [.approved, .rejected, .expired, .cancelled]
  | .approved => [.submitting, .expired, .cancelled, .failed]
  | .submitting => [.submitted, .unknown, .failed, .reconciliationRequired]
  | .submitted => [.accepted, .partiallyFilled, .filled, .cancelPending, .rejected, .expired,
      .unknown, .reconciliationRequired]
  | .accepted => [.partiallyFilled, .filled, .cancelPending, .replacePending, .cancelled, .expired,
      .rejected]
  | .partiallyFilled => [.filled, .cancelPending, .replacePending, .cancelled]
  | .filled => []
  | .cancelPending => [.cancelled, .filled, .partiallyFilled, .reconciliationRequired]
  | .cancelled => []
  | .replacePending => [.replaced, .filled, .reconciliationRequired]
  | .replaced => []
  | .rejected => []
  | .expired => []
  | .failed => [.reconciliationRequired]
  | .unknown => [.submitted, .accepted, .filled, .cancelled, .rejected, .reconciliationRequired,
      .failed]
  | .reconciliationRequired => [.submitted, .accepted, .filled, .cancelled, .rejected, .failed,
      .unknown]

/-- `_STATUS_MAP`. -/
def STATUS_MAP : Dict InternalOrderState :=
  [("new", .accepted), ("accepted", .accepted), ("pending_new", .submitted),
    ("partially_filled", .partiallyFilled), ("filled", .filled), ("canceled", .cancelled),
    ("cancelled", .cancelled), ("pending_cancel", .cancelPending),
    ("pending_replace", .replacePending), ("replaced", .replaced), ("rejected", .rejected),
    ("expired", .expired), ("unknown", .unknown)]

/-- `terminal` of `apply_remote_status`. -/
def terminalStates : List InternalOrderState :=
  [.filled, .cancelled, .rejected, .expired, .replaced]

/-- What `apply_remote_status` returns. -/
inductive ApplyOutcome
  | unchanged | stale | reconciliation | updated
  deriving DecidableEq

/-- The comparisons of `apply_remote_status`, on the status as it is stored. -/
def applyOutcome (status : String) (mapped : InternalOrderState) : ApplyOutcome :=
  if status = mapped.value then .unchanged
  else if status ∈ terminalStates.map (·.value) ∧ mapped ∉ terminalStates then .stale
  else match InternalOrderState.ofValue? status with
    | some s => if mapped ∈ ALLOWED_ORDER_TRANSITIONS s then .updated else .reconciliation
    | none => .updated

theorem applyOutcome_cases (status : String) (mapped : InternalOrderState) :
    (applyOutcome status mapped = .unchanged ∧ status = mapped.value) ∨
    (applyOutcome status mapped = .stale ∧ status ∈ terminalStates.map (·.value) ∧
      mapped ∉ terminalStates) ∨
    (applyOutcome status mapped = .reconciliation ∧
      ∃ S, InternalOrderState.ofValue? status = some S ∧ mapped ∉ ALLOWED_ORDER_TRANSITIONS S) ∨
    (applyOutcome status mapped = .updated ∧
      ∀ S, InternalOrderState.ofValue? status = some S →
        mapped ∈ ALLOWED_ORDER_TRANSITIONS S) := by
  unfold applyOutcome
  split
  · rename_i hsame
    exact Or.inl ⟨rfl, hsame⟩
  · split
    · rename_i hstale
      exact Or.inr (Or.inl ⟨rfl, hstale⟩)
    · cases hstate : InternalOrderState.ofValue? status with
      | none => exact Or.inr (Or.inr (Or.inr ⟨rfl, nofun⟩))
      | some S =>
        dsimp only
        split
        · rename_i hallowed
          exact Or.inr (Or.inr (Or.inr ⟨rfl, fun S' hS' => Option.some.inj hS' ▸ hallowed⟩))
        · rename_i hillegal
          exact Or.inr (Or.inr (Or.inl ⟨rfl, S, rfl, hillegal⟩))

/-- The row after `apply_remote_status`. -/
def applied (mapped : InternalOrderState) (row : Order) : Order :=
  match applyOutcome row.status mapped with
  | .unchanged | .stale => row
  | .reconciliation =>
    { row with
      status := InternalOrderState.reconciliationRequired.value
      rawPayload := Dict.set row.rawPayload "illegal_transition_observed" (.bool true) }
  | .updated => { row with status := mapped.value }

/-- The row that `sync_statuses_from_broker` compares and writes. -/
def synced (answer : OrderResult) (row : Order) : Order :=
  if row.status ≠ (internalStatus answer.status).value then
    { row with
      status := (internalStatus answer.status).value
      rawPayload := Dict.set row.rawPayload "broker_sync" (.obj answer.raw) }
  else row

def missingRemote (message : String) (row : Order) : Order :=
  { row with
    status := InternalOrderState.cancelled.value
    rawPayload := Dict.set row.rawPayload "broker_sync"
      (.obj [("missing_remote", .bool true), ("error", .str (takeChars 200 message))]) }

theorem key_applied {mapped : InternalOrderState} (row : Order) :
    (applied mapped row).idempotencyKey = row.idempotencyKey := by
  unfold applied
  split <;> rfl

variable {answer : OrderResult}

theorem key_synced (row : Order) : (synced answer row).idempotencyKey = row.idempotencyKey := by
  unfold synced
  split <;> rfl

variable {key : String} {f : Order → Order}

theorem key_onKey (hf : ∀ r, (f r).idempotencyKey = r.idempotencyKey) (r : Order) :
    (if r.idempotencyKey = key then f r else r).idempotencyKey = r.idempotencyKey := by
  split
  · exact hf r
  · rfl

theorem key_canceled (row : Order) :
    ({ row with status := OrderStatus.canceled.value } : Order).idempotencyKey =
      row.idempotencyKey := rfl

theorem key_timedOut (row : Order) : (timedOut row).idempotencyKey = row.idempotencyKey := rfl

theorem key_recovered {remote : OrderResult} (row : Order) :
    (recovered remote row).idempotencyKey = row.idempotencyKey := rfl

theorem key_answered (row : Order) :
    (answered answer row).idempotencyKey = row.idempotencyKey := rfl

theorem key_refusedBy {message : String} (row : Order) :
    (refusedBy message row).idempotencyKey = row.idempotencyKey := rfl

theorem key_resubmitted [Casing] {cfg : Settings} {intent : ValidatedOrderIntent} (row : Order) :
    (resubmitted cfg intent row).idempotencyKey = row.idempotencyKey := rfl

variable {intent : OrderIntent}

theorem key_submittedOrder [Casing] {cfg : Settings} (row : Order) :
    (submittedOrder cfg intent answer row).idempotencyKey = row.idempotencyKey :=
  rfl

theorem key_unknownOrder (row : Order) :
    (unknownOrder intent row).idempotencyKey = row.idempotencyKey := rfl

theorem key_failedOrder {message : String} (row : Order) :
    (failedOrder intent message row).idempotencyKey = row.idempotencyKey := rfl

/-- The fill of an answer, where it is one of a filled order with a price: the broker's
    quantity, or that of the order where there is none. -/
def fillOf (key symbol : String) (qty : ℚ) (now : Int) (answer : OrderResult) : List Execution :=
  match answer.status, answer.avgFillPrice with
  | .filled, some price =>
    [{ orderKey := key, symbol, qty := if answer.filledQty = 0 then qty else answer.filledQty,
       price, executedAt := now, rawPayload := answer.raw }]
  | _, _ => []

namespace OrderBook

/-! ## Writes -/

def setOrder (key : String) (f : Order → Order)
    (hf : ∀ r, (f r).idempotencyKey = r.idempotencyKey) (b : OrderBook) : OrderBook :=
  { b with
    orders := b.orders.update (fun r => if r.idempotencyKey = key then f r else r)
      (key_onKey hf) }

theorem find_setOrder {b : OrderBook} {hf : ∀ r, (f r).idempotencyKey = r.idempotencyKey}
    {k : String} :
    (b.setOrder key f hf).orders.find? k =
      (b.orders.find? k).map fun r => if r.idempotencyKey = key then f r else r := by
  unfold OrderBook.setOrder
  exact KeyedTable.find?_update (t := b.orders) (fun r => by split <;> simp [hf])

theorem find_setOrder_other {b : OrderBook} {hf : ∀ r, (f r).idempotencyKey = r.idempotencyKey}
    {k : String} (h : k ≠ key) : (b.setOrder key f hf).orders.find? k = b.orders.find? k := by
  rw [find_setOrder]
  cases hfind : b.orders.find? k with
  | none => rfl
  | some row =>
    have hkey := (KeyedTable.find?_eq_some_iff.mp hfind).2
    rw [Option.map_some, if_neg (fun heq => h (hkey.symm.trans heq))]

def addOrder (row : Order) (b : OrderBook) : OrderBook :=
  { b with orders := (b.orders.insert row).getD b.orders }

def addFills (fills : List Execution) (b : OrderBook) : OrderBook :=
  { b with executions := b.executions ++ fills }

/-- The answer is the last one that was handled for the order. -/
def handle (key : String) (answer : OrderResult) (b : OrderBook) : OrderBook :=
  { b with handled := Dict.set b.handled key answer }

def send (req : OrderRequest) (b : OrderBook) : OrderBook := { b with sent := b.sent ++ [req] }

section Paths

variable [Casing]

def working (b : OrderBook) : List Order := b.orders.rows.filter (·.isWorking)

/-! ## Cancelling -/

/-- `cancel_order`. -/
def cancelOrder (cancels : String → Except BrokerFault OrderResult) (key : String)
    (b : OrderBook) : OrderBook :=
  match b.orders.find? key with
  | none => b
  | some row =>
    match row.brokerId? with
    | none => b.setOrder key (fun r => { r with status := OrderStatus.canceled.value }) key_canceled
    | some oid =>
      match cancels oid with
      | .error _ => b
      | .ok answer =>
        (b.handle key answer).setOrder key (fun r => { r with status := answer.status.value })
          fun _ => rfl

/-! ## Syncing -/

/-- A row of `sync_statuses_from_broker`. -/
def syncRow (orderOf : String → Except BrokerFault OrderResult) (now : Int) (b : OrderBook)
    (row : Order) : OrderBook :=
  match row.brokerId? with
  | none => b
  | some oid =>
    match orderOf oid with
    | .error (.broker message) =>
      -- `ibkr_order_not_found` is one too
      if hasPart message "order_not_found" then
        b.setOrder row.idempotencyKey (missingRemote message) fun _ => rfl
      else b
    | .error _ => b
    | .ok answer =>
      let changed := (b.handle row.idempotencyKey answer).setOrder row.idempotencyKey
        (synced answer) key_synced
      if row.status ≠ (internalStatus answer.status).value then
        changed.addFills (fillOf row.idempotencyKey row.symbol row.qty now answer)
      else changed

/-- `sync_statuses_from_broker`. -/
def syncStatusesFromBroker (orderOf : String → Except BrokerFault OrderResult) (now : Int)
    (b : OrderBook) : OrderBook :=
  b.working.foldl (syncRow orderOf now) b

/-! ## Polling -/

def mappedState (rawStatus : String) : InternalOrderState :=
  (Dict.get? STATUS_MAP (Casing.lower rawStatus)).getD .unknown

/-- The event that `apply_remote_status` writes of a row whose status is not the mapped one. -/
def updateEvents (rawStatus : String) (remote : OrderResult) (row : Order) :
    List BrokerOrderEvent :=
  if row.status = (mappedState rawStatus).value then []
  else
    [{ orderKey := row.idempotencyKey, brokerOrderId := row.brokerOrderId,
       eventType := Casing.lower rawStatus, brokerStatus := rawStatus,
       eventAt := remote.submittedAt, filledQty := remote.filledQty,
       avgFillPrice := remote.avgFillPrice }]

/-- `apply_remote_status`, on the row of a key. -/
def applyRemoteStatus (key rawStatus : String) (remote : OrderResult) (b : OrderBook) :
    OrderBook :=
  match b.orders.find? key with
  | none => b
  | some row =>
    { (b.handle key remote).setOrder key (applied (mappedState rawStatus)) key_applied with
      events := b.events ++ updateEvents rawStatus remote row }

/-- The remote order of a row: from the open orders, or fetched by its id. -/
def remoteOf (openOrders : Dict OrderResult)
    (orderOf : Option (String → Except BrokerFault OrderResult)) (oid : String) :
    Option OrderResult :=
  match Dict.get? openOrders oid with
  | some remote => some remote
  | none => orderOf.bind fun f => (f oid).toOption

/-- A row of `poll_and_apply`. -/
def pollRow (openOrders : Dict OrderResult)
    (orderOf : Option (String → Except BrokerFault OrderResult)) (b : OrderBook) (row : Order) :
    OrderBook :=
  match row.brokerId?.bind (remoteOf openOrders orderOf) with
  | none => b
  | some remote => b.applyRemoteStatus row.idempotencyKey remote.status.value remote

/-- The open orders by their ids, the later ones over the earlier. -/
def byBrokerId (remotes : List OrderResult) : Dict OrderResult :=
  Dict.ofPairs ((remotes.filter fun r => r.brokerOrderId ≠ "").map fun r => (r.brokerOrderId, r))

/-- `poll_and_apply`, of the open orders it was given or got. -/
def pollAndApply (remotes : Except BrokerFault (List OrderResult))
    (orderOf : Option (String → Except BrokerFault OrderResult)) (b : OrderBook) : OrderBook :=
  match remotes with
  | .error _ => b
  | .ok remotes => b.working.foldl (pollRow (byBrokerId remotes) orderOf) b

/-! ## Submitting -/

/-- What `_submit_one` hears from the clock, the market and the broker. -/
structure SubmitAnswers where
  now : Int
  cancels : String → Except BrokerFault OrderResult
  live : Option ℚ
  submit : OrderRequest → Except BrokerFault OrderResult
  /-- `get_order_by_client_id`, where the adapter has it. -/
  clientOrder : Option (Except BrokerFault (Option OrderResult))

/-- `_working_same_side`. -/
def workingSameSide (symbol side : String) (b : OrderBook) : List Order :=
  b.orders.rows.filter fun o =>
    o.symbol = Casing.upper symbol ∧ o.side = Casing.lower side ∧ o.isWorking

/-- `cancel_working_for_symbol` on one side. -/
def cancelWorkingForSymbol (cancels : String → Except BrokerFault OrderResult)
    (symbol side : String) (b : OrderBook) : OrderBook :=
  (b.workingSameSide symbol side).foldl (fun b row => b.cancelOrder cancels row.idempotencyKey) b

/-- The exit checks: the book to go on with, or `none` where the intent is skipped. -/
def passExit (a : SubmitAnswers) (intent : ValidatedOrderIntent) (b : OrderBook) :
    Option OrderBook :=
  if !isExitIntent intent then some b
  else
    let working := b.workingSameSide intent.symbol intent.side.value
    if !working.isEmpty && isPartialExit intent then none
    else if !working.isEmpty && isFlattenIntent intent then
      let same := working.filter fun r => r.idempotencyKey = intent.idempotencyKey
      if !same.isEmpty && !same.any (isStaleFlatten a.now) then none
      else some (b.cancelWorkingForSymbol a.cancels intent.symbol intent.side.value)
    else some b

/-- The row of the key, new or taken up again; `none` for a duplicate. The answers to an order
    taken up again are those to its new submission. -/
def claimRow (cfg : Settings) (a : SubmitAnswers) (intent : ValidatedOrderIntent)
    (decisionId : Option String) (b : OrderBook) : Option OrderBook :=
  match b.orders.find? intent.idempotencyKey with
  | some row =>
    if foldStatus row.status ∉ DEAD_ORDER_STATUSES then none
    else some { b.setOrder intent.idempotencyKey (resubmitted cfg intent) key_resubmitted with
      handled := Dict.erase b.handled intent.idempotencyKey }
  | none => some (b.addOrder (pendingOrder cfg intent decisionId a.now))

def requestOf (cfg : Settings) (a : SubmitAnswers) (intent : ValidatedOrderIntent) :
    Except BrokerFault OrderRequest :=
  let live := if usesMarketableLimit (orderVenue cfg intent) && !isRestingStop intent.orderType
    then a.live else none
  let terms := shapedTerms cfg intent live
  if (terms.1 = "limit" ∨ terms.1 = "stop_limit") ∧ terms.2.isNone then
    .error (.broker s!"{intent.symbol}: limit order missing limit_price")
  else .ok (orderRequest cfg intent terms.1 terms.2)

/-- What is written after a timeout, and of the order the broker then has under the key. -/
def recoverTimeout (a : SubmitAnswers) (key : String) (b : OrderBook) : OrderBook :=
  let b := b.setOrder key timedOut key_timedOut
  match a.clientOrder with
  | some (.ok (some remote)) => (b.handle key remote).setOrder key (recovered remote) key_recovered
  | _ => b

def recordAnswer (a : SubmitAnswers) (intent : ValidatedOrderIntent)
    (answer : Except BrokerFault OrderResult) (b : OrderBook) : OrderBook :=
  match answer with
  | .ok result =>
    ((b.handle intent.idempotencyKey result).setOrder intent.idempotencyKey (answered result)
      key_answered).addFills
        (fillOf intent.idempotencyKey intent.symbol intent.quantity a.now result)
  | .error .timeout => b.recoverTimeout a intent.idempotencyKey
  | .error (.broker message) =>
    b.setOrder intent.idempotencyKey (refusedBy message) key_refusedBy
  | .error (.other _) => b

/-- The broker call of `_submit_one` and the bookkeeping of its answer. -/
def sendOrder (cfg : Settings) (a : SubmitAnswers) (intent : ValidatedOrderIntent)
    (b : OrderBook) : OrderBook :=
  match requestOf cfg a intent with
  | .error e => b.recordAnswer a intent (.error e)
  | .ok req => (b.send req).recordAnswer a intent (a.submit req)

/-- `_submit_one`. -/
def submitOne (cfg : Settings) (a : SubmitAnswers) (intent : ValidatedOrderIntent)
    (decisionId : Option String) (b : OrderBook) : OrderBook :=
  match b.passExit a intent with
  | none => b
  | some passed =>
    match passed.claimRow cfg a intent decisionId with
    | none => passed
    | some claimed => claimed.sendOrder cfg a intent

/-! ## Submitting an intent -/

/-- What `submit_intent` does to the orders, once its gates let the intent through under a client
    id. The broker's order of that id, if it has one, is taken over. -/
def submitIntent (cfg : Settings) (now : Int) (intent : OrderIntent) (key : String)
    (clientOrder : Option OrderResult) (submit : OrderRequest → Except BrokerFault OrderResult)
    (b : OrderBook) : OrderBook :=
  if b.orders.HasKey key then b
  else match clientOrder with
    | some remote => (b.handle key remote).addOrder (recoveredOrder intent key remote now)
    | none =>
      if orderedQty intent ≤ 0 then b
      else
        let b := (b.addOrder (submittingOrder cfg intent key now)).send
          (intentRequest cfg intent key)
        match submit (intentRequest cfg intent key) with
        | .ok result =>
          (b.handle key result).setOrder key (submittedOrder cfg intent result) key_submittedOrder
        | .error .timeout => b.setOrder key (unknownOrder intent) key_unknownOrder
        | .error (.broker message) => b.setOrder key (failedOrder intent message) key_failedOrder
        | .error (.other message) => b.setOrder key (failedOrder intent message) key_failedOrder

end Paths

end OrderBook

end Investor.Execution
