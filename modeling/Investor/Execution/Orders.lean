import Investor.Lib.Table
import Investor.Lib.Json

/-!
# Order rows and their statuses

The `orders` table is shared by three writers: the order manager inserts a row before
it calls the broker, the execution service does the same for approved intents, and the
reconciliation adopts orders it finds at the broker. Its `idempotency_key` is unique
(`uq_orders_idempotency_key`), which `OrderTable` carries as a field.

Internal states are written in upper case and broker adapters write lower case, so
every membership test folds first (`foldStatus`, and `func.lower` in queries).
-/

namespace Investor.Execution

open Lib

/-- `InternalOrderState`. -/
inductive InternalOrderState
  | created | validating | riskRejected | pendingApproval | approved | submitting | submitted
  | accepted | partiallyFilled | filled | cancelPending | cancelled | replacePending | replaced
  | rejected | expired | failed | unknown | reconciliationRequired
  deriving DecidableEq

def InternalOrderState.value : InternalOrderState → String
  | .created => "CREATED"
  | .validating => "VALIDATING"
  | .riskRejected => "RISK_REJECTED"
  | .pendingApproval => "PENDING_APPROVAL"
  | .approved => "APPROVED"
  | .submitting => "SUBMITTING"
  | .submitted => "SUBMITTED"
  | .accepted => "ACCEPTED"
  | .partiallyFilled => "PARTIALLY_FILLED"
  | .filled => "FILLED"
  | .cancelPending => "CANCEL_PENDING"
  | .cancelled => "CANCELLED"
  | .replacePending => "REPLACE_PENDING"
  | .replaced => "REPLACED"
  | .rejected => "REJECTED"
  | .expired => "EXPIRED"
  | .failed => "FAILED"
  | .unknown => "UNKNOWN"
  | .reconciliationRequired => "RECONCILIATION_REQUIRED"

/-- `OrderStatus`, the broker adapters' vocabulary. -/
inductive OrderStatus
  | new | accepted | filled | partiallyFilled | canceled | rejected
  deriving DecidableEq

def OrderStatus.value : OrderStatus → String
  | .new => "new"
  | .accepted => "accepted"
  | .filled => "filled"
  | .partiallyFilled => "partially_filled"
  | .canceled => "canceled"
  | .rejected => "rejected"

/-- `_internal_status`: the broker's status in the internal vocabulary. -/
def internalStatus : OrderStatus → InternalOrderState
  | .new => .accepted
  | .accepted => .accepted
  | .partiallyFilled => .partiallyFilled
  | .filled => .filled
  | .canceled => .cancelled
  | .rejected => .rejected

/-- `WORKING_ORDER_STATUSES`, folded. -/
def WORKING_ORDER_STATUSES : List String :=
  ["new", "pending_submit", "pending_new", "submitting", "submitted", "accepted",
    "partially_filled", "cancel_pending", "replace_pending"]

/-- `_DEAD_ORDER_STATUSES`, folded. -/
def DEAD_ORDER_STATUSES : List String := ["cancelled", "rejected", "expired", "canceled"]

/-- `fold_status`. -/
def foldStatus [Casing] (status : String) : String := Casing.lower (strip status)

/-- `canonical_order_type`: the folded text, or what `_BROKER_ORDER_TYPES` has for it. -/
def canonicalOrderType [Casing] (value : Option String) : String :=
  match Casing.lower (strip (value.getD "")) with
  | "" => "market"
  | "mkt" => "market"
  | "lmt" => "limit"
  | "stp" => "stop"
  | "stp lmt" => "stop_limit"
  | "stp_lmt" => "stop_limit"
  | "trail" => "trailing_stop"
  | text => text

/-- The columns of `Order` that the modelled writers fill or read. -/
structure Order where
  brokerOrderId : Option String
  idempotencyKey : String
  symbol : String
  side : String
  qty : ℚ
  orderType : String
  limitPrice : Option ℚ
  stopPrice : Option ℚ
  status : String
  decisionId : Option String
  submittedAt : Option Int
  rawPayload : Dict Json
  createdAt : Int

/-- The `orders` table, `uq_orders_idempotency_key` included. -/
abbrev OrderTable := KeyedTable Order.idempotencyKey

/-- `func.lower(Order.status).in_(WORKING_ORDER_STATUSES)`. -/
def Order.isWorking [Casing] (o : Order) : Bool :=
  WORKING_ORDER_STATUSES.contains (Casing.lower o.status)

/-- `Order.broker_order_id` where it is a non-empty text. -/
def Order.brokerId? (o : Order) : Option String :=
  match o.brokerOrderId with
  | some oid => if oid = "" then none else some oid
  | none => none

structure OrderResult where
  brokerOrderId : String
  status : OrderStatus
  submittedAt : Int
  filledQty : ℚ
  avgFillPrice : Option ℚ
  raw : Dict Json

/-- `OrderRequest`: what is sent to the broker. -/
structure OrderRequest where
  symbol : String
  side : String
  qty : ℚ
  orderType : String
  limitPrice : Option ℚ
  stopPrice : Option ℚ
  idempotencyKey : String
  timeInForce : String
  venue : Option String
  conId : Option Int

/-- The columns of `OrderIntent` that the execution service fills or reads. -/
structure OrderIntent where
  id : Nat
  decisionId : Option String
  workflowRunId : Option String
  symbol : String
  intentType : String
  side : String
  quantity : Option ℚ
  approvedQuantity : Option ℚ
  entryPrice : Option ℚ
  stopPrice : Option ℚ
  status : String
  clientOrderId : Option String
  approvalId : Option Nat
  thesis : Option String
  expiresAt : Option Int
  exitPolicy : Dict Json
  metadata : Dict Json
  updatedAt : Option Int

def OrderIntent.planKey (i : OrderIntent) : String :=
  match Dict.at i.metadata "idempotency_key_seed" with
  | .str key => key
  | _ => ""

/-- What an intent is created with and keeps: the parts of its client order ids, and the key
    of its plan. -/
structure IntentName where
  id : Nat
  decisionId : Option String
  workflowRunId : Option String
  symbol : String
  side : String
  planKey : String

def OrderIntent.name (i : OrderIntent) : IntentName :=
  { id := i.id, decisionId := i.decisionId, workflowRunId := i.workflowRunId, symbol := i.symbol,
    side := i.side, planKey := i.planKey }

structure OrderApproval where
  id : Nat
  intentId : Nat
  status : String
  actedBy : Option String
  actedAt : Option Int
  expiresAt : Option Int
  createdAt : Int

/-- The `order_intents` table. -/
abbrev IntentTable := KeyedTable OrderIntent.id

end Investor.Execution
