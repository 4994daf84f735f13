import Investor.Execution.IntentLifecycle

/-!
# The Interactive Brokers adapter

The adapter sends an order and, later, finds it again by the key it was sent for. The gateway keeps
one text with an order, its `orderRef`, and the adapter writes the first 32 characters of the key
there, to keep it short. The lookup cuts the key it is given the same way and takes the first order
with that text.

A key that fits is written whole. But only the client ids of the execution service fit. The keys of
plans, hard stops, forced closes and protective stops all begin with an identifier of 36 characters
or have one soon after, and what tells two of them apart stands behind the cut.

The gateway and the contract search are parameters: what they answer, and which orders the gateway
shows when it is asked for them. It is relied on for one thing, that it keeps an `orderRef` as it
was given.
-/

namespace Investor.Ibkr

open Lib Market Execution

/-! ## Orders at the gateway -/

structure IbOrder where
  action : String
  totalQuantity : ℚ
  orderType : String
  lmtPrice : Option ℚ
  auxPrice : Option ℚ
  tif : String
  outsideRth : Bool
  orderRef : String
  account : String

structure Contract where
  symbol : String
  exchange : String
  primaryExchange : String
  currency : String
  conId : Int

/-- `trade.orderStatus`. -/
structure IbStatus where
  orderId : Int
  permId : Option Int
  status : String
  filled : ℚ
  remaining : ℚ
  avgFillPrice : ℚ
  whyHeld : String

/-- An order at the gateway, with the request it was placed for, which the gateway does not know. -/
structure Trade where
  request : OrderRequest
  contract : Contract
  order : IbOrder
  status : IbStatus

structure IbkrSettings where
  settings : Settings
  ibkrAccount : String

/-- The best prices of `_snapshot_tape`. -/
structure Tape where
  last : Option ℚ
  bid : Option ℚ
  ask : Option ℚ

/-- A call of `submit_order`, with what the gateway and the contract search answer it. -/
structure SubmitCall where
  request : OrderRequest
  contract : Except String Contract
  tape : Tape
  /-- `_last_from_positions`. -/
  positionLast : Option ℚ
  /-- The status of the placed order after the wait, or the exception of `placeOrder`. -/
  placed : Except String IbStatus
  /-- An exception of the wait, which finds the order placed. -/
  waitRaises : Option String

section Adapter

def findByRef (trades openTrades : List Trade) (key : String) : Option Trade :=
  (trades ++ openTrades).find? fun t => t.order.orderRef = takeChars 32 key

variable [Casing]

/-! ## Building an order -/

def orderTif (timeInForce : String) : String :=
  let tif := Casing.upper (if timeInForce = "" then "day" else timeInForce)
  if tif ∈ ["GTC", "IOC", "FOK"] then tif else "DAY"

def orderTerms (r : OrderRequest) : Except String (String × Option ℚ × Option ℚ) :=
  match canonicalOrderType (some r.orderType) with
  | "market" => .ok ("MKT", none, none)
  | "limit" =>
    match r.limitPrice with
    | none => .error "ibkr_limit_requires_price"
    | some limit => .ok ("LMT", some (roundEquityPrice limit), none)
  | "stop" =>
    match r.stopPrice with
    | none => .error "ibkr_stop_requires_price"
    | some stop => .ok ("STP", none, some (roundEquityPrice stop))
  | "stop_limit" =>
    match r.stopPrice, r.limitPrice with
    | some stop, some limit =>
      .ok ("STP LMT", some (roundEquityPrice limit), some (roundEquityPrice stop))
    | _, _ => .error "ibkr_stop_limit_requires_prices"
  | other => .error s!"ibkr_unsupported_order_type:{other}"

/-- `_build_order`. An order without a key keeps the empty reference of the API. -/
def buildOrder (cfg : IbkrSettings) (r : OrderRequest) : Except String IbOrder := do
  let terms ← orderTerms r
  return { action := if Casing.lower r.side = "buy" then "BUY" else "SELL", totalQuantity := r.qty,
           orderType := terms.1, lmtPrice := terms.2.1, auxPrice := terms.2.2,
           tif := orderTif r.timeInForce, outsideRth := cfg.settings.enableExtendedHoursOrders,
           orderRef := takeChars 32 r.idempotencyKey, account := strip cfg.ibkrAccount }

/-! ## Submitting -/

/-- `uses_marketable_limit` with an exchange. -/
def usesMarketableLimitAt (venue exchange : String) : Bool :=
  usesMarketableLimit venue || ["ASX", "ASX2"].contains (Casing.upper (strip exchange))

/-- `_stamp_contract_exchange`. -/
def stampContractExchange (r : OrderRequest) (c : Contract) : Contract :=
  if strip c.exchange ≠ "" then c
  else
    let primary := strip c.primaryExchange
    let au := usesMarketableLimitAt (r.venue.getD "") primary ||
      Casing.upper (strip c.currency) = "AUD"
    { c with exchange := if primary ≠ "" then primary else if au then "ASX" else "SMART" }

def Contract.listing (c : Contract) : String :=
  if c.primaryExchange ≠ "" then c.primaryExchange else c.exchange

/-- `au_book`. -/
def isAuBook (r : OrderRequest) (c : Contract) : Bool :=
  usesMarketableLimitAt (r.venue.getD "") c.listing || Casing.upper c.currency = "AUD"

/-- `reference_price`; `none` for its `ValueError`. -/
def referencePrice (side : String) (t : Tape) : Option ℚ :=
  let ordered := if Casing.lower side = "sell" then [t.bid, t.last, t.ask]
    else [t.ask, t.last, t.bid]
  (ordered.filterMap fun px => px.filter isSaneEquityPrice).head?

/-- `apply_marketable_limit` of the adapter. -/
def marketableTerms (r : OrderRequest) (c : Contract) (t : Tape) : Except String (String × ℚ) :=
  let venue := match r.venue with
    | some v => if v = "" then "AU" else v
    | none => "AU"
  if !usesMarketableLimitAt venue c.listing then .error "not_a_marketable_limit_venue"
  else
    match referencePrice r.side t with
    | none => .error "asx_requires_reference_price"
    | some ref =>
      -- the venue is settled, and the reference is the price to lean through
      match applyMarketableLimit "AU" r.side r.orderType r.limitPrice ref false with
      | none => .error "limit rounded to zero"
      | some terms => .ok terms

def tapeOf (call : SubmitCall) : Tape :=
  if [call.tape.last, call.tape.bid, call.tape.ask].any (·.any isSaneEquityPrice) then call.tape
  else match call.positionLast with
    | some last => { call.tape with last := some last }
    | none => call.tape

/-- The request as it is built: in an Australian book everything but a resting stop becomes a
    marketable limit. -/
def shapedRequest (call : SubmitCall) (c : Contract) : Except String OrderRequest :=
  let r := call.request
  if isAuBook r c && !isRestingStop r.orderType then
    match marketableTerms r c (tapeOf call) with
    | .error e => .error s!"asx_marketable_limit_no_price:{r.symbol}:{e}"
    | .ok (orderType, limit) => .ok { r with orderType, limitPrice := some limit }
  else .ok r

/-- `submit_order` as far as `placeOrder`: the trade it places, or the text of its error. -/
def placeOrder (cfg : IbkrSettings) (call : SubmitCall) : Except String Trade := do
  let contract ← call.contract
  let contract := stampContractExchange call.request contract
  let request ← shapedRequest call contract
  let order ← buildOrder cfg request
  let status ← call.placed.mapError fun e => s!"ibkr_submit_failed:{e}"
  return { request, contract, order, status }

def placedTrades (cfg : IbkrSettings) (calls : List SubmitCall) : List Trade :=
  calls.filterMap fun call => (placeOrder cfg call).toOption

/-! ## Results, and the lookup -/

/-- `_map_status`. -/
def mapStatus (raw : String) : OrderStatus :=
  (Dict.get? [("PendingSubmit", OrderStatus.new), ("PendingCancel", .accepted),
    ("PreSubmitted", .accepted), ("Submitted", .accepted), ("ApiPending", .new),
    ("ValidationError", .rejected), ("Filled", .filled), ("PartiallyFilled", .partiallyFilled),
    ("Cancelled", .canceled), ("ApiCancelled", .canceled), ("Inactive", .canceled),
    ("Rejected", .rejected)] (strip raw)).getD .new

/-- `_trade_to_result`. -/
def tradeToResult (now : Int) (t : Trade) : OrderResult :=
  { brokerOrderId := toString ((t.status.permId.filter (· ≠ 0)).getD t.status.orderId),
    status := mapStatus t.status.status, submittedAt := now, filledQty := t.status.filled,
    avgFillPrice := if t.status.avgFillPrice = 0 then none else some t.status.avgFillPrice,
    raw := [("order_id", .num t.status.orderId),
      ("perm_id", match t.status.permId with | some id => .num id | none => .null),
      ("status", .str t.status.status), ("filled", .num t.status.filled),
      ("remaining", .num t.status.remaining),
      ("avg_fill_price", if t.status.avgFillPrice = 0 then .null else .num t.status.avgFillPrice),
      ("why_held", .str t.status.whyHeld), ("order_ref", .str t.order.orderRef),
      ("symbol", .str t.contract.symbol),
      ("side", .str (if Casing.upper t.order.action = "BUY" then "buy" else "sell")),
      ("qty", .num t.order.totalQuantity),
      ("order_type", .str (canonicalOrderType (some t.order.orderType))),
      ("limit_price", match t.order.lmtPrice.filter isSaneEquityPrice with
        | some limit => .num limit
        | none => .null)] }

/-- `get_order_by_client_id`. -/
def getOrderByClientId (now : Int) (trades openTrades : List Trade) (key : String) :
    Option OrderResult :=
  (findByRef trades openTrades key).map (tradeToResult now)

end Adapter

end Investor.Ibkr
