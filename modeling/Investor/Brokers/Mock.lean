import Investor.Lib.Rounding
import Investor.Lib.Run
import Investor.Execution.Orders
import Investor.Risk.Engine
import Investor.Universe.Allocation
import Mathlib.Data.List.ReduceOption

/-!
# The mock broker and its books

`MockBroker` is the paper broker the tests run against: cash, positions and orders in memory,
an order filled where it is submitted. `submit_order` is read in two parts: `admission` says what a
request comes to before anything is written (it raises, repeats an accepted order, rests or
fills), and `submitOrder` writes it.

Its numbers are doubles: every operation is rounded as the broker's `rounding` says. They are
finite, as is every price and quantity it is given.

The books must balance after every call. The cash column does so by arithmetic: each fill moves
it by the notional the order records. That no money and no shares are made up needs more, that
a fill is no larger than the order the checks were made for, and a partial fill is
`round(qty * fraction, 6)`, which may round *up*. And the checks themselves round: what they allow
may exceed what they say by the last digit of the sum. A run in which no fill does either, and none
sells at a negative price, keeps the books (`books_balance`); one order whose seventh decimal rounds
up is enough to overdraw the account (`rounding_overdraws`).
-/

namespace Investor.Brokers

open Lib Risk Execution Universe

/-! ## Requests, results and the state of the broker -/

/-- `OrderRequest`, less the routing hints the mock does not read. -/
structure OrderRequest where
  symbol : String
  side : Side
  qty : ℚ
  orderType : String
  limitPrice : Option ℚ := none
  stopPrice : Option ℚ := none
  idempotencyKey : Option String := none
  deriving DecidableEq

/-- `mock-{seed}-{seq}`, by its parts. -/
structure OrderId where
  seed : Int
  seq : ℕ
  deriving DecidableEq

/-- The `raw` of a result; a resting stop also records its stop price. -/
structure RawOrder where
  clientOrderId : Option String
  symbol : String
  side : Side
  qty : ℚ
  type : String
  stopPrice : Option ℚ
  deriving DecidableEq

structure OrderResult where
  brokerOrderId : OrderId
  status : OrderStatus
  submittedAt : Int
  filledQty : ℚ
  avgFillPrice : Option ℚ
  raw : RawOrder
  deriving DecidableEq

structure Position where
  symbol : String
  qty : ℚ
  avgEntryPrice : ℚ
  marketValue : ℚ
  currentPrice : ℚ
  unrealizedPl : ℚ
  side : String
  deriving DecidableEq

/-- The money columns of `account`. -/
structure Account where
  equity : ℚ
  cash : ℚ
  buyingPower : ℚ
  portfolioValue : ℚ
  deriving DecidableEq

structure Controls where
  failNext : Bool := false
  timeoutNext : Bool := false
  rateLimitNext : Bool := false
  marketOpen : Bool := true
  haltedSymbols : List String := []
  prices : Dict ℚ := []
  partialFillFraction : Option ℚ := none
  deriving DecidableEq

/-- The broker, and the arithmetic its numbers are in. -/
structure MockBroker where
  rounding : Rounding
  seed : Int
  orders : List OrderResult
  positions : Dict Position
  account : Account
  seq : ℕ
  allowShort : Bool
  fractionable : Bool
  controls : Controls

/-- A `TimeoutError`, or a `BrokerError` with its text. -/
inductive MockError
  | timeout
  | broker (message : String)
  deriving DecidableEq

namespace MockBroker

/-- `MockBroker(seed=…, starting_cash=…, fractionable=…)`, short selling off. -/
def start (rounding : Rounding) (seed : Int) (startingCash : ℚ) (fractionable : Bool)
    (controls : Controls) : MockBroker :=
  let cash := rounding.fl startingCash
  { rounding, seed, orders := [], positions := [], account := ⟨cash, cash, cash, cash⟩, seq := 0,
    allowShort := false, fractionable, controls }

/-- The float of a number. -/
def fl (b : MockBroker) (x : ℚ) : ℚ := b.rounding.fl x

/-! ## Submitting -/

/-- `_price` with a fallback, which both callers pass. -/
def price (b : MockBroker) (symbol : String) (fallback : ℚ) : ℚ :=
  (Dict.get? b.controls.prices symbol).getD fallback

/-- `int(q)`: towards zero. -/
def truncate (q : ℚ) : Int := if 0 ≤ q then ⌊q⌋ else ⌈q⌉

/-- `raw.get("client_order_id") == request.idempotency_key`, for a key that is not empty. -/
def acceptedUnder (b : MockBroker) (key : Option String) : Option OrderResult :=
  (key.filter (· ≠ "")).bind fun k => b.orders.find? fun o => o.raw.clientOrderId = some k

def heldQty (b : MockBroker) (symbol : String) : ℚ :=
  ((Dict.get? b.positions symbol).map (·.qty)).getD 0

section Submission

section

variable [Casing]

/-- An order of a stop type that its stop price does not trigger. -/
def rests (b : MockBroker) (r : OrderRequest) : Bool :=
  let otype := Casing.lower (if r.orderType = "" then "market" else r.orderType)
  let last := b.price (Casing.upper r.symbol) ((r.limitPrice.filter (· ≠ 0)).getD 100)
  let stop := r.stopPrice.getD 0
  let triggered := 0 < stop ∧ (if r.side = .sell then last ≤ stop else stop ≤ last)
  otype ∈ ["stop", "stp", "stop_limit"] ∧ ¬ triggered

def fillPrice (b : MockBroker) (r : OrderRequest) : ℚ :=
  let base := (r.limitPrice.filter (· ≠ 0)).getD (b.price (Casing.upper r.symbol) 100)
  let slip := b.fl (base * b.fl (1 / 10000))
  b.fl (if r.side = .buy then base + slip else base - slip)

def fillQty (b : MockBroker) (r : OrderRequest) : ℚ :=
  match b.controls.partialFillFraction with
  | none => r.qty
  | some fraction => b.fl (roundTo 6 (b.fl (r.qty * fraction)))

def fillStatus (b : MockBroker) (r : OrderRequest) : OrderStatus :=
  match b.controls.partialFillFraction with
  | none => .filled
  | some _ => if b.fillQty r < r.qty then .partiallyFilled else .filled

def outage (b : MockBroker) (r : OrderRequest) : Option MockError :=
  if b.controls.timeoutNext then some .timeout
  else if b.controls.rateLimitNext then some (.broker "429 rate limited")
  else if b.controls.failNext then some (.broker "simulated broker failure")
  else if !b.controls.marketOpen then some (.broker "market_closed")
  else if Casing.upper r.symbol ∈ b.controls.haltedSymbols then some (.broker "trading_halt")
  else none

def refusal (b : MockBroker) (r : OrderRequest) : Option MockError :=
  if r.side = .sell ∧ b.allowShort = false ∧
      b.fl (b.heldQty (Casing.upper r.symbol) + b.fl (1 / 1000000000)) < r.qty then
    some (.broker "shorting_not_allowed")
  else if r.side = .buy ∧
      b.fl (b.account.cash + b.fl (1 / 1000000)) < b.fl (r.qty * b.fillPrice r) then
    some (.broker "insufficient_buying_power")
  else if b.fractionable = false ∧ b.fl (1 / 1000000000) < |b.fl (r.qty - truncate r.qty)| then
    some (.broker "fractional_shares_unsupported")
  else none

/-- What a request comes to, before anything is written. -/
inductive Admission
  | raises (e : MockError)
  | repeats (existing : OrderResult)
  | rests
  | fills
  deriving DecidableEq

def admission (b : MockBroker) (r : OrderRequest) : Admission :=
  match b.outage r, b.acceptedUnder r.idempotencyKey with
  | some e, _ => .raises e
  | none, some existing => .repeats existing
  | none, none =>
    if b.rests r then .rests
    else
      match b.refusal r with
      | some e => .raises e
      | none => .fills

def clearInjection (b : MockBroker) : MockBroker :=
  if b.controls.timeoutNext then { b with controls := { b.controls with timeoutNext := false } }
  else if b.controls.rateLimitNext then
    { b with controls := { b.controls with rateLimitNext := false } }
  else if b.controls.failNext then { b with controls := { b.controls with failNext := false } }
  else b

/-- `self.orders[oid] = result`, under the next id. -/
def record (b : MockBroker) (result : OrderResult) : MockBroker :=
  { b with seq := b.seq + 1, orders := putRow (·.brokerOrderId) result b.orders }

def nextId (b : MockBroker) : OrderId := ⟨b.seed, b.seq + 1⟩

def restingResult (b : MockBroker) (r : OrderRequest) (now : Int) : OrderResult :=
  { brokerOrderId := b.nextId, status := .accepted, submittedAt := now, filledQty := 0,
    avgFillPrice := none,
    raw := ⟨r.idempotencyKey, Casing.upper r.symbol, r.side, r.qty, r.orderType, r.stopPrice⟩ }

def filledResult (b : MockBroker) (r : OrderRequest) (now : Int) : OrderResult :=
  { brokerOrderId := b.nextId, status := b.fillStatus r, submittedAt := now,
    filledQty := b.fillQty r, avgFillPrice := some (b.fillPrice r),
    raw := ⟨r.idempotencyKey, Casing.upper r.symbol, r.side, r.qty, r.orderType, none⟩ }

def filledPosition (b : MockBroker) (sym : String) (side : Side) (qty price : ℚ) : Position :=
  let held := Dict.get? b.positions sym
  let cur := (held.map (·.qty)).getD 0
  let avg := (held.map (·.avgEntryPrice)).getD 0
  let next := b.fl (if side = .buy then cur + qty else cur - qty)
  { symbol := sym, qty := next,
    avgEntryPrice :=
      if side = .buy ∧ next ≠ 0 then
        b.fl (b.fl (b.fl (|cur| * avg) + b.fl (qty * price)) / |next|)
      else avg,
    marketValue := b.fl (next * price), currentPrice := price, unrealizedPl := 0,
    side := if 0 ≤ next then "long" else "short" }

/-- `_apply_fill`: a position of less than `1e-9` is dropped. -/
def applyFill (b : MockBroker) (sym : String) (side : Side) (qty price : ℚ) : MockBroker :=
  let pos := b.filledPosition sym side qty price
  let positions :=
    if |pos.qty| < b.fl (1 / 1000000000) then Dict.erase b.positions sym
    else Dict.set b.positions sym pos
  let delta := b.fl (qty * price)
  let cash := b.fl (if side = .buy then b.account.cash - delta else b.account.cash + delta)
  let equity := b.fl (cash + b.rounding.sum (positions.map (·.2.marketValue)))
  { b with positions, account := ⟨equity, cash, cash, equity⟩ }

def submitOrder (b : MockBroker) (r : OrderRequest) (now : Int) :
    Except MockError OrderResult × MockBroker :=
  match b.admission r with
  | .raises e => (.error e, b.clearInjection)
  | .repeats existing => (.ok existing, b)
  | .rests => (.ok (b.restingResult r now), b.record (b.restingResult r now))
  | .fills =>
    (.ok (b.filledResult r now),
      (b.record (b.filledResult r now)).applyFill (Casing.upper r.symbol) r.side (b.fillQty r)
        (b.fillPrice r))

/-! ## Cancelling and closing -/

def cancelOrder (b : MockBroker) (orderId : OrderId) : Except MockError OrderResult × MockBroker :=
  match b.orders.find? fun o => o.brokerOrderId = orderId with
  | none => (.error (.broker "order not found"), b)
  | some order =>
    if order.status ∈ [.filled, .canceled, .rejected] then (.ok order, b)
    else
      let canceled := { order with brokerOrderId := orderId, status := .canceled }
      (.ok canceled, { b with orders := putRow (·.brokerOrderId) canceled b.orders })

/-- The market order that `close_position` submits, under a fresh key. -/
def closingRequest (b : MockBroker) (symbol : String) (qty : Option ℚ) (uuid : String) :
    Option OrderRequest :=
  let sym := Casing.upper symbol
  (Dict.get? b.positions sym).map fun (pos : Position) =>
    { symbol := sym
      side := if 0 < pos.qty then .sell else .buy
      qty := qty.elim |pos.qty| (min |pos.qty|)
      orderType := "market"
      idempotencyKey := some s!"close-{sym}-{uuid}" }

/-- The calls of the broker's clients, and the settings a test makes between them. -/
inductive Call
  | submitOrder (request : OrderRequest) (now : Int)
  | cancelOrder (orderId : OrderId)
  | closePosition (symbol : String) (qty : Option ℚ) (uuid : String) (now : Int)
  | configure (controls : Controls)

def answer (b : MockBroker) : Call → Except MockError (Option OrderResult) × MockBroker
  | .submitOrder request now => (b.submitOrder request now).map (·.map some) id
  | .cancelOrder orderId => (b.cancelOrder orderId).map (·.map some) id
  | .closePosition symbol qty uuid now =>
    match b.closingRequest symbol qty uuid with
    | none => (.ok none, b)
    | some request => (b.submitOrder request now).map (·.map some) id
  | .configure controls => (.ok none, { b with controls })

def step (b : MockBroker) (c : Call) : MockBroker := (b.answer c).2

/-! ## What one call can do -/

def requestOf (b : MockBroker) : Call → Option OrderRequest
  | .submitOrder request _ => some request
  | .closePosition symbol qty uuid _ => b.closingRequest symbol qty uuid
  | .cancelOrder _ => none
  | .configure _ => none

def afterFill (b : MockBroker) (r : OrderRequest) (now : Int) : MockBroker :=
  (b.record (b.filledResult r now)).applyFill (Casing.upper r.symbol) r.side (b.fillQty r)
    (b.fillPrice r)

def afterCancel (b : MockBroker) (order : OrderResult) : MockBroker :=
  { b with orders := putRow (·.brokerOrderId) { order with status := .canceled } b.orders }

/-- **What one call does to the broker**: it touches no more than the controls, it rests or
    fills the request it submits, or it cancels an order that is there. -/
inductive Moves (b : MockBroker) (c : Call) : MockBroker → Prop
  | untouched (controls : Controls)
      (fraction : controls.partialFillFraction = b.controls.partialFillFraction ∨
        c = .configure controls) : Moves b c { b with controls }
  | rested (r : OrderRequest) (now : Int) : Moves b c (b.record (b.restingResult r now))
  | filled (r : OrderRequest) (now : Int) (request : b.requestOf c = some r)
      (admitted : b.admission r = .fills) : Moves b c (b.afterFill r now)
  | canceled (order : OrderResult)
      (found : b.orders.find? (fun o => o.brokerOrderId = order.brokerOrderId) = some order) :
      Moves b c (b.afterCancel order)

end

theorem clearInjection_untouched (b : MockBroker) :
    ∃ controls : Controls, controls.partialFillFraction = b.controls.partialFillFraction ∧
      b.clearInjection = { b with controls } := by
  unfold clearInjection
  split
  · exact ⟨{ b.controls with timeoutNext := false }, rfl, rfl⟩
  · split
    · exact ⟨{ b.controls with rateLimitNext := false }, rfl, rfl⟩
    · split
      · exact ⟨{ b.controls with failNext := false }, rfl, rfl⟩
      · exact ⟨b.controls, rfl, rfl⟩

section

variable [Casing]

theorem submitOrder_moves {b : MockBroker} {c : Call} {r : OrderRequest} (now : Int)
    (hrequest : b.requestOf c = some r) : Moves b c (b.submitOrder r now).2 := by
  unfold submitOrder
  cases hfilled : b.admission r with
  | raises e =>
    obtain ⟨controls, hfraction, hclear⟩ := clearInjection_untouched b
    simp only [hclear]
    exact .untouched controls (Or.inl hfraction)
  | repeats existing => exact .untouched b.controls (Or.inl rfl)
  | rests => exact .rested r now
  | fills => exact .filled r now hrequest hfilled

theorem step_moves (b : MockBroker) (c : Call) : Moves b c (b.step c) := by
  cases c with
  | submitOrder request now => exact submitOrder_moves now rfl
  | configure controls => exact .untouched controls (Or.inr rfl)
  | closePosition symbol qty uuid now =>
    cases hrequest : b.closingRequest symbol qty uuid with
    | none =>
      simp only [step, answer, hrequest]
      exact .untouched b.controls (Or.inl rfl)
    | some request =>
      simp only [step, answer, hrequest]
      exact submitOrder_moves now hrequest
  | cancelOrder orderId =>
    show Moves b _ (b.cancelOrder orderId).2
    unfold cancelOrder
    cases hfound : b.orders.find? fun o => o.brokerOrderId = orderId with
    | none => exact .untouched b.controls (Or.inl rfl)
    | some order =>
      have hid : order.brokerOrderId = orderId := by simpa using List.find?_some hfound
      subst hid
      simp only
      split
      · exact .untouched b.controls (Or.inl rfl)
      · exact .canceled order hfound

/-! ## The books -/

def notional (side : Side) (o : OrderResult) : ℚ :=
  if o.raw.side = side then o.filledQty * o.avgFillPrice.getD 0 else 0

def filledNotional (b : MockBroker) (side : Side) : ℚ := (b.orders.map (notional side)).sum

/-- What an order that has filled did to the cash. -/
def cashflow (o : OrderResult) : Option ℚ :=
  o.avgFillPrice.map fun price =>
    if o.raw.side = .buy then -(o.filledQty * price) else o.filledQty * price

def cashflows (b : MockBroker) : List ℚ := (b.orders.map cashflow).reduceOption

/-- **The books balance**: the cash is what the fills leave of the starting cash, one after the
    other, and so the starting cash less what was bought and with what was sold but for what the
    additions round; the equity is cash and positions; and neither money nor shares are made up. -/
structure Balanced (startingCash : ℚ) (b : MockBroker) : Prop where
  cash : b.account.cash = b.rounding.runningSum startingCash b.cashflows
  near : |b.account.cash - (startingCash - b.filledNotional .buy + b.filledNotional .sell)| ≤
    b.rounding.unit * b.rounding.turnover startingCash b.cashflows
  equity : b.account.equity =
    b.fl (b.account.cash + b.rounding.sum (b.positions.map (·.2.marketValue)))
  solvent : -b.fl (1 / 1000000) ≤ b.account.cash
  long : ∀ e ∈ b.positions, -b.fl (1 / 1000000000) ≤ e.2.qty

def SameBooks (b b' : MockBroker) : Prop :=
  b'.account.cash = b.account.cash ∧ b'.positions = b.positions ∧ b'.orders = b.orders

/-- **A call that changes no books**, if it raises or repeats an accepted key. -/
structure Inert (b : MockBroker) (c : Call) : Prop where
  raised : ∀ e, (b.answer c).1 = .error e → SameBooks b (b.step c)
  repeated : ∀ request now key, c = .submitOrder request now → key ≠ "" →
    request.idempotencyKey = some key → (∃ o ∈ b.orders, o.raw.clientOrderId = some key) →
    SameBooks b (b.step c)

/-- The claim on the broker's clients: quantities are positive, fractions in `[0, 1]`. -/
def WellFormed : Call → Prop
  | .submitOrder request _ => 0 < request.qty
  | .cancelOrder _ => True
  | .closePosition _ qty _ _ => ∀ q ∈ qty, 0 < q
  | .configure controls => ∀ f ∈ controls.partialFillFraction, 0 ≤ f ∧ f ≤ 1

instance : DecidablePred WellFormed
  | .submitOrder request _ => inferInstanceAs (Decidable (0 < request.qty))
  | .cancelOrder _ => .isTrue trivial
  | .closePosition _ qty _ _ => inferInstanceAs (Decidable (∀ q ∈ qty, 0 < q))
  | .configure controls =>
    inferInstanceAs (Decidable (∀ f ∈ controls.partialFillFraction, 0 ≤ f ∧ f ≤ 1))

/-- What a sum rounds up to covers, and the sum does not. -/
def RoundedIn (b : MockBroker) (sum x : ℚ) : Prop := sum < x ∧ x ≤ b.fl sum

instance (b : MockBroker) (sum x : ℚ) : Decidable (RoundedIn b sum x) :=
  inferInstanceAs (Decidable (_ ∧ _))

/-- A check that only the rounding of its sum lets a request pass. -/
def Slips (b : MockBroker) (r : OrderRequest) : Prop :=
  r.side = .sell ∧ b.RoundedIn (b.heldQty (Casing.upper r.symbol) + b.fl (1 / 1000000000)) r.qty ∨
  r.side = .buy ∧ b.RoundedIn (b.account.cash + b.fl (1 / 1000000)) (b.fl (r.qty * b.fillPrice r))

instance (b : MockBroker) (r : OrderRequest) : Decidable (Slips b r) :=
  inferInstanceAs (Decidable (_ ∨ _))

/-- **A fill that goes wrong**: more is filled than was asked for or than the checks allow, or a
    sale costs money. -/
def Misfills (b : MockBroker) (r : OrderRequest) : Prop :=
  b.admission r = .fills ∧
    (r.qty < b.fillQty r ∨ r.side = .sell ∧ b.fillPrice r < 0 ∨ b.Slips r)

instance (b : MockBroker) (r : OrderRequest) : Decidable (Misfills b r) :=
  inferInstanceAs (Decidable (_ ∧ _))

def FillsWell (b : MockBroker) (c : Call) : Prop :=
  WellFormed c ∧ ∀ r ∈ b.requestOf c, ¬ Misfills b r

instance (b : MockBroker) (c : Call) : Decidable (FillsWell b c) :=
  inferInstanceAs (Decidable (_ ∧ _))

end

/-- The balance, with what a step needs to keep it: ids are handed out in order, short selling
    is off, and the fraction is one. -/
structure Sound (startingCash : ℚ) (b : MockBroker) : Prop where
  cash : b.account.cash = b.rounding.runningSum startingCash b.cashflows
  equity : b.account.equity =
    b.fl (b.account.cash + b.rounding.sum (b.positions.map (·.2.marketValue)))
  solvent : -b.fl (1 / 1000000) ≤ b.account.cash
  long : ∀ e ∈ b.positions, -b.fl (1 / 1000000000) ≤ e.2.qty
  ids : ∀ o ∈ b.orders, o.brokerOrderId.seq ≤ b.seq
  noShort : b.allowShort = false
  fraction : ∀ f ∈ b.controls.partialFillFraction, 0 ≤ f ∧ f ≤ 1

section Books

variable {startingCash : ℚ} {b : MockBroker} {c : Call} {r : OrderRequest} {now : Int}

theorem record_orders {result : OrderResult} (hid : result.brokerOrderId = b.nextId)
    (hids : ∀ o ∈ b.orders, o.brokerOrderId.seq ≤ b.seq) :
    (b.record result).orders = b.orders ++ [result] := by
  refine putRow_of_fresh fun o ho hkey => ?_
  have hle := hids o ho
  rw [hkey, hid] at hle
  exact Nat.not_succ_le_self b.seq hle

theorem cashflows_record {result : OrderResult} (hid : result.brokerOrderId = b.nextId)
    (hids : ∀ o ∈ b.orders, o.brokerOrderId.seq ≤ b.seq) :
    (b.record result).cashflows = b.cashflows ++ (cashflow result).toList := by
  unfold cashflows
  rw [record_orders hid hids, List.map_append, List.reduceOption_append]
  cases hflow : cashflow result <;> simp [hflow]

/-- What the cashflows come to is what was sold less what was bought. -/
theorem sum_cashflows (b : MockBroker) :
    b.cashflows.sum = b.filledNotional .sell - b.filledNotional .buy := by
  unfold cashflows filledNotional
  induction b.orders with
  | nil => simp
  | cons o os ih =>
    rw [List.map_cons, List.map_cons, List.map_cons, List.sum_cons, List.sum_cons]
    cases hprice : o.avgFillPrice with
    | none =>
      rw [cashflow, hprice, Option.map_none, List.reduceOption_cons_of_none, ih]
      simp [notional, hprice]
    | some price =>
      rw [cashflow, hprice, Option.map_some, List.reduceOption_cons_of_some, List.sum_cons, ih]
      cases hside : o.raw.side <;> simp [notional, hprice, hside] <;> ring

theorem Sound.balanced (h : Sound startingCash b) : Balanced startingCash b where
  cash := h.cash
  near := by
    have hnear := b.rounding.runningSum_near startingCash b.cashflows
    rw [← h.cash, sum_cashflows] at hnear
    convert hnear using 2
    ring
  equity := h.equity
  solvent := h.solvent
  long := h.long

theorem ids_record (result : OrderResult) (hid : result.brokerOrderId = b.nextId)
    (hids : ∀ o ∈ b.orders, o.brokerOrderId.seq ≤ b.seq) :
    ∀ o ∈ (b.record result).orders, o.brokerOrderId.seq ≤ (b.record result).seq := by
  intro o ho
  rw [record_orders hid hids] at ho
  rcases List.mem_append.mp ho with ho | ho
  · exact (hids o ho).trans (Nat.le_succ b.seq)
  · rw [List.mem_singleton.mp ho, hid]
    exact Nat.le_refl _

theorem cashflows_afterCancel {order : OrderResult}
    (hfound : b.orders.find? (fun o => o.brokerOrderId = order.brokerOrderId) = some order) :
    (b.afterCancel order).cashflows = b.cashflows :=
  congrArg List.reduceOption (map_putRow_of_find hfound rfl)

/-! ### One fill -/

theorem fillQty_nonneg (h : Sound startingCash b) (hqty : 0 ≤ r.qty) : 0 ≤ b.fillQty r := by
  unfold fillQty
  cases hfraction : b.controls.partialFillFraction with
  | none => exact hqty
  | some f =>
    have hpart := b.rounding.fl_nonneg (mul_nonneg hqty (h.fraction f hfraction).1)
    exact b.rounding.fl_nonneg (roundTo_nonneg 6 hpart)

theorem heldQty_ge (h : Sound startingCash b) (sym : String) :
    -b.fl (1 / 1000000000) ≤ b.heldQty sym := by
  unfold heldQty
  cases hheld : Dict.get? b.positions sym with
  | none => exact neg_nonpos.mpr (b.rounding.fl_nonneg (by norm_num))
  | some pos => exact h.long _ (Dict.mem_of_get? hheld)

section

variable [Casing]

theorem refusal_of_admission (h : b.admission r = .fills) : b.refusal r = none := by
  unfold admission at h
  cases houtage : b.outage r with
  | some e => simp [houtage] at h
  | none =>
    cases haccepted : b.acceptedUnder r.idempotencyKey with
    | some existing => simp [houtage, haccepted] at h
    | none =>
      cases hrefusal : b.refusal r with
      | some e =>
        simp only [houtage, haccepted, hrefusal] at h
        split at h <;> cases h
      | none => rfl

/-- What the checks let pass is covered, if it does not slip through them. -/
theorem covered_of_refusal (h : b.refusal r = none) (hslips : ¬ b.Slips r) :
    (r.side = .sell → b.allowShort = false →
      r.qty ≤ b.heldQty (Casing.upper r.symbol) + b.fl (1 / 1000000000)) ∧
    (r.side = .buy → b.fl (r.qty * b.fillPrice r) ≤ b.account.cash + b.fl (1 / 1000000)) := by
  unfold refusal at h
  split_ifs at h with hshort hcash
  refine ⟨fun hsell hoff => not_lt.mp fun hlt => hslips (.inl ⟨hsell, hlt, ?_⟩),
    fun hbuy => not_lt.mp fun hlt => hslips (.inr ⟨hbuy, hlt, ?_⟩)⟩
  · exact not_lt.mp fun hover => hshort ⟨hsell, hoff, hover⟩
  · exact not_lt.mp fun hover => hcash ⟨hbuy, hover⟩

theorem afterFill_cash : (b.afterFill r now).account.cash =
    b.fl (if r.side = .buy then b.account.cash - b.fl (b.fillQty r * b.fillPrice r)
      else b.account.cash + b.fl (b.fillQty r * b.fillPrice r)) := rfl

theorem cashflows_afterFill (h : Sound startingCash b) :
    (b.afterFill r now).cashflows = b.cashflows ++
      [if r.side = .buy then -(b.fillQty r * b.fillPrice r) else b.fillQty r * b.fillPrice r] :=
  @cashflows_record b (b.filledResult r now) rfl h.ids

theorem mem_afterFill_positions {e : String × Position}
    (he : e ∈ (b.afterFill r now).positions) :
    e ∈ b.positions ∨
      e.2 = b.filledPosition (Casing.upper r.symbol) r.side (b.fillQty r) (b.fillPrice r) := by
  unfold afterFill applyFill at he
  simp only at he
  split at he
  · exact Or.inl (List.mem_of_mem_filter he)
  · exact (Dict.mem_set he).imp_right fun h => by rw [h]; rfl

theorem afterFill_solvent (h : Sound startingCash b) (hqty : 0 ≤ r.qty)
    (hfilled : b.admission r = .fills) (hfills : ¬ Misfills b r) :
    -b.fl (1 / 1000000) ≤ (b.afterFill r now).account.cash := by
  have hnonneg := fillQty_nonneg h hqty
  have hcovered := covered_of_refusal (refusal_of_admission hfilled)
    fun hslips => hfills ⟨hfilled, .inr (.inr hslips)⟩
  have hsolvent := h.solvent
  have hwithin : b.fillQty r ≤ r.qty := not_lt.mp fun hlt => hfills ⟨hfilled, .inl hlt⟩
  rw [afterFill_cash]
  refine b.rounding.neg_fl_le ?_
  change -b.fl (1 / 1000000) ≤ _
  cases hside : r.side with
  | buy =>
    rw [if_pos rfl]
    rcases le_total 0 (b.fillPrice r) with hprice | hprice
    · have hpay := hcovered.2 hside
      have hless := b.rounding.mono _ _ (mul_le_mul_of_nonneg_right hwithin hprice)
      unfold fl at hpay ⊢
      linarith
    · have hgain := b.rounding.mono _ _ (mul_nonpos_of_nonneg_of_nonpos hnonneg hprice)
      rw [b.rounding.fl_zero] at hgain
      unfold fl at hsolvent ⊢
      linarith
  | sell =>
    rw [if_neg (by decide)]
    have hprice : 0 ≤ b.fillPrice r :=
      not_lt.mp fun hlt => hfills ⟨hfilled, .inr (.inl ⟨hside, hlt⟩)⟩
    have hgain := b.rounding.fl_nonneg (mul_nonneg hnonneg hprice)
    unfold fl at hsolvent ⊢
    linarith

theorem afterFill_long (h : Sound startingCash b) (hqty : 0 ≤ r.qty)
    (hfilled : b.admission r = .fills) (hfills : ¬ Misfills b r) :
    ∀ e ∈ (b.afterFill r now).positions, -b.fl (1 / 1000000000) ≤ e.2.qty := by
  have hnonneg := fillQty_nonneg h hqty
  have hcovered := covered_of_refusal (refusal_of_admission hfilled)
    fun hslips => hfills ⟨hfilled, .inr (.inr hslips)⟩
  have hheld := heldQty_ge h (Casing.upper r.symbol)
  have hwithin : b.fillQty r ≤ r.qty := not_lt.mp fun hlt => hfills ⟨hfilled, .inl hlt⟩
  intro e he
  rcases mem_afterFill_positions he with he | he
  · exact h.long e he
  · rw [he]
    refine b.rounding.neg_fl_le ?_
    change _ ≤ if r.side = .buy then b.heldQty (Casing.upper r.symbol) + b.fillQty r
      else b.heldQty (Casing.upper r.symbol) - b.fillQty r
    cases hside : r.side with
    | buy =>
      rw [if_pos rfl]
      exact hheld.trans (le_add_of_nonneg_right hnonneg)
    | sell =>
      rw [if_neg (by decide)]
      have hsell := hcovered.1 hside h.noShort
      unfold fl at hsell
      linarith

theorem sound_afterFill (h : Sound startingCash b) (hqty : 0 ≤ r.qty)
    (hfilled : b.admission r = .fills) (hfills : ¬ Misfills b r) :
    Sound startingCash (b.afterFill r now) where
  cash := by
    rw [cashflows_afterFill h, afterFill_cash, h.cash]
    show _ = b.rounding.runningSum startingCash (b.cashflows ++ [_])
    rw [b.rounding.runningSum_concat]
    -- taking a notional away is adding it with its sign turned
    cases r.side with
    | buy => simp [fl, b.rounding.neg, sub_eq_add_neg]
    | sell => rfl
  equity := rfl
  solvent := afterFill_solvent h hqty hfilled hfills
  long := afterFill_long h hqty hfilled hfills
  ids := ids_record (b.filledResult r now) rfl h.ids
  noShort := h.noShort
  fraction := h.fraction

/-! ### One call, and every run -/

theorem qty_nonneg_of_request (hc : WellFormed c) (hrequest : b.requestOf c = some r) :
    0 ≤ r.qty := by
  cases c with
  | submitOrder request now =>
    obtain rfl : request = r := Option.some.inj hrequest
    exact le_of_lt hc
  | cancelOrder orderId => cases hrequest
  | configure controls => cases hrequest
  | closePosition symbol qty uuid now =>
    obtain ⟨pos, -, rfl⟩ := Option.map_eq_some_iff.mp hrequest
    cases qty with
    | none => exact abs_nonneg pos.qty
    | some q => exact le_min (abs_nonneg pos.qty) (le_of_lt (hc q rfl))

/-- A call that fills well keeps the books sound. -/
theorem sound_step (h : Sound startingCash b) (hc : FillsWell b c) :
    Sound startingCash (b.step c) := by
  have hmoves := step_moves b c
  generalize b.step c = b' at hmoves
  cases hmoves with
  | untouched controls hcontrols =>
    refine { cash := h.cash, equity := h.equity, solvent := h.solvent, long := h.long,
             ids := h.ids, noShort := h.noShort, fraction := ?_ }
    rcases hcontrols with hsame | rfl
    · rw [hsame]
      exact h.fraction
    · exact hc.1
  | rested r now =>
    refine { equity := h.equity, solvent := h.solvent, long := h.long, cash := ?_,
             ids := ids_record _ rfl h.ids, noShort := h.noShort, fraction := h.fraction }
    rw [cashflows_record rfl h.ids, show cashflow (b.restingResult r now) = none from rfl,
      Option.toList_none, List.append_nil]
    exact h.cash
  | filled r now hrequest hfilled =>
    exact sound_afterFill h (qty_nonneg_of_request hc.1 hrequest) hfilled (hc.2 r hrequest)
  | canceled order hfound =>
    refine { equity := h.equity, solvent := h.solvent, long := h.long, cash := ?_, ids := ?_,
             noShort := h.noShort, fraction := h.fraction }
    · rw [cashflows_afterCancel hfound]
      exact h.cash
    · intro o ho
      rcases mem_putRow ho with ho | rfl
      · exact h.ids o ho
      · exact h.ids order (List.mem_of_find?_eq_some hfound)

end

theorem sameBooks_refl (b : MockBroker) (controls : Controls) :
    SameBooks b { b with controls } := ⟨rfl, rfl, rfl⟩

theorem error_of_map {α β : Type} {f : α → β} {x : Except MockError α} {e : MockError}
    (h : x.map f = .error e) : x = .error e := by
  cases x with
  | error e' => simpa only [Except.map, Except.error.injEq] using h
  | ok a => cases h

theorem submitOrder_raised [Casing] {e : MockError} (h : (b.submitOrder r now).1 = .error e) :
    SameBooks b (b.submitOrder r now).2 := by
  unfold submitOrder at h ⊢
  cases hfilled : b.admission r with
  | raises e' =>
    obtain ⟨controls, -, hclear⟩ := clearInjection_untouched b
    simp only [hclear]
    exact sameBooks_refl b controls
  | repeats existing => exact sameBooks_refl b b.controls
  | rests => simp [hfilled] at h
  | fills => simp [hfilled] at h

theorem cancelOrder_raised {orderId : OrderId} {e : MockError}
    (h : (b.cancelOrder orderId).1 = .error e) : SameBooks b (b.cancelOrder orderId).2 := by
  unfold cancelOrder at h ⊢
  cases hfound : b.orders.find? fun o => o.brokerOrderId = orderId with
  | none => exact sameBooks_refl b b.controls
  | some order =>
    simp only [hfound] at h
    split at h <;> cases h

theorem submitOrder_repeated [Casing] {key : String} (hne : key ≠ "") (hkey : r.idempotencyKey = some key)
    (haccepted : ∃ o ∈ b.orders, o.raw.clientOrderId = some key) :
    SameBooks b (b.submitOrder r now).2 := by
  obtain ⟨existing, hexisting⟩ : ∃ existing, b.acceptedUnder r.idempotencyKey = some existing := by
    obtain ⟨o, ho, hid⟩ := haccepted
    rw [← Option.isSome_iff_exists]
    simp only [acceptedUnder, hkey, Option.filter_some, hne, ne_eq, not_false_eq_true,
      decide_true, if_true, Option.bind_some, List.find?_isSome]
    exact ⟨o, ho, by simpa using hid⟩
  unfold submitOrder admission
  cases houtage : b.outage r with
  | some e =>
    obtain ⟨controls, -, hclear⟩ := clearInjection_untouched b
    simp only [hclear]
    exact sameBooks_refl b controls
  | none =>
    simp only [hexisting]
    exact sameBooks_refl b b.controls

theorem inert [Casing] (b : MockBroker) (c : Call) : Inert b c where
  raised e he := by
    cases c with
    | configure controls => exact sameBooks_refl b controls
    | submitOrder request now =>
      exact submitOrder_raised (error_of_map he)
    | cancelOrder orderId =>
      exact cancelOrder_raised (error_of_map he)
    | closePosition symbol qty uuid now =>
      cases hrequest : b.closingRequest symbol qty uuid with
      | none =>
        simp only [step, answer, hrequest]
        exact sameBooks_refl b b.controls
      | some request =>
        simp only [step, answer, hrequest] at he ⊢
        exact submitOrder_raised (error_of_map he)
  repeated request now key hc hne hkey haccepted := by
    subst hc
    exact submitOrder_repeated hne hkey haccepted

end Books

/-- **The books balance in every state a run reaches**, and no call that raises or repeats an
    accepted key changes them, if the run's fills go well: whatever the arithmetic rounds. -/
theorem books_balance [Casing] {rounding : Rounding} {seed : Int} {startingCash : ℚ}
    {fractionable : Bool} {controls : Controls} {calls : List Call} (hcash : 0 ≤ startingCash)
    (hcontrols : WellFormed (.configure controls))
    (hcalls : StepsMeet step FillsWell (start rounding seed startingCash fractionable controls)
      calls) :
    Balanced (rounding.fl startingCash)
        (runFrom step (start rounding seed startingCash fractionable controls) calls) ∧
      ∀ c, Inert (runFrom step (start rounding seed startingCash fractionable controls) calls) c := by
  have hnonneg := rounding.fl_nonneg hcash
  have htiny : 0 ≤ rounding.fl (1 / 1000000) := rounding.fl_nonneg (by norm_num)
  have hstart : Sound (rounding.fl startingCash)
      (start rounding seed startingCash fractionable controls) :=
    { cash := rfl
      equity := by simp [start, fl, rounding.idem]
      solvent := (neg_nonpos.mpr htiny).trans hnonneg
      long := fun e he => by cases he
      ids := fun o ho => by cases ho
      noShort := rfl
      fraction := hcontrols }
  have hend : Sound (rounding.fl startingCash)
      (runFrom step (start rounding seed startingCash fractionable controls) calls) :=
    run_invariant_of_meets (fun _ _ => sound_step) hstart hcalls
  exact ⟨hend.balanced, inert _⟩

end Submission

section Samples

attribute [local instance] asciiCasing

def limitBuy (qty price : ℚ) : Call :=
  .submitOrder { symbol := "AAPL", side := .buy, qty, orderType := "limit",
                 limitPrice := some price, idempotencyKey := some "k1" } 0

theorem books_balance_half_closed :
    (0 : ℚ) ≤ 25000 ∧
    WellFormed (.configure { partialFillFraction := some (1 / 2) }) ∧
    StepsMeet step FillsWell (start .double 42 25000 true { partialFillFraction := some (1 / 2) })
      [limitBuy 10 100, .closePosition "aapl" (some 3) "u1" 1] ∧
    Balanced (Rounding.double.fl 25000)
      (runFrom step (start .double 42 25000 true { partialFillFraction := some (1 / 2) })
        [limitBuy 10 100, .closePosition "aapl" (some 3) "u1" 1]) ∧
    ∀ c, Inert (runFrom step (start .double 42 25000 true { partialFillFraction := some (1 / 2) })
      [limitBuy 10 100, .closePosition "aapl" (some 3) "u1" 1]) c := by
  have hcash : (0 : ℚ) ≤ 25000 := by norm_num
  have hcontrols : WellFormed (.configure { partialFillFraction := some (1 / 2) }) := by
    decide +kernel
  have hcalls : StepsMeet step FillsWell
      (start .double 42 25000 true { partialFillFraction := some (1 / 2) })
      [limitBuy 10 100, .closePosition "aapl" (some 3) "u1" 1] := by
    refine ⟨?_, ?_, trivial⟩ <;> decide +kernel
  exact ⟨hcash, hcontrols, hcalls, books_balance hcash hcontrols hcalls⟩

/-- **A fill rounded up overdraws the account**: 25.3011136 shares can be paid, and 25.301114
    are filled. -/
theorem rounding_overdraws :
    ¬ ∀ (seed : Int) (startingCash : ℚ) (fractionable : Bool) (controls : Controls)
      (calls : List Call), 0 ≤ startingCash → WellFormed (.configure controls) →
      (∀ c ∈ calls, WellFormed c) →
      Balanced (Rounding.double.fl startingCash)
          (runFrom step (start .double seed startingCash fractionable controls) calls) ∧
        ∀ c, Inert (runFrom step (start .double seed startingCash fractionable controls) calls) c := by
  intro hall
  have hbal := (hall 42 25000 true { partialFillFraction := some 1 }
    [limitBuy (toDouble (253011136 / 10000000)) 988] (by norm_num) (by decide +kernel)
    (by decide +kernel)).1.solvent
  revert hbal
  decide +kernel

end Samples

end MockBroker

end Investor.Brokers
