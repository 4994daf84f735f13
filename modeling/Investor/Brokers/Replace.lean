import Investor.Brokers.Mock

/-!
# Replacing an order of the mock broker

`replace_order` is two calls made one after the other: the order is cancelled, then the
replacement is submitted for its whole quantity. Its only check, that the replacement is not
smaller than what the order has filled, is made before the first of them.

So two things can go wrong. Whatever `submit_order` refuses is refused *after* the order is
cancelled, and nothing puts the order back. And what the replacement fills is not reduced by what
the order has filled, also where the order was filled to the end. `replaced_well_iff` says for
every state a run reaches which replacements are free of both.
-/

namespace Investor.Brokers.MockBroker

open Lib Risk Execution

def getOrder (b : MockBroker) (orderId : OrderId) : Option OrderResult :=
  b.orders.find? fun o => o.brokerOrderId = orderId

/-- An order that `cancel_order` leaves as it is. -/
def Finished (o : OrderResult) : Prop := o.status ∈ [.filled, .canceled, .rejected]

instance (o : OrderResult) : Decidable (Finished o) := inferInstanceAs (Decidable (_ ∈ _))

section Replacing

/-- `replace_order`, less the note of the replacement's id, which nothing reads. -/
def replaceOrder [Casing] (b : MockBroker) (orderId : OrderId) (replacement : OrderRequest) (now : Int) :
    Except MockError OrderResult × MockBroker :=
  match b.getOrder orderId with
  | none => (.error (.broker "order not found"), b)
  | some existing =>
    if b.fl (replacement.qty + b.fl (1 / 1000000000)) < existing.filledQty then
      (.error (.broker "cannot_replace_below_filled_qty"), b)
    else
      match b.cancelOrder orderId with
      | (.error e, b) => (.error e, b)
      | (.ok _, b) => b.submitOrder replacement now

/-- What happens to a broker: a call, or a replacement. -/
inductive Operation
  | call (c : Call)
  | replaceOrder (orderId : OrderId) (replacement : OrderRequest) (now : Int)

def perform [Casing] (b : MockBroker) : Operation → MockBroker
  | .call c => b.step c
  | .replaceOrder orderId replacement now => (b.replaceOrder orderId replacement now).2

/-- The claim on the broker's clients: quantities are positive. -/
def WellPosed : Operation → Prop
  | .call c => WellFormed c
  | .replaceOrder _ replacement _ => 0 < replacement.qty

def filledTotal (b : MockBroker) : ℚ := (b.orders.map (·.filledQty)).sum

/-- **A replacement that goes well**: if it raises, nothing has happened; if it returns, the two
    orders have filled no more than was asked for; and an order that was filled to the end is not
    traded again. -/
structure ReplacesWell [Casing] (b : MockBroker) (orderId : OrderId) (r : OrderRequest) (now : Int) :
    Prop where
  atomic : ∀ e, (b.replaceOrder orderId r now).1 = .error e →
    (b.replaceOrder orderId r now).2.getOrder orderId = b.getOrder orderId ∧
    (b.replaceOrder orderId r now).2.account = b.account ∧
    (b.replaceOrder orderId r now).2.positions = b.positions
  within : ∀ existing result, b.getOrder orderId = some existing →
    (b.replaceOrder orderId r now).1 = .ok result → existing.filledQty + result.filledQty ≤ r.qty
  once : ∀ existing, b.getOrder orderId = some existing → existing.status = .filled →
    (b.replaceOrder orderId r now).2.filledTotal = b.filledTotal

/-- What must hold of an order that the replacement is taken for, by what the request comes to. -/
def Suits (b : MockBroker) (r : OrderRequest) (existing : OrderResult) : Admission → Prop
  | .raises _ => Finished existing
  | .repeats result => existing.filledQty + result.filledQty ≤ r.qty
  | .rests => existing.filledQty ≤ r.qty
  | .fills => existing.filledQty + b.fillQty r ≤ r.qty ∧
    (existing.status = .filled → b.fillQty r = 0)

/-- **A replacement that can go well**: a check of `replace_order` refuses it, or the order suits
    what the request comes to. -/
def Replaceable [Casing] (b : MockBroker) (orderId : OrderId) (r : OrderRequest) : Prop :=
  ∀ existing, b.getOrder orderId = some existing →
    existing.filledQty ≤ b.fl (r.qty + b.fl (1 / 1000000000)) → b.Suits r existing (b.admission r)

/-! ## The cancelled order -/

section Cancelled

variable {b : MockBroker} {orderId : OrderId} {existing : OrderResult} {r : OrderRequest}
  {now : Int}

theorem getOrder_id (h : b.getOrder orderId = some existing) : existing.brokerOrderId = orderId := by
  simpa using List.find?_some h

/-- The row that `cancel_order` puts in an order's place. -/
def canceledRow (o : OrderResult) : OrderResult := { o with status := .canceled }

/-- What is left of an order after `cancel_order`. -/
def cancelled (o : OrderResult) : OrderResult :=
  if Finished o then o else canceledRow o

theorem cancelled_eq_iff (o : OrderResult) : cancelled o = o ↔ Finished o := by
  unfold cancelled
  split
  · rename_i h
    exact ⟨fun _ => h, fun _ => rfl⟩
  · rename_i h
    refine iff_of_false (fun heq => h ?_) h
    rw [← heq]
    show OrderStatus.canceled ∈ _
    decide

def withCancelled (b : MockBroker) (existing : OrderResult) : MockBroker :=
  if Finished existing then b else b.afterCancel existing

theorem cancelOrder_of_getOrder (h : b.getOrder orderId = some existing) :
    b.cancelOrder orderId = (.ok (cancelled existing), b.withCancelled existing) := by
  have hid := getOrder_id h
  subst hid
  unfold getOrder at h
  unfold cancelOrder cancelled withCancelled afterCancel
  rw [h]
  by_cases hfinished : Finished existing
  · rw [if_pos hfinished, if_pos hfinished]
    exact if_pos hfinished
  · rw [if_neg hfinished, if_neg hfinished]
    exact if_neg hfinished

theorem getOrder_withCancelled (h : b.getOrder orderId = some existing) :
    (b.withCancelled existing).getOrder orderId = some (cancelled existing) := by
  have hid := getOrder_id h
  subst hid
  unfold withCancelled cancelled
  split
  · exact h
  · exact find?_putRow_same (r := canceledRow existing) b.orders

theorem filledTotal_withCancelled (h : b.getOrder orderId = some existing) :
    (b.withCancelled existing).filledTotal = b.filledTotal := by
  have hid := getOrder_id h
  subst hid
  unfold withCancelled
  split
  · rfl
  · exact congrArg List.sum (map_putRow_of_find (r := canceledRow existing) h rfl)

@[simp] theorem withCancelled_account : (b.withCancelled existing).account = b.account := by
  unfold withCancelled
  split <;> rfl

@[simp] theorem withCancelled_positions : (b.withCancelled existing).positions = b.positions := by
  unfold withCancelled
  split <;> rfl

@[simp] theorem withCancelled_fillQty : (b.withCancelled existing).fillQty r = b.fillQty r := by
  unfold withCancelled
  split <;> rfl

theorem acceptedUnder_withCancelled (h : b.getOrder orderId = some existing)
    (key : Option String) :
    ((b.withCancelled existing).acceptedUnder key).map (·.filledQty) =
      (b.acceptedUnder key).map (·.filledQty) := by
  have hid := getOrder_id h
  subst hid
  unfold withCancelled acceptedUnder
  split
  · rfl
  · cases key.filter (· ≠ "") with
    | none => rfl
    | some k =>
      exact find?_putRow_map (r := canceledRow existing) (x := existing) h rfl rfl

/-- Two admissions that differ no more than in the row of the order they repeat. -/
def Admission.Alike : Admission → Admission → Prop
  | .raises e, .raises e' => e = e'
  | .repeats o, .repeats o' => o.filledQty = o'.filledQty
  | .rests, .rests => True
  | .fills, .fills => True
  | _, _ => False

theorem admission_withCancelled [Casing] (h : b.getOrder orderId = some existing) :
    ((b.withCancelled existing).admission r).Alike (b.admission r) := by
  have hkey := acceptedUnder_withCancelled h r.idempotencyKey
  have houtage : (b.withCancelled existing).outage r = b.outage r := by
    unfold withCancelled; split <;> rfl
  have hrests : (b.withCancelled existing).rests r = b.rests r := by
    unfold withCancelled; split <;> rfl
  have hrefusal : (b.withCancelled existing).refusal r = b.refusal r := by
    unfold withCancelled; split <;> rfl
  unfold admission
  rw [houtage, hrests, hrefusal]
  cases b.outage r with
  | some e => exact rfl
  | none =>
    cases hnew : (b.withCancelled existing).acceptedUnder r.idempotencyKey with
    | none =>
      rw [hnew] at hkey
      rw [Option.map_eq_none_iff.mp hkey.symm]
      simp only
      split
      · trivial
      · cases b.refusal r with
        | some e => exact rfl
        | none => trivial
    | some o =>
      rw [hnew] at hkey
      obtain ⟨o', ho', hqty⟩ := Option.map_eq_some_iff.mp hkey.symm
      rw [ho']
      exact hqty.symm

end Cancelled

/-! ## What one replacement does -/

def IdsIssued (b : MockBroker) : Prop := ∀ o ∈ b.orders, o.brokerOrderId.seq ≤ b.seq

section Replaced

variable {b : MockBroker} {orderId : OrderId} {existing : OrderResult} {r : OrderRequest}
  {now : Int}

theorem replaceOrder_unknown [Casing] (h : b.getOrder orderId = none) :
    b.replaceOrder orderId r now = (.error (.broker "order not found"), b) := by
  unfold replaceOrder
  rw [h]

theorem replaceOrder_refused [Casing] (h : b.getOrder orderId = some existing)
    (hbelow : b.fl (r.qty + b.fl (1 / 1000000000)) < existing.filledQty) :
    b.replaceOrder orderId r now = (.error (.broker "cannot_replace_below_filled_qty"), b) := by
  unfold replaceOrder
  rw [h]
  exact if_pos hbelow

theorem replaceOrder_submits [Casing] (h : b.getOrder orderId = some existing)
    (hcovers : existing.filledQty ≤ b.fl (r.qty + b.fl (1 / 1000000000))) :
    b.replaceOrder orderId r now = (b.withCancelled existing).submitOrder r now := by
  unfold replaceOrder
  rw [h]
  simp only [cancelOrder_of_getOrder h]
  exact if_neg (not_lt.mpr hcovers)

theorem replacesWell_of_refused [Casing] {e : MockError}
    (h : b.replaceOrder orderId r now = (.error e, b)) :
    b.ReplacesWell orderId r now where
  atomic := fun _ _ => by rw [h]; exact ⟨rfl, rfl, rfl⟩
  within := fun _ _ _ hresult => by rw [h] at hresult; cases hresult
  once := fun _ _ _ => by rw [h]

theorem filledTotal_record {result : OrderResult} (hid : result.brokerOrderId = b.nextId)
    (hids : b.IdsIssued) : (b.record result).filledTotal = b.filledTotal + result.filledQty := by
  unfold filledTotal
  rw [record_orders hid hids, List.map_append, List.sum_append, List.map_singleton,
    List.sum_singleton]

theorem idsIssued_withCancelled (h : b.getOrder orderId = some existing) (hids : b.IdsIssued) :
    (b.withCancelled existing).IdsIssued := by
  unfold withCancelled
  split
  · exact hids
  · intro o ho
    rcases mem_putRow ho with ho | rfl
    · exact hids o ho
    · exact hids existing (List.mem_of_find?_eq_some h)

section

variable [Casing]

theorem replacesWell_iff_of_ok {result : OrderResult} {b' : MockBroker}
    (h : b.getOrder orderId = some existing)
    (hok : b.replaceOrder orderId r now = (.ok result, b')) :
    b.ReplacesWell orderId r now ↔ existing.filledQty + result.filledQty ≤ r.qty ∧
      (existing.status = .filled → b'.filledTotal = b.filledTotal) := by
  constructor
  · intro hwell
    refine ⟨hwell.within existing result h (by rw [hok]), fun hdone => ?_⟩
    have honce := hwell.once existing h hdone
    rwa [hok] at honce
  · rintro ⟨hwithin, honce⟩
    refine ⟨fun e he => ?_, fun other result' hother hresult => ?_, fun other hother hdone => ?_⟩
    · rw [hok] at he
      cases he
    · rw [hok] at hresult
      cases hresult
      cases h.symm.trans hother
      exact hwithin
    · cases h.symm.trans hother
      rw [hok]
      exact honce hdone

theorem replacesWell_iff_of_error {e : MockError} {controls : Controls}
    (h : b.getOrder orderId = some existing)
    (herror : b.replaceOrder orderId r now =
      (.error e, { b.withCancelled existing with controls })) :
    b.ReplacesWell orderId r now ↔ Finished existing := by
  have hlater : ({ b.withCancelled existing with controls } : MockBroker).getOrder orderId =
      some (cancelled existing) := getOrder_withCancelled h
  constructor
  · intro hwell
    have hsame := (hwell.atomic e (by rw [herror])).1
    rw [herror, h] at hsame
    exact (cancelled_eq_iff existing).mp (Option.some.inj (hlater.symm.trans hsame))
  · intro hfinished
    have hsame : cancelled existing = existing := (cancelled_eq_iff existing).mpr hfinished
    refine ⟨fun _ _ => ?_, fun _ _ _ hresult => ?_, fun _ _ _ => ?_⟩
    · rw [herror, h]
      exact ⟨hlater.trans (congrArg some hsame), withCancelled_account, withCancelled_positions⟩
    · rw [herror] at hresult
      cases hresult
    · rw [herror]
      exact filledTotal_withCancelled h

theorem replacesWell_iff_suits (hids : b.IdsIssued) (h : b.getOrder orderId = some existing)
    (hcovers : existing.filledQty ≤ b.fl (r.qty + b.fl (1 / 1000000000))) :
    b.ReplacesWell orderId r now ↔ b.Suits r existing (b.admission r) := by
  have hsubmit : b.replaceOrder orderId r now = (b.withCancelled existing).submitOrder r now :=
    replaceOrder_submits h hcovers
  have halike := admission_withCancelled (r := r) h
  have hidsLater := idsIssued_withCancelled h hids
  have htotal := filledTotal_withCancelled h
  -- the submission meets the book without the old order, which admits it alike
  generalize b.admission r = admission at halike ⊢
  cases hadmission : (b.withCancelled existing).admission r with
  | raises e =>
    rw [hadmission] at halike
    obtain rfl : admission = .raises e := by cases admission <;> cases halike; rfl
    obtain ⟨controls, -, hclear⟩ := clearInjection_untouched (b.withCancelled existing)
    rw [submitOrder, hadmission] at hsubmit
    simp only [hclear] at hsubmit
    exact replacesWell_iff_of_error h hsubmit
  | repeats found =>
    rw [hadmission] at halike
    obtain ⟨result, rfl, hqty⟩ : ∃ result, admission = .repeats result ∧
        found.filledQty = result.filledQty := by
      cases admission with
      | repeats result => exact ⟨result, rfl, halike⟩
      | _ => cases halike
    rw [submitOrder, hadmission] at hsubmit
    rw [replacesWell_iff_of_ok h hsubmit, hqty]
    exact and_iff_left fun _ => htotal
  | rests =>
    rw [hadmission] at halike
    obtain rfl : admission = .rests := by cases admission <;> first | rfl | cases halike
    rw [submitOrder, hadmission] at hsubmit
    rw [replacesWell_iff_of_ok h hsubmit, filledTotal_record rfl hidsLater, htotal, restingResult,
      add_zero, add_zero]
    exact and_iff_left fun _ => rfl
  | fills =>
    rw [hadmission] at halike
    obtain rfl : admission = .fills := by cases admission <;> first | rfl | cases halike
    have hfilled : ((b.withCancelled existing).afterFill r now).filledTotal =
        b.filledTotal + b.fillQty r := by
      calc ((b.withCancelled existing).afterFill r now).filledTotal
          = (b.withCancelled existing).filledTotal + (b.withCancelled existing).fillQty r :=
            filledTotal_record (b := b.withCancelled existing) rfl hidsLater
        _ = b.filledTotal + b.fillQty r := by rw [htotal, withCancelled_fillQty]
    have hok : b.replaceOrder orderId r now = (.ok ((b.withCancelled existing).filledResult r now),
        (b.withCancelled existing).afterFill r now) := by
      rw [hsubmit, submitOrder, hadmission]
      rfl
    rw [replacesWell_iff_of_ok h hok, hfilled, add_eq_left, filledResult, withCancelled_fillQty]
    exact Iff.rfl

/-- The order is cancelled first, so what is submitted has to suit it. -/
theorem replacesWell_iff (hids : b.IdsIssued) :
    b.ReplacesWell orderId r now ↔ b.Replaceable orderId r := by
  unfold Replaceable
  cases h : b.getOrder orderId with
  | none =>
    refine iff_of_true (replacesWell_of_refused (replaceOrder_unknown h)) fun existing hnone => ?_
    cases hnone
  | some existing =>
    by_cases hcovers : existing.filledQty ≤ b.fl (r.qty + b.fl (1 / 1000000000))
    · rw [replacesWell_iff_suits hids h hcovers]
      constructor
      · rintro hsuits other hother -
        cases hother
        exact hsuits
      · intro hall
        exact hall existing rfl hcovers
    · refine iff_of_true (replacesWell_of_refused (replaceOrder_refused h (not_le.mp hcovers))) ?_
      intro other hother hle
      cases hother
      exact absurd hle hcovers

/-! ## Every run -/

theorem idsIssued_step (hids : b.IdsIssued) (c : Call) : (b.step c).IdsIssued := by
  have hmoves := step_moves b c
  generalize b.step c = b' at hmoves
  cases hmoves with
  | untouched controls _ => exact hids
  | rested r now => exact ids_record (b.restingResult r now) rfl hids
  | filled r now _ _ => exact ids_record (b.filledResult r now) rfl hids
  | canceled order hfound =>
    intro o ho
    rcases mem_putRow ho with ho | rfl
    · exact hids o ho
    · exact hids order (List.mem_of_find?_eq_some hfound)

theorem idsIssued_perform (b : MockBroker) (op : Operation) (hids : b.IdsIssued) :
    (b.perform op).IdsIssued := by
  cases op with
  | call c => exact idsIssued_step hids c
  | replaceOrder orderId r now =>
    show (b.replaceOrder orderId r now).2.IdsIssued
    cases h : b.getOrder orderId with
    | none =>
      rw [replaceOrder_unknown h]
      exact hids
    | some existing =>
      by_cases hcovers : existing.filledQty ≤ b.fl (r.qty + b.fl (1 / 1000000000))
      · rw [replaceOrder_submits h hcovers]
        exact idsIssued_step (idsIssued_withCancelled h hids) (.submitOrder r now)
      · rw [replaceOrder_refused h (not_le.mp hcovers)]
        exact hids

end

end Replaced

/-- **In every state a run reaches, exactly the replaceable orders are replaced well**, whatever
    calls and replacements the run is made of. -/
theorem replaced_well_iff [Casing] (rounding : Rounding) (seed : Int) (startingCash : ℚ)
    (fractionable : Bool) (controls : Controls) (ops : List Operation) (orderId : OrderId)
    (r : OrderRequest) (now : Int) :
    (runFrom perform (start rounding seed startingCash fractionable controls) ops).ReplacesWell
        orderId r now ↔
      (runFrom perform (start rounding seed startingCash fractionable controls) ops).Replaceable
        orderId r := by
  have hstart : (start rounding seed startingCash fractionable controls).IdsIssued := by
    intro o ho
    cases ho
  exact replacesWell_iff (run_invariant idsIssued_perform hstart)

end Replacing

section Samples

attribute [local instance] asciiCasing

def restingBuy : OrderRequest :=
  { symbol := "AAPL", side := .buy, qty := 10, orderType := "stop", stopPrice := some 110 }

/-- **A replacement that cannot be paid costs the order it was to replace**: the resting order is
    cancelled before the broker raises. -/
theorem replaced_by_nothing :
    ¬ ∀ (seed : Int) (startingCash : ℚ) (fractionable : Bool) (controls : Controls)
      (ops : List Operation) (orderId : OrderId) (r : OrderRequest) (now : Int),
      0 ≤ startingCash → WellFormed (.configure controls) → (∀ op ∈ ops, WellPosed op) → 0 < r.qty →
      (runFrom perform (start .double seed startingCash fractionable controls) ops).ReplacesWell
        orderId r now := by
  intro hall
  have hwell := hall 42 25000 true {} [.call (.submitOrder restingBuy 0)] ⟨42, 1⟩
    { restingBuy with qty := 1000, orderType := "limit", limitPrice := some 100 } 1 (by norm_num)
    (by decide) (by simp [WellPosed, WellFormed, restingBuy]) (by norm_num)
  have hsame := (hwell.atomic (.broker "insufficient_buying_power") (by decide +kernel)).1
  revert hsame
  decide +kernel

end Samples

end Investor.Brokers.MockBroker
