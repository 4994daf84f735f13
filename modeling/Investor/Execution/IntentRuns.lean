import Investor.Execution.IntentOrders

/-!
# Sequences of operations on one intent

Two laws about `validate_intent`, `approve_intent`, `reject_intent` and `submit_intent`, called in
any order on one intent.

* *One order.* `validate_intent` writes the status of the intent without reading it, so a
  refused intent can be approved again, and a sent one sent again under the client id of the next
  attempt. As long as it is called on open intents only (`ValidatesOpen`), an intent gets one order
  at most, and stays refused once it is (`one_order_per_intent`).
* *Within the check.* `submit_intent` takes an approved quantity of zero for none, and orders the
  quantity that was asked for. As long as no such intent is submitted (`SubmitsApproved`), every
  order is within the latest check of its intent (`sent_within_check`).

Both are carried by an invariant of the intent's row that one operation keeps.
-/

namespace Investor.Execution

open Lib Market Core

variable {id : Nat}

/-! ## One order -/

def refusedStatuses : List String := ["REJECTED", "EXPIRED", "RISK_REJECTED", "FAILED"]

def closedStatuses : List String := refusedStatuses ++ ["SUBMITTING", "SUBMITTED"]

def StatusIn (id : Nat) (statuses : List String) (w : World) : Prop :=
  ∀ i ∈ w.db.working.intents.find? id, i.status ∈ statuses

/-- `validate_intent` is called on an intent that was neither refused nor sent. -/
def ValidatesOpen (id : Nat) (w : World) : IntentOp → Prop
  | .validate .. => ∀ i ∈ w.db.working.intents.find? id, i.status ∉ closedStatuses
  | _ => True

instance decidableValidatesOpen (id : Nat) (w : World) :
    (op : IntentOp) → Decidable (ValidatesOpen id w op)
  | .validate .. =>
    inferInstanceAs (Decidable (∀ i ∈ w.db.working.intents.find? id, i.status ∉ closedStatuses))
  | .approve .. | .reject .. | .submit .. => .isTrue trivial

/-- One order at most was created and sent since. -/
structure OneOrder (id : Nat) (w₀ w : World) : Prop where
  created : w.db.broken = false → ∀ r ∈ w.db.working.orders.rows,
    ∀ r' ∈ w.db.working.orders.rows, IsOrderOf id r → IsOrderOf id r' → r = r'
  sent : w.accepted.length ≤ w₀.accepted.length + 1

/-- The intent is refused as it was, and nothing was sent since. -/
structure StaysRefused (id : Nat) (w₀ w : World) : Prop where
  sent : w.accepted = w₀.accepted
  status : w.db.broken = false → StatusIn id refusedStatuses w

/-- No order yet: or one, on file under one key, and the intent closed. -/
def Orderly (id : Nat) (w₀ w : World) : Prop :=
  w.accepted = w₀.accepted ∧
      (w.db.broken = false → ∀ r ∈ w.db.working.orders.rows, ¬ IsOrderOf id r) ∨
    w.accepted.length ≤ w₀.accepted.length + 1 ∧
      (w.db.broken = false → StatusIn id closedStatuses w ∧
        ∃ k, ∀ r ∈ w.db.working.orders.rows, IsOrderOf id r → r.idempotencyKey = k)

variable {w₀ w : World}

theorem Orderly.one (h : Orderly id w₀ w) : OneOrder id w₀ w := by
  rcases h with ⟨hsent, hnone⟩ | ⟨hsent, hclosed⟩
  · exact ⟨fun hb r hr _ _ hof => absurd hof (hnone hb r hr), by rw [hsent]; omega⟩
  · refine ⟨fun hb r hr r' hr' hof hof' => ?_, hsent⟩
    obtain ⟨_, k, hkey⟩ := hclosed hb
    exact KeyedTable.eq_of_key_eq hr hr' ((hkey r hr hof).trans (hkey r' hr' hof').symm)

variable {i : OrderIntent} {statuses : List String} {t₀ t : Tables}

theorem Unfiled.status (h : Unfiled i statuses t₀ t) :
    ∀ i' ∈ t.intents.find? i.id, i'.status ∈ statuses :=
  fun i' hi' => (h.intents.own i' hi').2.2

theorem Filed.status {k : String} (h : Filed i k statuses t₀ t) :
    ∀ i' ∈ t.intents.find? i.id, i'.status ∈ statuses :=
  fun i' hi' => (h.intents.own i' hi').2.2

theorem Rejected.refused (h : Rejected i t₀ t) (hfound : t₀.intents.find? id = some i) :
    ∀ i' ∈ t.intents.find? id, i'.status ∈ refusedStatuses := by
  obtain rfl : i.id = id := (KeyedTable.find?_eq_some_iff.mp hfound).2
  intro i' hi'
  rw [List.mem_singleton.mp (Unfiled.status h i' hi')]
  decide

variable {reviewed : OrderIntent → Tables → Tables → Prop}

theorem ReviewEffect.usable (h : ReviewEffect reviewed id w₀ w) (hb : w.db.broken = false) :
    w₀.db.broken = false ∧ (w.db.working = w₀.db.working ∨
      ∃ i, w₀.db.working.intents.find? id = some i ∧ reviewed i w₀.db.working w.db.working) :=
  Leaves.usable h hb

theorem ReviewEffect.accepted (h : ReviewEffect reviewed id w₀ w) : w.accepted = w₀.accepted :=
  Leaves.accepted (A := (· = w₀.accepted)) h

theorem ReviewEffect.orders (h : ReviewEffect reviewed id w₀ w)
    (horders : ∀ i t₀ t, reviewed i t₀ t → t.orders = t₀.orders) (hb : w.db.broken = false) :
    w.db.working.orders = w₀.db.working.orders := by
  rcases (h.usable hb).2 with heq | ⟨i, _, hreviewed⟩
  · rw [heq]
  · exact horders i _ _ hreviewed

theorem Validated.orders (h : Validated i t₀ t) : t.orders = t₀.orders := by
  rcases h with h | ⟨c, h⟩ <;> exact h.orders

variable {w' : World}

theorem ReviewEffect.refused (h : ReviewEffect reviewed id w w')
    (hrefused : StatusIn id refusedStatuses w → ∀ i t,
      w.db.working.intents.find? id = some i → reviewed i w.db.working t →
        ∀ i' ∈ t.intents.find? id, i'.status ∈ refusedStatuses) (hinv : StaysRefused id w₀ w) :
    StaysRefused id w₀ w' := by
  refine ⟨h.accepted.trans hinv.sent, fun hb => ?_⟩
  obtain ⟨hb₀, hcase⟩ := h.usable hb
  unfold StatusIn
  rcases hcase with heq | ⟨i, hfound, hreviewed⟩
  · rw [heq]
    exact hinv.status hb₀
  · exact hrefused (hinv.status hb₀) i _ hfound hreviewed

section Operations

variable {env : Env} {cfg : Settings} {digest : String → String}

variable {op : IntentOp}

section

variable [Casing]

def OpEffect (cfg : Settings) (digest : String → String) (id : Nat) (w₀ w : World) :
    IntentOp → Prop
  | .validate .. => ReviewEffect Validated id w₀ w
  | .approve .. => ReviewEffect Approved id w₀ w
  | .reject .. => ReviewEffect Rejected id w₀ w
  | .submit _ attempt _ => SubmitEffect cfg digest id attempt w₀ w

theorem intentStep_effect (env : Env) (cfg : Settings) (digest : String → String) (id : Nat)
    (w : World) (op : IntentOp) :
    OpEffect cfg digest id w (intentStep env cfg digest id w op) op := by
  cases op with
  | validate controls args => exact Eff.Spec.at_end validateIntent_spec rfl
  | approve actor => exact Eff.Spec.at_end approveIntent_spec rfl
  | reject actor => exact Eff.Spec.at_end rejectIntent_spec rfl
  | submit controls attempt latestRecon => exact Eff.Spec.at_end submitIntent_spec rfl

end

/-! ## Within the check -/

theorem latestCheck_append {c : PretradeRiskCheck} (hc : c.intentId = id)
    (h : t.checks = t₀.checks ++ [c]) : latestCheck id t = some c := by
  unfold latestCheck
  rw [h, List.filter_append, List.filter_cons_of_pos (by simpa using hc)]
  exact List.getLast?_concat

theorem latestCheck_congr (h : t.checks = t₀.checks) : latestCheck id t = latestCheck id t₀ := by
  unfold latestCheck
  rw [h]

/-- The statuses that a check may have led to, and from which an intent may be sent. -/
def checkedStatuses : List String := ["PENDING_APPROVAL", "APPROVED"]

def HasCheckedQty (id : Nat) (t : Tables) (i : OrderIntent) : Prop :=
  ∃ c, latestCheck id t = some c ∧ i.approvedQuantity = some c.result.approvedQuantity

def ApprovedAsChecked (id : Nat) (w : World) : Prop :=
  w.db.broken = false → ∀ i ∈ w.db.working.intents.find? id, i.status ∈ checkedStatuses →
    HasCheckedQty id w.db.working i

/-- No intent is submitted whose approved quantity is zero and that asked for more. -/
def SubmitsApproved (id : Nat) (w : World) : IntentOp → Prop
  | .submit .. => ∀ i ∈ w.db.working.intents.find? id, i.status = "APPROVED" →
      i.approvedQuantity = some 0 → i.quantity.getD 0 ≤ 0
  | _ => True

instance decidableSubmitsApproved (id : Nat) (w : World) :
    (op : IntentOp) → Decidable (SubmitsApproved id w op)
  | .submit .. =>
    inferInstanceAs (Decidable (∀ i ∈ w.db.working.intents.find? id, i.status = "APPROVED" →
      i.approvedQuantity = some 0 → i.quantity.getD 0 ≤ 0))
  | .approve .. | .reject .. | .validate .. => .isTrue trivial

def SentWithinCheck (id : Nat) (w w' : World) : Prop :=
  w'.accepted = w.accepted ∨ ∃ o c, w'.accepted = w.accepted ++ [o] ∧
    latestCheck id w.db.working = some c ∧ 0 < o.request.qty ∧
    o.request.qty ≤ c.result.approvedQuantity

theorem Unfiled.checkedQty {i' : OrderIntent} (h : Unfiled i statuses t₀ t)
    (hi' : i' ∈ t.intents.find? i.id) (hold : HasCheckedQty i.id t₀ i) :
    HasCheckedQty i.id t i' := by
  obtain ⟨c, hc, hqty⟩ := hold
  exact ⟨c, (latestCheck_congr h.checks).trans hc, (h.intents.own i' hi').2.1.trans hqty⟩

theorem Checked.checkedQty {i' : OrderIntent} {c : PretradeRiskCheck}
    (h : Checked i c statuses t₀ t) (hi' : i' ∈ t.intents.find? i.id) : HasCheckedQty i.id t i' :=
  ⟨c, latestCheck_append h.own h.checks, (h.intents.own i' hi').2.1⟩

theorem ReviewEffect.asChecked (h : ReviewEffect reviewed id w w')
    (hreviewed : ∀ i t, w.db.working.intents.find? id = some i → reviewed i w.db.working t →
      (i.status ∈ checkedStatuses → HasCheckedQty id w.db.working i) →
        ∀ i' ∈ t.intents.find? id, i'.status ∈ checkedStatuses → HasCheckedQty id t i')
    (hinv : ApprovedAsChecked id w) : ApprovedAsChecked id w' := by
  intro hb
  obtain ⟨hb₀, heq | ⟨i, hfound, hcase⟩⟩ := h.usable hb
  · rw [heq]
    exact hinv hb₀
  · exact hreviewed i _ hfound hcase (hinv hb₀ i hfound)

/-- Every operation keeps an approval at the quantity of its check. -/
theorem asChecked_step [Casing] (hinv : ApprovedAsChecked id w) :
    ApprovedAsChecked id (intentStep env cfg digest id w op) := by
  have heffect := intentStep_effect env cfg digest id w op
  have hclosed : ∀ {i i' : OrderIntent} {statuses : List String} {t₀ t : Tables},
      Unfiled i statuses t₀ t → i' ∈ t.intents.find? i.id → i'.status ∈ checkedStatuses →
        ∃ status ∈ statuses, status ∈ checkedStatuses := fun h hi' hin =>
    ⟨_, h.status _ hi', hin⟩
  cases op with
  | validate controls args =>
    refine ReviewEffect.asChecked heffect (fun i t hfound h _ i' hi' hin => ?_) hinv
    obtain rfl : i.id = id := (KeyedTable.find?_eq_some_iff.mp hfound).2
    rcases h with h | ⟨c, h⟩
    · obtain ⟨status, hval, hin⟩ := hclosed h hi' hin
      rw [List.mem_singleton.mp hval] at hin
      exact absurd hin (by decide)
    · exact h.checkedQty hi'
  | approve actor =>
    refine ReviewEffect.asChecked heffect (fun i t hfound h hqty i' hi' _ => ?_) hinv
    obtain rfl : i.id = id := (KeyedTable.find?_eq_some_iff.mp hfound).2
    exact h.2.checkedQty hi' (hqty (by rw [h.1]; decide))
  | reject actor =>
    refine ReviewEffect.asChecked heffect (fun i t hfound h _ i' hi' hin => ?_) hinv
    obtain rfl : i.id = id := (KeyedTable.find?_eq_some_iff.mp hfound).2
    obtain ⟨status, hrej, hin⟩ := hclosed h hi' hin
    rw [List.mem_singleton.mp hrej] at hin
    exact absurd hin (by decide)
  | submit controls attempt latestRecon =>
    intro hb i' hi' hin
    rcases heffect with hsame | ⟨i, hsubmits, hunfiled | hfiled⟩
    · obtain ⟨hb₀, heq⟩ := hsame.usable hb
      rw [heq] at hi' ⊢
      exact hinv hb₀ i' hi' hin
    · obtain rfl := hsubmits.id_eq
      exact (hunfiled.usable hb).2.checkedQty hi' (hinv hsubmits.usable i hsubmits.found
        (by rw [hsubmits.approved]; decide))
    · obtain rfl := hsubmits.id_eq
      have hstatus := (hfiled.usable hb).2.status i' hi'
      exact absurd hin (by
        revert hstatus
        generalize i'.status = status
        revert status
        decide)

theorem orderedQty_le {q : ℚ} (hqty : i.approvedQuantity = some q)
    (hzero : i.approvedQuantity = some 0 → i.quantity.getD 0 ≤ 0) (hpos : 0 < orderedQty i) :
    orderedQty i ≤ q := by
  unfold orderedQty at hpos ⊢
  rw [hqty] at hpos hzero ⊢
  rw [Option.filter_some] at hpos ⊢
  by_cases hq : q = 0
  · rw [if_neg (by simp [hq])] at hpos
    exact absurd hpos (not_lt_of_ge (hzero (by rw [hq])))
  · rw [if_pos (by simpa using hq)]
    exact le_refl q

/-- What a submission sends is within the check. -/
theorem sentWithin_step [Casing] (hinv : ApprovedAsChecked id w)
    (happroved : SubmitsApproved id w op) :
    SentWithinCheck id w (intentStep env cfg digest id w op) := by
  have heffect := intentStep_effect env cfg digest id w op
  cases op with
  | validate controls args => exact Or.inl (ReviewEffect.accepted heffect)
  | approve actor => exact Or.inl (ReviewEffect.accepted heffect)
  | reject actor => exact Or.inl (ReviewEffect.accepted heffect)
  | submit controls attempt latestRecon =>
    rcases heffect with hsame | ⟨i, hsubmits, hunfiled | hfiled⟩
    · exact Or.inl hsame.accepted
    · exact Or.inl hunfiled.accepted
    · rcases hfiled.accepted with heq | ⟨hpos, heq⟩
      · exact Or.inl heq
      · obtain ⟨c, hc, hqty⟩ := hinv hsubmits.usable i hsubmits.found
          (by rw [hsubmits.approved]; decide)
        exact Or.inr ⟨_, c, heq, hc, hpos, orderedQty_le hqty
          (happroved i hsubmits.found hsubmits.approved) hpos⟩

/-- **What is sent of an intent is positive and within its latest check**, as long as the check
    did not approve zero of it. -/
theorem sent_within_check [Casing] {w₀ : World} {ops : List IntentOp}
    (hunchecked : ∀ i ∈ w₀.db.working.intents.find? id, i.status ∉ checkedStatuses)
    (happroved : StepsMeet (intentStep env cfg digest id) (SubmitsApproved id) w₀ ops) :
    StepsMeet (intentStep env cfg digest id)
      (fun w op => SentWithinCheck id w (intentStep env cfg digest id w op)) w₀ ops :=
  StepsMeet.gives (fun _ _ hinv hmeets => ⟨asChecked_step hinv, sentWithin_step hinv hmeets⟩)
    (fun _ i hi hin => absurd hin (hunchecked i hi)) happroved

end Operations

/-! ## Three sequences -/

section Examples

attribute [local instance] asciiCasing

def newBuyIntent : OrderIntent :=
  { id := 1, decisionId := some "d", workflowRunId := none, symbol := "AAPL",
    intentType := "OPEN_LONG", side := "buy", quantity := some 10, approvedQuantity := none,
    entryPrice := some 100, stopPrice := some 95, status := "CREATED", clientOrderId := none,
    approvalId := none, thesis := none, expiresAt := none, exitPolicy := [], metadata := [],
    updatedAt := none }

def newIntentWorld : World :=
  { emptyWorld with
    db := Session.fresh
      { emptyWorld.db.working with intents := ⟨[newBuyIntent], List.nodup_singleton 1⟩ } }

def checkWith (buyingPower : ℚ) : IntentOp :=
  .validate freshWorld.controls
    { equity := 25000, cash := 25000, buyingPower, grossExposure := 0, positionQty := 0 }

def submitAt (attempt : Int) : IntentOp := .submit freshWorld.controls attempt none

def reversed (s : String) : String := String.ofList s.toList.reverse

abbrev mockStep : World → IntentOp → World :=
  intentStep (acceptingEnv fun _ => false) mockSettings reversed 1

theorem sent_within_check_once :
    StepsMeet mockStep (fun w op => SentWithinCheck 1 w (mockStep w op)) newIntentWorld
      [checkWith 25000, submitAt 1] :=
  sent_within_check (by decide +kernel) (by decide +kernel)

/-- **Where the check approves zero, the submission sends what was asked for.** A buying power
    of 0.00004 sizes ten shares at 100 down to 0.0000004, which rounds to zero. -/
theorem zero_approval_sends_all :
    let w := mockStep newIntentWorld (checkWith (1 / 25000))
    ¬ SentWithinCheck 1 w (mockStep w (submitAt 1)) := by
  intro w h
  have hlen : (mockStep w (submitAt 1)).accepted.length = 1 := by decide +kernel
  have hzero : (latestCheck 1 w.db.working).map (·.result.approvedQuantity) = some 0 := by
    decide +kernel
  rcases h with heq | ⟨o, c, _, hc, hpos, hle⟩
  · rw [heq] at hlen
    exact absurd hlen (by decide +kernel)
  · rw [hc, Option.map_some, Option.some.injEq] at hzero
    exact absurd (hpos.trans_le hle) (by rw [hzero]; exact lt_irrefl 0)

end Examples

end Investor.Execution
