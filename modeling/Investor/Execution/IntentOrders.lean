import Investor.Execution.IntentLifecycle
import Investor.Execution.Submission

/-!
# What the operations on an intent do to its orders

What one `submit_intent` can do is said once (`SubmitEffect`): it leaves the orders alone, or it
puts one row on file under a client id that was not there, for an approved intent whose status it
takes away; and the broker accepts at most the request of that row. The other three operations
write intents, approvals and checks only (`ReviewEffect`).
-/

namespace Investor.Execution

open Lib Market Core

/-! ## What a program leaves -/

/-- Nothing is committed, the orders that were accepted are in `A`, and as long as the session can
    be used its tables are in `R`. -/
structure Leaves (A : List AcceptedOrder → Prop) (R : Tables → Prop) (w₀ w : World) : Prop where
  committed : w.db.committed = w₀.db.committed
  accepted : A w.accepted
  usable : w.db.broken = false → w₀.db.broken = false ∧ R w.db.working

variable {w : World}

section Leaves

variable {env : Env} {A A' : List AcceptedOrder → Prop} {R R' : Tables → Prop} {w₀ : World}

theorem Leaves.start (w₀ : World) :
    Leaves (· = w₀.accepted) (· = w₀.db.working) w₀ w₀ :=
  ⟨rfl, rfl, fun h => ⟨h, rfl⟩⟩

theorem Leaves.imp (h : Leaves A R w₀ w) (hA : ∀ l, A l → A' l) (hR : ∀ t, R t → R' t) :
    Leaves A' R' w₀ w :=
  ⟨h.committed, hA _ h.accepted, fun hb => ⟨(h.usable hb).1, hR _ (h.usable hb).2⟩⟩

theorem calm_leaves : Calm (Leaves A R w₀) where
  tick := fun _ h => ⟨h.committed, h.accepted, h.usable⟩
  abort := fun _ h => ⟨h.committed, h.accepted, fun hb => absurd hb (by simp)⟩

theorem write_leaves {f : Tables → Tables} (h : ∀ t, R t → R' (f t)) :
    Eff.Goes (Leaves A R w₀) (write f) fun _ => Leaves A R' w₀ :=
  Eff.Spec.edit fun _ hw =>
    ⟨hw.committed, hw.accepted, fun hb => ⟨(hw.usable hb).1, h _ (hw.usable hb).2⟩⟩

theorem write_leaves' {f : Tables → Tables} {E : Fault → World → Prop}
    (h : ∀ t, R t → R' (f t)) :
    Eff.Spec (Leaves A R w₀) (write f) (fun _ => Leaves A R' w₀) E :=
  (write_leaves h).weaken (fun _ hw => hw) (fun _ _ hw => hw) fun _ _ hw => hw.elim

theorem query_leaves {α : Type} {f : Tables → α} :
    Eff.Spec (Leaves A R w₀) (query env f)
      (fun a w => Leaves A R w₀ w ∧ w₀.db.broken = false ∧ ∃ t, R t ∧ a = f t)
      (fun _ => Leaves A R w₀) := by
  refine (query_spec calm_leaves).weaken (fun _ hw => hw) (fun a w hw => ?_) fun _ _ hw => hw
  obtain ⟨hw, hb, ha⟩ := hw
  exact ⟨hw, (hw.usable hb).1, w.db.working, (hw.usable hb).2, ha⟩

theorem addOrder_leaves {row : Order} (h : ∀ t orders, R t → ¬ t.orders.HasKey row.idempotencyKey →
      orders.rows = t.orders.rows ++ [row] → R' { t with orders }) :
    Eff.Spec (Leaves A R w₀) (addOrder row) (fun _ => Leaves A R' w₀)
      (fun _ => Leaves A (fun _ => False) w₀) := by
  intro w hw
  unfold addOrder
  cases hins : w.db.working.orders.insert row with
  | none =>
    simp only [bind, Eff.read, hins]
    exact ⟨hw.committed, hw.accepted, fun hb => absurd hb (by simp)⟩
  | some orders =>
    simp only [bind, Eff.read, hins]
    obtain ⟨hfresh, hrows⟩ := KeyedTable.insert_eq_some hins
    exact ⟨hw.committed, hw.accepted,
      fun hb => ⟨(hw.usable hb).1, h _ _ (hw.usable hb).2 hfresh hrows⟩⟩

theorem brokerSubmit_leaves (A' : List AcceptedOrder → Prop) {plan : String} {req : OrderRequest}
    (hA : ∀ l, A l → A' l ∧ A' (l ++ [{ request := req, plan }])) :
    Eff.Spec (Leaves A R w₀) (brokerSubmit env plan req) (fun _ => Leaves A' R w₀)
      (fun _ => Leaves A' R w₀) := by
  have hnone : ∀ w, Leaves A R w₀ w → Leaves A' R w₀ w := fun w hw =>
    hw.imp (fun l hl => (hA l hl).1) fun _ ht => ht
  refine Eff.Spec.bind ((keeps_suspend calm_leaves).weaken (fun _ hw => hw) (fun _ _ hw => hw)
    fun _ => hnone) fun _ => ?_
  refine Eff.Spec.bind (M := fun _ => Leaves A R w₀) (Eff.Spec.read fun _ hw => hw) fun w₁ => ?_
  refine Eff.Spec.bind (M := fun _ => Leaves A R w₀)
    (Eff.Spec.edit fun w hw => ⟨hw.committed, hw.accepted, hw.usable⟩) fun _ => ?_
  refine Eff.Spec.bind (M := fun _ => Leaves A' R w₀) (Eff.Spec.edit fun w hw => ?_) fun _ => ?_
  · split
    · exact ⟨hw.committed, (hA _ hw.accepted).2, hw.usable⟩
    · exact hnone w hw
  · refine Eff.Keeps.bind (keeps_suspend calm_leaves) fun _ => ?_
    cases (env.submitAnswer w₁.ticks req).reply with
    | ok result => exact Eff.keeps_pure
    | error e => exact Eff.keeps_throw

end Leaves

/-! ## Rewriting intents -/

variable {g : OrderIntent → OrderIntent}

theorem find_setIntent {id : Nat} {hg : ∀ r, (g r).id = r.id} {t : Tables} {k : Nat} :
    (setIntent id g hg t).intents.find? k =
      (t.intents.find? k).map fun r => if r.id = id then g r else r :=
  KeyedTable.find?_update fun r => by split <;> simp [hg]

theorem find_setIntent_ne {id : Nat} {hg : ∀ r, (g r).id = r.id} {t : Tables} {k : Nat}
    (hk : k ≠ id) : (setIntent id g hg t).intents.find? k = t.intents.find? k := by
  rw [find_setIntent]
  cases hfind : t.intents.find? k with
  | none => rfl
  | some r =>
    have hid : r.id = k := (KeyedTable.find?_eq_some_iff.mp hfind).2
    rw [Option.map_some, if_neg (hid ▸ hk)]

theorem find_setIntent_self {id : Nat} {hg : ∀ r, (g r).id = r.id} {t : Tables} :
    (setIntent id g hg t).intents.find? id = (t.intents.find? id).map g := by
  rw [find_setIntent]
  cases hfind : t.intents.find? id with
  | none => rfl
  | some r =>
    have hid : r.id = id := (KeyedTable.find?_eq_some_iff.mp hfind).2
    rw [Option.map_some, Option.map_some, if_pos hid]

/-- The row of the intent `id` is in `P`, and no other intent has changed. -/
structure IntentNow (id : Nat) (P : OrderIntent → Prop) (t₀ t : Tables) : Prop where
  now : ∃ i, t.intents.find? id = some i ∧ P i
  others : ∀ k, k ≠ id → t.intents.find? k = t₀.intents.find? k

section IntentNow

variable {id : Nat} {P P' : OrderIntent → Prop} {t₀ t : Tables}

theorem IntentNow.own (h : IntentNow id P t₀ t) : ∀ i, t.intents.find? id = some i → P i := by
  intro i hi
  obtain ⟨i₀, hi₀, hP⟩ := h.now
  rw [hi] at hi₀
  cases hi₀
  exact hP

theorem IntentNow.set {g : OrderIntent → OrderIntent} {hg : ∀ r, (g r).id = r.id}
    (h : IntentNow id P t₀ t) (hP : ∀ i, P i → P' (g i)) :
    IntentNow id P' t₀ (setIntent id g hg t) where
  now := by
    obtain ⟨i, hi, hown⟩ := h.now
    exact ⟨g i, by rw [find_setIntent_self, hi, Option.map_some], hP i hown⟩
  others := fun k hk => (find_setIntent_ne hk).trans (h.others k hk)

theorem IntentNow.imp (h : IntentNow id P t₀ t) (hP : ∀ i, P i → P' i) : IntentNow id P' t₀ t := by
  obtain ⟨i, hi, hown⟩ := h.now
  exact ⟨⟨i, hi, hP i hown⟩, h.others⟩

theorem IntentNow.names (h : IntentNow id P t₀ t) {i₀ : OrderIntent}
    (hi₀ : t₀.intents.find? id = some i₀) (hname : ∀ i, P i → i.name = i₀.name)
    {k : Nat} {i : OrderIntent} (hi : t₀.intents.find? k = some i) :
    ∃ i', t.intents.find? k = some i' ∧ i'.name = i.name := by
  by_cases hk : k = id
  · subst hk
    rw [hi₀] at hi
    cases hi
    obtain ⟨i', hi', hP⟩ := h.now
    exact ⟨i', hi', hname i' hP⟩
  · exact ⟨i, (h.others k hk).trans hi, rfl⟩

end IntentNow

def SameBut (i : OrderIntent) (statuses : List String) (i' : OrderIntent) : Prop :=
  i'.name = i.name ∧ i'.approvedQuantity = i.approvedQuantity ∧ i'.status ∈ statuses

/-! ## What one submission does -/

def IsOrderOf (id : Nat) (o : Order) : Prop :=
  Dict.get? o.rawPayload "intent_id" = some (.str (toString id))

theorem planKey_set {i : OrderIntent} {key : String} {v : Json} {r : OrderIntent}
    (hr : r.metadata = Dict.set i.metadata key v) (hkey : key ≠ "idempotency_key_seed") :
    r.planKey = i.planKey := by
  unfold OrderIntent.planKey Dict.at
  rw [hr, Dict.get?_set_of_ne _ _ hkey]

/-- The statuses that a submission may leave where it files no order, and where it does. -/
def unfiledStatuses : List String := ["APPROVED", "RISK_REJECTED", "SUBMITTING", "FAILED"]

def filedStatuses : List String := ["SUBMITTING", "SUBMITTED", "FAILED"]

structure Unfiled (i : OrderIntent) (statuses : List String) (t₀ t : Tables) : Prop where
  orders : t.orders = t₀.orders
  checks : t.checks = t₀.checks
  intents : IntentNow i.id (SameBut i statuses) t₀ t

/-- One order is on file that was not, under the key `k`. -/
structure Filed (i : OrderIntent) (k : String) (statuses : List String) (t₀ t : Tables) : Prop where
  old : ∀ r ∈ t₀.orders.rows, r ∈ t.orders.rows
  new : ∀ r ∈ t.orders.rows, r ∈ t₀.orders.rows ∨ r.idempotencyKey = k ∧ IsOrderOf i.id r
  row : t.orders.HasKey k
  checks : t.checks = t₀.checks
  intents : IntentNow i.id (SameBut i statuses) t₀ t

section Filing

variable {i : OrderIntent} {k : String} {statuses statuses' : List String} {t₀ t : Tables}

theorem Unfiled.start (hi : t₀.intents.find? i.id = some i) :
    Unfiled i [i.status] t₀ t₀ :=
  ⟨rfl, rfl, ⟨i, hi, rfl, rfl, List.mem_singleton.mpr rfl⟩, fun _ _ => rfl⟩

theorem Unfiled.widen (h : Unfiled i statuses t₀ t) (hs : ∀ s ∈ statuses, s ∈ statuses') :
    Unfiled i statuses' t₀ t :=
  ⟨h.orders, h.checks, h.intents.imp fun _ hi => ⟨hi.1, hi.2.1, hs _ hi.2.2⟩⟩

theorem Unfiled.set {g : OrderIntent → OrderIntent} {hg : ∀ r, (g r).id = r.id}
    (h : Unfiled i statuses t₀ t)
    (hkept : ∀ r, (g r).name = r.name ∧ (g r).approvedQuantity = r.approvedQuantity)
    (hs : ∀ r, r.status ∈ statuses → (g r).status ∈ statuses') :
    Unfiled i statuses' t₀ (setIntent i.id g hg t) :=
  ⟨h.orders, h.checks, h.intents.set fun r hr =>
    ⟨(hkept r).1.trans hr.1, (hkept r).2.trans hr.2.1, hs r hr.2.2⟩⟩

theorem Unfiled.file {row : Order} {orders : OrderTable} (h : Unfiled i statuses t₀ t)
    (hkey : row.idempotencyKey = k) (hrow : IsOrderOf i.id row)
    (hrows : orders.rows = t.orders.rows ++ [row]) :
    Filed i k statuses t₀ { t with orders } := by
  have hmem : ∀ r, r ∈ orders.rows ↔ r ∈ t₀.orders.rows ∨ r = row := by
    intro r
    rw [hrows, h.orders, List.mem_append, List.mem_singleton]
  refine ⟨fun r hr => (hmem r).mpr (Or.inl hr), fun r hr => ?_, ?_, h.checks,
    ⟨h.intents.now, h.intents.others⟩⟩
  · rcases (hmem r).mp hr with hold | rfl
    · exact Or.inl hold
    · exact Or.inr ⟨hkey, hrow⟩
  · rw [← hkey]
    exact KeyedTable.hasKey_of_mem ((hmem row).mpr (Or.inr rfl))

theorem Filed.widen (h : Filed i k statuses t₀ t) (hs : ∀ s ∈ statuses, s ∈ statuses') :
    Filed i k statuses' t₀ t :=
  ⟨h.old, h.new, h.row, h.checks, h.intents.imp fun _ hi => ⟨hi.1, hi.2.1, hs _ hi.2.2⟩⟩

theorem Filed.set {g : OrderIntent → OrderIntent} {hg : ∀ r, (g r).id = r.id}
    (h : Filed i k statuses t₀ t)
    (hkept : ∀ r, (g r).name = r.name ∧ (g r).approvedQuantity = r.approvedQuantity)
    (hs : ∀ r, r.status ∈ statuses → (g r).status ∈ statuses') :
    Filed i k statuses' t₀ (setIntent i.id g hg t) :=
  ⟨h.old, h.new, h.row, h.checks, h.intents.set fun r hr =>
    ⟨(hkept r).1.trans hr.1, (hkept r).2.trans hr.2.1, hs r hr.2.2⟩⟩

theorem Filed.setOrder {f : Order → Order} (hf : ∀ r, (f r).idempotencyKey = r.idempotencyKey)
    (h : Filed i k statuses t₀ t) (hfree : ¬ t₀.orders.HasKey k)
    (hrow : ∀ r, IsOrderOf i.id (f r)) :
    Filed i k statuses t₀ (setOrder k f hf t) := by
  refine ⟨fun r hr => ?_, fun r hr => ?_, (hasKey_setOrder hf).mpr h.row, h.checks,
    ⟨h.intents.now, h.intents.others⟩⟩
  · have hne : r.idempotencyKey ≠ k := fun heq => hfree (heq ▸ KeyedTable.hasKey_of_mem hr)
    exact List.mem_map.mpr ⟨r, h.old r hr, if_neg hne⟩
  · obtain ⟨r₀, hr₀, rfl⟩ := List.mem_map.mp hr
    by_cases hkey : r₀.idempotencyKey = k
    · rw [if_pos hkey]
      exact Or.inr ⟨(hf r₀).trans hkey, hrow r₀⟩
    · rw [if_neg hkey]
      exact h.new r₀ hr₀

end Filing

section Submission

variable {env : Env} {cfg : Settings} {w₀ : World} {i : OrderIntent} {k : String}

def AcceptsOf [Casing] (cfg : Settings) (i : OrderIntent) (k : String) (w₀ : World)
    (l : List AcceptedOrder) : Prop :=
  l = w₀.accepted ∨
    0 < orderedQty i ∧ l = w₀.accepted ++ [{ request := intentRequest cfg i k, plan := i.planKey }]

/-- The order of the intent is on file under `k`, and may be with the broker. -/
abbrev LeavesFiled [Casing] (cfg : Settings) (i : OrderIntent) (k : String) (statuses : List String)
    (w₀ : World) : World → Prop :=
  Leaves (AcceptsOf cfg i k w₀) (Filed i k statuses w₀.db.working) w₀

/-- The intent may have been refused, and no order is on file for it that was not. -/
abbrev LeavesUnfiled (i : OrderIntent) (statuses : List String) (w₀ : World) : World → Prop :=
  Leaves (· = w₀.accepted) (Unfiled i statuses w₀.db.working) w₀

/-- **What the dispatch of an approved intent can do.** -/
def Dispatched [Casing] (cfg : Settings) (i : OrderIntent) (k : String) (w₀ w : World) : Prop :=
  LeavesUnfiled i unfiledStatuses w₀ w ∨ LeavesFiled cfg i k filedStatuses w₀ w

theorem dispatched_of_lost [Casing] (h : Leaves (· = w₀.accepted) (fun _ => False) w₀ w) :
    Dispatched cfg i k w₀ w :=
  Or.inl (h.imp (fun _ hl => hl) fun _ ht => ht.elim)

theorem submittedIntent_kept (r : OrderIntent) : (submittedIntent r).name = r.name ∧
    (submittedIntent r).approvedQuantity = r.approvedQuantity := by
  refine ⟨?_, rfl⟩
  have hplan : (submittedIntent r).planKey = r.planKey := planKey_set rfl (by decide)
  unfold OrderIntent.name
  rw [hplan]
  rfl

theorem isOrderOf_submittingOrder [Casing] (now : Int) : IsOrderOf i.id (submittingOrder cfg i k now) := rfl

theorem isOrderOf_recoveredOrder {remote : OrderResult} (now : Int) :
    IsOrderOf i.id (recoveredOrder i k remote now) := rfl

variable [Casing]

theorem sendIntent_spec (hfree : ¬ w₀.db.working.orders.HasKey k) (hqty : 0 < orderedQty i) :
    Eff.Spec (Leaves (· = w₀.accepted) (Filed i k ["SUBMITTING"] w₀.db.working) w₀)
      (sendIntent env cfg i k) (fun _ => LeavesFiled cfg i k filedStatuses w₀)
      (fun _ => LeavesFiled cfg i k filedStatuses w₀) := by
  have hwiden : ∀ w, LeavesFiled cfg i k ["SUBMITTING"] w₀ w →
      LeavesFiled cfg i k filedStatuses w₀ w := fun w hw =>
    hw.imp (fun _ hl => hl) fun _ ht => ht.widen (by decide)
  refine Eff.Spec.bind ((brokerSubmit_leaves (AcceptsOf cfg i k w₀) fun l hl => ?_).weaken
    (fun _ hw => hw) (fun _ _ hw => hw) fun _ => hwiden) fun result => ?_
  · exact ⟨Or.inl hl, Or.inr ⟨hqty, by rw [hl]⟩⟩
  refine Eff.Spec.bind (write_leaves' fun t ht => ht.setOrder
    (f := submittedOrder cfg i result) (fun _ => rfl) hfree fun _ => rfl) fun _ => ?_
  refine Eff.Spec.bind (write_leaves' fun t ht => ht.set submittedIntent_kept fun _ _ => ?_)
    fun _ => keeps_flush calm_leaves
  show "SUBMITTED" ∈ filedStatuses
  decide

theorem recordFailure_spec (hfree : ¬ w₀.db.working.orders.HasKey k) (e : Fault) :
    Eff.Spec (LeavesFiled cfg i k filedStatuses w₀) (recordFailure env i k e)
      (fun _ => LeavesFiled cfg i k filedStatuses w₀)
      (fun _ => LeavesFiled cfg i k filedStatuses w₀) := by
  have hwritten : ∀ {f : Order → Order} (hf : ∀ r, (f r).idempotencyKey = r.idempotencyKey)
      (hrow : ∀ r, IsOrderOf i.id (f r)) (e : Fault),
      Eff.Keeps (LeavesFiled cfg i k filedStatuses w₀) (do
        write (setOrder k f hf)
        write (setStatus i.id .failed)
        flush env
        throw e : Prog Unit) := by
    intro f hf hrow e
    refine Eff.Spec.bind (write_leaves' fun t ht => ht.setOrder hf hfree hrow) fun _ => ?_
    refine Eff.Spec.bind (M := fun _ => LeavesFiled cfg i k filedStatuses w₀)
      (write_leaves' fun t ht => ht.set (fun _ => ⟨rfl, rfl⟩) fun _ _ => ?_) fun _ => ?_
    · show "FAILED" ∈ filedStatuses
      decide
    exact Eff.Spec.bind (keeps_flush calm_leaves) fun _ => Eff.keeps_throw
  cases e with
  | cancelled => exact Eff.keeps_throw
  | timeout => exact hwritten (f := unknownOrder i) (fun _ => rfl) (fun _ => rfl) .timeout
  | broker message =>
    exact hwritten (f := failedOrder i _) (fun _ => rfl) (fun _ => rfl) (.broker message)
  | workflow message =>
    exact hwritten (f := failedOrder i _) (fun _ => rfl) (fun _ => rfl) (.workflow message)
  | other message =>
    exact hwritten (f := failedOrder i _) (fun _ => rfl) (fun _ => rfl) (.other message)

theorem placeIntent_spec (hfree : ¬ w₀.db.working.orders.HasKey k) :
    Eff.Spec (LeavesUnfiled i ["APPROVED"] w₀) (placeIntent env cfg i k)
      (fun _ => Dispatched cfg i k w₀) (fun _ => Dispatched cfg i k w₀) := by
  refine Eff.Spec.bind (M := fun _ => LeavesUnfiled i ["SUBMITTING"] w₀) (write_leaves' fun t ht =>
    ht.set (fun _ => ⟨rfl, rfl⟩) fun _ _ => List.mem_singleton.mpr rfl) fun _ => ?_
  refine Eff.Spec.ite (fun _ => ?_) fun hqty => ?_
  · -- a quantity of zero
    have hfailed : ∀ {w}, LeavesUnfiled i ["FAILED"] w₀ w → Dispatched cfg i k w₀ w := fun hw =>
      Or.inl (hw.imp (fun _ hl => hl) fun _ ht => ht.widen (by decide))
    refine Eff.Spec.bind (M := fun _ => LeavesUnfiled i ["FAILED"] w₀) (write_leaves' fun t ht =>
      ht.set (fun _ => ⟨rfl, rfl⟩) fun _ _ => List.mem_singleton.mpr rfl) fun _ => ?_
    refine Eff.Spec.bind ((keeps_flush calm_leaves).weaken (fun _ hw => hw) (fun _ _ hw => hw)
      fun _ _ => hfailed) fun _ => Eff.Spec.throw fun _ => hfailed
  · have hfiled : ∀ {w}, Leaves (· = w₀.accepted) (Filed i k ["SUBMITTING"] w₀.db.working) w₀ w →
        Dispatched cfg i k w₀ w := fun hw =>
      Or.inr (hw.imp (fun _ hl => Or.inl hl) fun _ ht => ht.widen (by decide))
    refine Eff.Spec.bind (M := fun _ => LeavesUnfiled i ["SUBMITTING"] w₀)
      (Eff.Spec.read fun _ hw => hw) fun w₁ => ?_
    refine Eff.Spec.bind ((addOrder_leaves fun t orders ht _ hrows => ht.file (k := k) rfl
      (isOrderOf_submittingOrder _) hrows).weaken (fun _ hw => hw) (fun _ _ hw => hw) fun _ _ => dispatched_of_lost) fun _ => ?_
    refine Eff.Spec.bind ((keeps_flush calm_leaves).weaken (fun _ hw => hw) (fun _ _ hw => hw)
      fun _ _ => hfiled) fun _ => ?_
    refine (Eff.Spec.tryCatch (sendIntent_spec hfree (lt_of_not_ge hqty))
      (recordFailure_spec hfree)).weaken (fun _ hw => hw) (fun _ _ => Or.inr) fun _ _ => Or.inr

theorem dispatchIntent_spec (hfree : ¬ w₀.db.working.orders.HasKey k) :
    Eff.Spec (LeavesUnfiled i ["APPROVED"] w₀) (dispatchIntent env cfg i k)
      (fun _ => Dispatched cfg i k w₀) (fun _ => Dispatched cfg i k w₀) := by
  have hunsent : ∀ {w}, LeavesUnfiled i ["APPROVED"] w₀ w → Dispatched cfg i k w₀ w := fun hw =>
    Or.inl (hw.imp (fun _ hl => hl) fun _ ht => ht.widen (by decide))
  have hlook : Eff.Keeps (LeavesUnfiled i ["APPROVED"] w₀) (remoteOrder env k) := by
    unfold remoteOrder
    cases env.clientOrders with
    | none => exact Eff.keeps_pure
    | some lookup =>
      refine Eff.Keeps.bind (keeps_suspend calm_leaves) fun _ => Eff.Keeps.bind Eff.keeps_read
        fun w => ?_
      cases lookup w.ticks k with
      | ok remote => exact Eff.keeps_pure
      | error e => exact Eff.keeps_throw
  refine Eff.Spec.bind (hlook.weaken (fun _ hw => hw) (fun _ _ hw => hw) fun _ _ => hunsent)
    fun remote => ?_
  cases remote with
  | none => exact placeIntent_spec hfree
  | some remote =>
    refine Eff.Spec.bind (M := fun _ => LeavesUnfiled i ["APPROVED"] w₀)
      (Eff.Spec.read fun _ hw => hw) fun w₁ => ?_
    refine Eff.Spec.bind ((addOrder_leaves fun t orders ht _ hrows => ht.file (k := k) rfl
      (isOrderOf_recoveredOrder _) hrows).weaken (fun _ hw => hw) (fun _ _ hw => hw) fun _ _ => dispatched_of_lost) fun _ => ?_
    have hfiled : ∀ {w}, Leaves (· = w₀.accepted) (Filed i k filedStatuses w₀.db.working) w₀ w →
        Dispatched cfg i k w₀ w := fun hw => Or.inr (hw.imp (fun _ hl => Or.inl hl) fun _ ht => ht)
    refine Eff.Spec.bind (write_leaves' fun t ht => ht.set (fun _ => ⟨rfl, rfl⟩)
      fun _ _ => (show "SUBMITTED" ∈ filedStatuses by decide)) fun _ => ?_
    exact (keeps_flush calm_leaves).weaken (fun _ hw => hw) (fun _ _ => hfiled) fun _ _ => hfiled

end Submission

/-! ## The gates before it -/

/-- The intent is approved, and no order is on file under its client id. -/
structure Submits (digest : String → String) (id : Nat) (attempt : Int) (w : World)
    (i : OrderIntent) : Prop where
  usable : w.db.broken = false
  found : w.db.working.intents.find? id = some i
  approved : i.status = "APPROVED"
  fresh : ¬ w.db.working.orders.HasKey (makeClientOrderId digest i attempt)

theorem Submits.id_eq {digest : String → String} {id : Nat} {attempt : Int} {i : OrderIntent}
    (h : Submits digest id attempt w i) : i.id = id :=
  (KeyedTable.find?_eq_some_iff.mp h.found).2

section Gates

variable {env : Env} {cfg : Settings} {digest : String → String}
  {controls : TradingControlState} {id : Nat} {attempt : Int} {latestRecon : Option String}
  {w₀ : World} {i : OrderIntent} {k : String}

/-- **What one submission can do.** -/
def SubmitEffect [Casing] (cfg : Settings) (digest : String → String) (id : Nat) (attempt : Int)
    (w₀ w : World) : Prop :=
  Leaves (· = w₀.accepted) (· = w₀.db.working) w₀ w ∨
    ∃ i, Submits digest id attempt w₀ i ∧
      Dispatched cfg i (makeClientOrderId digest i attempt) w₀ w

theorem gateIntent_spec [Casing] (hfree : ¬ w₀.db.working.orders.HasKey k) :
    Eff.Spec (LeavesUnfiled i ["APPROVED"] w₀) (gateIntent env cfg controls i k)
      (fun _ => Dispatched cfg i k w₀) (fun _ => Dispatched cfg i k w₀) := by
  have hunfiled : ∀ {status w}, status ∈ unfiledStatuses → LeavesUnfiled i [status] w₀ w →
      Dispatched cfg i k w₀ w := fun hstatus hw =>
    Or.inl (hw.imp (fun _ hl => hl) fun _ ht => ht.widen fun s hs =>
      (List.mem_singleton.mp hs) ▸ hstatus)
  refine Eff.Spec.bind (M := fun _ => LeavesUnfiled i ["APPROVED"] w₀)
    (Eff.Spec.read fun _ hw => hw) fun w₁ => ?_
  dsimp only
  cases Pretrade.validate cfg controls (finalCheck cfg i (env.now w₁.ticks)) with
  | none => exact Eff.Spec.throw fun _ => hunfiled (by decide)
  | some hard =>
    refine Eff.Spec.ite (fun _ => ?_) fun _ => ?_
    · refine Eff.Spec.bind (M := fun _ => LeavesUnfiled i ["RISK_REJECTED"] w₀)
        (write_leaves' fun t ht => ht.set (fun _ => ⟨rfl, rfl⟩) fun _ _ =>
          List.mem_singleton.mpr rfl) fun _ => ?_
      exact Eff.Spec.bind ((keeps_flush calm_leaves).weaken (fun _ hw => hw) (fun _ _ hw => hw)
        fun _ _ => hunfiled (by decide)) fun _ => Eff.Spec.throw fun _ => hunfiled (by decide)
    · -- an aged approval is a warning, and no more than that
      have hwarned : ∀ r : OrderIntent, OrderIntent.name { r with
          metadata := Dict.set r.metadata "revalidation_warning" (.str "approval_aged") } =
            r.name := by
        intro r
        unfold OrderIntent.name
        have hplan : ({ r with
            metadata := Dict.set r.metadata "revalidation_warning" (.str "approval_aged") } :
              OrderIntent).planKey = r.planKey := planKey_set rfl (by decide)
        rw [hplan]
      refine Eff.Spec.ite (fun _ => ?_) fun _ => ?_
      · refine Eff.Spec.bind (write_leaves' fun t ht => ht.set (fun r => ⟨hwarned r, rfl⟩)
          fun r hr => hr) fun _ => dispatchIntent_spec hfree
      · exact dispatchIntent_spec hfree

theorem requireIntent_spec :
    Eff.Spec (· = w₀) (requireIntent env id)
      (fun i w => w₀.db.working.intents.find? id = some i ∧
        Leaves (· = w₀.accepted) (· = w₀.db.working) w₀ w)
      (fun _ => Leaves (· = w₀.accepted) (· = w₀.db.working) w₀) := by
  refine Eff.Spec.bind (query_leaves.pre fun w hw => hw ▸ Leaves.start w₀) fun found => ?_
  cases found with
  | none => exact Eff.Spec.throw fun _ hw => hw.1
  | some i =>
    refine Eff.Spec.pure fun w hw => ?_
    obtain ⟨hw, _, t, rfl, hfound⟩ := hw
    exact ⟨hfound.symm, hw⟩

/-- However the call ends, it did what one submission can do. -/
theorem submitIntent_spec [Casing] :
    Eff.Spec (· = w₀) (submitIntent env cfg digest controls id attempt latestRecon)
      (fun _ => SubmitEffect cfg digest id attempt w₀)
      (fun _ => SubmitEffect cfg digest id attempt w₀) := by
  refine Eff.Spec.bind (requireIntent_spec.weaken (fun _ hw => hw) (fun _ _ hw => hw)
    fun _ _ => Or.inl) fun i => ?_
  have hraise : ∀ e : Fault, Eff.Spec (fun w => w₀.db.working.intents.find? id = some i ∧
      Leaves (· = w₀.accepted) (· = w₀.db.working) w₀ w) (throw e : Prog Unit)
      (fun _ => SubmitEffect cfg digest id attempt w₀)
      (fun _ => SubmitEffect cfg digest id attempt w₀) := fun e =>
    Eff.Spec.throw fun _ hw => Or.inl hw.2
  cases submitGate cfg controls with
  | some message => exact hraise _
  | none =>
    refine Eff.Spec.ite (fun _ => hraise _) fun _ => ?_
    intro w hw
    obtain ⟨hfound, hw⟩ := hw
    refine Eff.Spec.bind (query_leaves.weaken (fun _ hw => hw) (fun _ _ hw => hw)
      fun _ _ => Or.inl) (fun existing => ?_) w hw
    refine Eff.Spec.ite (fun _ => Eff.Spec.pure fun _ hw => Or.inl hw.1) fun hnone => ?_
    refine Eff.Spec.ite (fun _ => Eff.Spec.throw fun _ hw => Or.inl hw.1) fun happroved => ?_
    cases reconciliationBlocks latestRecon i with
    | some message => exact Eff.Spec.throw fun _ hw => Or.inl hw.1
    | none =>
      have hstatus : i.status = "APPROVED" := not_not.mp happroved
      have hfree : ∀ {w}, (Leaves (· = w₀.accepted) (· = w₀.db.working) w₀ w ∧
          w₀.db.broken = false ∧ ∃ t, t = w₀.db.working ∧
            existing = t.orders.find? (makeClientOrderId digest i attempt)) →
          Submits digest id attempt w₀ i := by
        rintro w ⟨_, hb, t, rfl, rfl⟩
        refine ⟨hb, hfound, hstatus, KeyedTable.find?_eq_none_iff.mp ?_⟩
        simpa using hnone
      intro w hw
      have hsubmits := hfree hw
      refine (gateIntent_spec hsubmits.fresh).weaken (fun _ hw => hw)
        (fun _ _ hw => Or.inr ⟨i, hsubmits, hw⟩) (fun _ _ hw => Or.inr ⟨i, hsubmits, hw⟩) w ?_
      refine hw.1.imp (fun _ hl => hl) fun t ht => ?_
      rw [ht, ← hstatus]
      exact Unfiled.start (hsubmits.id_eq ▸ hfound)

end Gates

/-! ## The review of an intent -/

structure Checked (i : OrderIntent) (c : PretradeRiskCheck) (statuses : List String)
    (t₀ t : Tables) : Prop where
  own : c.intentId = i.id
  orders : t.orders = t₀.orders
  checks : t.checks = t₀.checks ++ [c]
  intents : IntentNow i.id (fun i' => i'.name = i.name ∧
    i'.approvedQuantity = some c.result.approvedQuantity ∧ i'.status ∈ statuses) t₀ t

def verdictStatuses : List String := ["RISK_REJECTED", "PENDING_APPROVAL", "APPROVED"]

/-- What `validate_intent` leaves of the intent it was called on. -/
def Validated (i : OrderIntent) (t₀ t : Tables) : Prop :=
  Unfiled i ["VALIDATING"] t₀ t ∨ ∃ c, Checked i c verdictStatuses t₀ t

/-- What `approve_intent` leaves of it: only what waits for an approval gets one. -/
def Approved (i : OrderIntent) (t₀ t : Tables) : Prop :=
  i.status = "PENDING_APPROVAL" ∧ Unfiled i ["APPROVED", "EXPIRED"] t₀ t

/-- What `reject_intent` leaves of it. -/
def Rejected (i : OrderIntent) (t₀ t : Tables) : Prop := Unfiled i ["REJECTED"] t₀ t

/-- **What a review can do.** The tables are as they were, or the intent is reviewed. -/
def ReviewEffect (reviewed : OrderIntent → Tables → Tables → Prop) (id : Nat) (w₀ w : World) :
    Prop :=
  Leaves (· = w₀.accepted) (fun t => t = w₀.db.working ∨
    ∃ i, w₀.db.working.intents.find? id = some i ∧ reviewed i w₀.db.working t) w₀ w

section Reviews

variable {env : Env} {id : Nat} {w₀ : World} {i : OrderIntent}
  {reviewed : OrderIntent → Tables → Tables → Prop}

theorem Unfiled.approvals {statuses : List String} {t₀ t : Tables} {rows : List OrderApproval}
    (h : Unfiled i statuses t₀ t) : Unfiled i statuses t₀ { t with approvals := rows } :=
  ⟨h.orders, h.checks, h.intents.now, h.intents.others⟩

theorem reviewEffect_none (h : Leaves (· = w₀.accepted) (· = w₀.db.working) w₀ w) :
    ReviewEffect reviewed id w₀ w :=
  h.imp (fun _ hl => hl) fun _ => Or.inl

theorem reviewEffect_some (hi : w₀.db.working.intents.find? id = some i)
    (h : Leaves (· = w₀.accepted) (reviewed i w₀.db.working) w₀ w) :
    ReviewEffect reviewed id w₀ w :=
  h.imp (fun _ hl => hl) fun _ ht => Or.inr ⟨i, hi, ht⟩

abbrev LeavesAll (w₀ : World) : World → Prop := Leaves (· = w₀.accepted) (· = w₀.db.working) w₀

theorem LeavesAll.unfiled (hi : w₀.db.working.intents.find? i.id = some i) (h : LeavesAll w₀ w) :
    LeavesUnfiled i [i.status] w₀ w := by
  refine h.imp (fun _ hl => hl) fun t ht => ?_
  rw [ht]
  exact Unfiled.start hi

theorem review_spec {p : OrderIntent → Prog Unit}
    (h : ∀ i, w₀.db.working.intents.find? i.id = some i → i.id = id →
      Eff.Spec (LeavesAll w₀) (p i) (fun _ => ReviewEffect reviewed id w₀)
        (fun _ => ReviewEffect reviewed id w₀)) :
    Eff.Spec (· = w₀) (requireIntent env id >>= p) (fun _ => ReviewEffect reviewed id w₀)
      (fun _ => ReviewEffect reviewed id w₀) := by
  refine Eff.Spec.bind (requireIntent_spec.weaken (fun _ hw => hw) (fun _ _ hw => hw)
    fun _ _ => reviewEffect_none) fun i w hw => ?_
  obtain ⟨hfound, hw⟩ := hw
  have hid : i.id = id := (KeyedTable.find?_eq_some_iff.mp hfound).2
  exact h i (hid.symm ▸ hfound) hid w hw

theorem flush_reviewed (hi : w₀.db.working.intents.find? i.id = some i) :
    Eff.Spec (Leaves (· = w₀.accepted) (reviewed i w₀.db.working) w₀) (flush env)
      (fun _ => ReviewEffect reviewed i.id w₀) (fun _ => ReviewEffect reviewed i.id w₀) :=
  (keeps_flush calm_leaves).weaken (fun _ hw => hw) (fun _ _ => reviewEffect_some hi)
    fun _ _ => reviewEffect_some hi

/-- However the call ends, it did what one review can do. -/
theorem validateIntent_spec {cfg : Settings} {controls : TradingControlState}
    {a : ValidateIntentArgs} [Casing] :
    Eff.Spec (· = w₀) (validateIntent env cfg controls id a)
      (fun _ => ReviewEffect Validated id w₀) (fun _ => ReviewEffect Validated id w₀) := by
  refine review_spec fun i hfound hid => ?_
  obtain rfl := hid
  refine Eff.Spec.bind (M := fun _ => LeavesUnfiled i ["VALIDATING"] w₀) (Eff.Spec.pre
    (write_leaves' fun t ht => ht.set (fun _ => ⟨rfl, rfl⟩) fun _ _ => List.mem_singleton.mpr rfl)
    fun _ hw => LeavesAll.unfiled hfound hw) fun _ => ?_
  refine Eff.Spec.bind (M := fun _ => LeavesUnfiled i ["VALIDATING"] w₀)
    (Eff.Spec.read fun _ hw => hw) fun w₁ => ?_
  dsimp only
  cases Pretrade.validate cfg controls (intentCheck i a (env.now w₁.ticks)) with
  | none =>
    exact Eff.Spec.throw fun _ hw => reviewEffect_some hfound
      (hw.imp (fun _ hl => hl) fun _ ht => Or.inl ht)
  | some result =>
    let c : PretradeRiskCheck := { intentId := i.id, decisionId := i.decisionId, result }
    let Stage (statuses : List String) : World → Prop :=
      Leaves (· = w₀.accepted) (Checked i c statuses w₀.db.working) w₀
    have hstore : Eff.Goes (LeavesUnfiled i ["VALIDATING"] w₀) (write (storeCheck i result))
        fun _ => Stage ["VALIDATING"] := by
      refine write_leaves fun t ht => ⟨rfl, ht.orders, by rw [← ht.checks]; rfl, ?_⟩
      have hown : IntentNow i.id (SameBut i ["VALIDATING"]) w₀.db.working
          { t with checks := t.checks ++ [c] } := ⟨ht.intents.now, ht.intents.others⟩
      exact hown.set fun r hr => ⟨hr.1, rfl, hr.2.2⟩
    have hverdict : Eff.Goes (Stage ["VALIDATING"])
        (write (setStatus i.id (verdictStatus cfg result.status))) fun _ => Stage verdictStatuses := by
      refine write_leaves fun t ht => ⟨rfl, ht.orders, ht.checks, ht.intents.set fun r hr =>
        ⟨hr.1, hr.2.1, ?_⟩⟩
      show (verdictStatus cfg result.status).value ∈ verdictStatuses
      unfold verdictStatus
      cases result.status <;> cases cfg.requireManualOrderApproval <;> decide
    have happroval : ∀ now expires : Int, Eff.Goes (Stage verdictStatuses)
        (write (addApproval i.id now expires)) fun _ => Stage verdictStatuses := fun now expires =>
      write_leaves fun t ht => ⟨rfl, ht.orders, ht.checks, ht.intents.now, ht.intents.others⟩
    have hend : Eff.Spec (Stage verdictStatuses) (flush env)
        (fun _ => ReviewEffect Validated i.id w₀) (fun _ => ReviewEffect Validated i.id w₀) :=
      (flush_reviewed hfound).pre fun _ hw => hw.imp (fun _ hl => hl) fun _ ht => Or.inr ⟨c, ht⟩
    have hnever : ∀ {α : Type} {P : World → Prop} {p : Prog α} {Q : α → World → Prop},
        Eff.Goes P p Q → Eff.Spec P p Q (fun _ => ReviewEffect Validated i.id w₀) := fun h =>
      h.weaken (fun _ hw => hw) (fun _ _ hw => hw) fun _ _ hw => hw.elim
    refine Eff.Spec.bind (hnever hstore) fun _ => Eff.Spec.bind (hnever hverdict) fun _ => ?_
    refine Eff.Spec.ite (fun _ => ?_) fun _ => hend
    exact Eff.Spec.bind (hnever (happroval _ _)) fun _ => hend

variable {actor : String}

theorem Unfiled.recordApproval {statuses : List String} {t₀ t : Tables} {now : Int}
    (h : Unfiled i statuses t₀ t) :
    Unfiled i ["APPROVED"] t₀ (recordApproval i.id actor now t) := by
  unfold Execution.recordApproval
  cases latestApproval i.id t with
  | none => exact h.set (fun _ => ⟨rfl, rfl⟩) fun _ _ => List.mem_singleton.mpr rfl
  | some approval =>
    have hacted : Unfiled i statuses t₀ (setApproval approval.id
        (fun a => { a with status := "APPROVED", actedBy := some actor, actedAt := some now }) t) :=
      h.approvals
    have hlinked : Unfiled i statuses t₀ (setIntent i.id
        (fun r => { r with approvalId := some approval.id }) (fun _ => rfl) _) :=
      hacted.set (fun _ => ⟨rfl, rfl⟩) fun _ hr => hr
    exact hlinked.set (fun _ => ⟨rfl, rfl⟩) fun _ _ => List.mem_singleton.mpr rfl

theorem approveIntent_spec :
    Eff.Spec (· = w₀) (approveIntent env id actor)
      (fun _ => ReviewEffect Approved id w₀) (fun _ => ReviewEffect Approved id w₀) := by
  refine review_spec fun i hfound hid => ?_
  obtain rfl := hid
  refine Eff.Spec.ite (fun _ => Eff.Spec.throw fun _ => reviewEffect_none) fun hpending => ?_
  have hpending : i.status = "PENDING_APPROVAL" := not_not.mp hpending
  refine Eff.Spec.bind ((keeps_query calm_leaves).weaken (fun _ hw => hw) (fun _ _ hw => hw)
    fun _ _ => reviewEffect_none) fun approval => ?_
  refine Eff.Spec.bind (M := fun _ => LeavesAll w₀) (Eff.Spec.read fun _ hw => hw) fun w₁ => ?_
  have hreviewed : ∀ {status w}, status ∈ ["APPROVED", "EXPIRED"] → LeavesUnfiled i [status] w₀ w →
      Leaves (· = w₀.accepted) (Approved i w₀.db.working) w₀ w := fun hstatus hw =>
    hw.imp (fun _ hl => hl) fun _ ht =>
      ⟨hpending, ht.widen fun s hs => (List.mem_singleton.mp hs) ▸ hstatus⟩
  dsimp only
  cases approval.filter fun a => a.expiresAt.any (· < env.now w₁.ticks) with
  | none =>
    refine Eff.Spec.bind (M := fun _ => LeavesUnfiled i ["APPROVED"] w₀) (Eff.Spec.pre
      (write_leaves' fun t ht => ht.recordApproval) fun _ hw => LeavesAll.unfiled hfound hw)
      fun _ => (flush_reviewed hfound).pre fun _ => hreviewed (by decide)
  | some expired =>
    refine Eff.Spec.bind (M := fun _ => LeavesUnfiled i [i.status] w₀) (Eff.Spec.pre
      (write_leaves' fun t ht => ht.approvals) fun _ hw => LeavesAll.unfiled hfound hw) fun _ => ?_
    refine Eff.Spec.bind (M := fun _ => LeavesUnfiled i ["EXPIRED"] w₀) (write_leaves' fun t ht =>
      ht.set (fun _ => ⟨rfl, rfl⟩) fun _ _ => List.mem_singleton.mpr rfl) fun _ => ?_
    exact Eff.Spec.bind ((flush_reviewed hfound).pre fun _ => hreviewed (by decide)) fun _ =>
      Eff.keeps_throw

theorem rejectIntent_spec :
    Eff.Spec (· = w₀) (rejectIntent env id actor)
      (fun _ => ReviewEffect Rejected id w₀) (fun _ => ReviewEffect Rejected id w₀) := by
  refine review_spec fun i hfound hid => ?_
  obtain rfl := hid
  refine Eff.Spec.bind ((keeps_query calm_leaves).weaken (fun _ hw => hw) (fun _ _ hw => hw)
    fun _ _ => reviewEffect_none) fun approval => ?_
  refine Eff.Spec.bind (M := fun _ => LeavesAll w₀) (Eff.Spec.read fun _ hw => hw) fun w₁ => ?_
  refine Eff.Spec.bind (M := fun _ => LeavesUnfiled i ["REJECTED"] w₀) (Eff.Spec.pre
    (write_leaves' fun t ht => ?_) fun _ hw => LeavesAll.unfiled hfound hw)
    fun _ => (flush_reviewed hfound).pre fun _ hw => hw
  unfold recordRejection
  cases latestApproval i.id t with
  | none => exact ht.set (fun _ => ⟨rfl, rfl⟩) fun _ _ => List.mem_singleton.mpr rfl
  | some approval =>
    exact ht.approvals.set (fun _ => ⟨rfl, rfl⟩) fun _ _ => List.mem_singleton.mpr rfl

end Reviews

end Investor.Execution
