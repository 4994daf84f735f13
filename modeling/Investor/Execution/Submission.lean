import Investor.Execution.OrderManager

/-!
# What a submission does to the world

One call of `_submit_one` for the key `k` may be cut short at any await and end in any
exception. Whatever happens (`SubmitStep`): nothing is committed, no order row is lost and
no order intent, and the broker accepts at most one order, for the given plan and with `k`
as its key. When it did accept one and the session is still usable, the row of `k` is
there.

`Frame` is the part of this that everything but the broker call keeps.
-/

namespace Investor.Execution

open Lib Schema Market Core

structure TablesKept (t t' : Tables) : Prop where
  keys : ∀ k, t.orders.HasKey k → t'.orders.HasKey k
  intents : t.intents.rows.map OrderIntent.name ⊆ t'.intents.rows.map OrderIntent.name

/-- Nothing is committed, and as long as the session can be used its tables are kept. -/
structure Frame (w₀ w : World) : Prop where
  committed : w.db.committed = w₀.db.committed
  usable : w.db.broken = false → w₀.db.broken = false ∧
    TablesKept w₀.db.working w.db.working

/-- What one submission of a plan under the key `k` may do. -/
structure SubmitStep (k plan : String) (w₀ w : World) : Prop where
  frame : Frame w₀ w
  accepted : OneMore k plan w₀.accepted w.accepted
  sent : OneMore k plan w₀.sent w.sent
  recorded : w.db.broken = false → w.accepted ≠ w₀.accepted ∨ w.sent ≠ w₀.sent →
    w.db.working.orders.HasKey k

/-! ## Rewriting rows -/

theorem TablesKept.refl (t : Tables) : TablesKept t t := ⟨fun _ h => h, List.Subset.refl _⟩

variable {t t' : Tables}

theorem TablesKept.trans {t'' : Tables} (h : TablesKept t t') (h' : TablesKept t' t'') :
    TablesKept t t'' :=
  ⟨fun k hk => h'.keys k (h.keys k hk), List.Subset.trans h.intents h'.intents⟩

theorem Frame.refl (w : World) : Frame w w := ⟨rfl, fun h => ⟨h, TablesKept.refl _⟩⟩

variable {w : World}

theorem Frame.trans {w₀ w' : World} (h : Frame w₀ w) (h' : Frame w w') : Frame w₀ w' := by
  refine ⟨h'.committed.trans h.committed, fun hb => ?_⟩
  obtain ⟨hb₁, hkept'⟩ := h'.usable hb
  obtain ⟨hb₀, hkept⟩ := h.usable hb₁
  exact ⟨hb₀, hkept.trans hkept'⟩

variable {key : String} {f : Order → Order}

theorem hasKey_setOrder (hf : ∀ r, (f r).idempotencyKey = r.idempotencyKey) {k : String} :
    (setOrder key f hf t).orders.HasKey k ↔ t.orders.HasKey k :=
  KeyedTable.hasKey_update fun r => by split <;> simp [hf]

theorem TablesKept.setOrder (hf : ∀ r, (f r).idempotencyKey = r.idempotencyKey)
    (h : TablesKept t t') : TablesKept t (setOrder key f hf t') :=
  ⟨fun k hk => (hasKey_setOrder hf).mpr (h.keys k hk), h.intents⟩

variable {row : Order}

theorem TablesKept.insert {orders : OrderTable} (h : TablesKept t t')
    (hins : t'.orders.insert row = some orders) : TablesKept t { t' with orders } := by
  obtain ⟨_, hrows⟩ := KeyedTable.insert_eq_some hins
  refine ⟨fun k hk => ?_, h.intents⟩
  obtain ⟨r, hr, rfl⟩ := KeyedTable.hasKey_iff.mp (h.keys k hk)
  exact KeyedTable.hasKey_of_mem (by rw [hrows]; exact List.mem_append_left _ hr)

/-! ## Programs that keep the frame -/

def Quiet (w₀ w : World) : Prop :=
  Frame w₀ w ∧ w.accepted = w₀.accepted ∧ w.sent = w₀.sent

theorem Frame.abort {w₀ : World} (h : Frame w₀ w) : Frame w₀ { w with db := w.db.abort } :=
  ⟨h.committed, fun hbroken => absurd hbroken (by simp)⟩

theorem Frame.write {w₀ : World} {f : Tables → Tables} (h : Frame w₀ w)
    (hf : TablesKept w₀.db.working w.db.working →
      TablesKept w₀.db.working (f w.db.working)) : Frame w₀ { w with db := w.db.write f } :=
  ⟨h.committed, fun hb => ⟨(h.usable hb).1, hf (h.usable hb).2⟩⟩

theorem calm_quiet (w₀ : World) : Calm (Quiet w₀) where
  tick := fun _ h => ⟨⟨h.1.committed, h.1.usable⟩, h.2⟩
  abort := fun _ h => ⟨h.1.abort, h.2⟩

section Keeps

variable {env : Env} {I : World → Prop}

/-- An assertion that awaits, failed flushes and rewritten order rows keep. -/
structure OrdersFree (I : World → Prop) : Prop extends Calm I where
  set : ∀ {w key} {f : Order → Order} (hf : ∀ r, (f r).idempotencyKey = r.idempotencyKey),
    I w → I { w with db := w.db.write (setOrder key f hf) }

theorem keeps_setOrder (hf : ∀ r, (f r).idempotencyKey = r.idempotencyKey) (hI : OrdersFree I) :
    Eff.Keeps I (write (setOrder key f hf)) :=
  Eff.keeps_edit fun _ h => hI.set hf h

theorem keeps_cancelOrder (hI : OrdersFree I) : Eff.Keeps I (cancelOrder env key) := by
  have hcalm := hI.toCalm
  refine Eff.Keeps.bind (keeps_query hcalm) fun found => ?_
  cases found with
  | none => exact Eff.keeps_throw
  | some row =>
    dsimp only
    cases row.brokerId? with
    | none => exact Eff.Keeps.bind (keeps_setOrder _ hI) fun _ => keeps_flush hcalm
    | some oid =>
      refine Eff.Keeps.bind (Eff.Keeps.attempt (keeps_brokerCancel hcalm)) fun ended => ?_
      cases ended with
      | ok status => exact Eff.Keeps.bind (keeps_setOrder _ hI) fun _ => keeps_flush hcalm
      | error e =>
        cases e with
        | broker message =>
          exact Eff.Keeps.bind (keeps_flush hcalm) fun _ =>
            Eff.Keeps.bind Eff.keeps_throw fun _ => keeps_flush hcalm
        | cancelled => exact Eff.Keeps.bind Eff.keeps_throw fun _ => keeps_flush hcalm
        | timeout => exact Eff.Keeps.bind Eff.keeps_throw fun _ => keeps_flush hcalm
        | workflow message => exact Eff.Keeps.bind Eff.keeps_throw fun _ => keeps_flush hcalm
        | other message => exact Eff.Keeps.bind Eff.keeps_throw fun _ => keeps_flush hcalm

theorem keeps_recoverTimeout {intent : ValidatedOrderIntent} (hI : OrdersFree I) :
    Eff.Keeps I (recoverTimeout env intent) := by
  have hcalm := hI.toCalm
  refine Eff.Keeps.bind (keeps_setOrder _ hI) fun _ => ?_
  refine Eff.Keeps.bind (keeps_flush hcalm) fun _ => ?_
  cases env.clientOrders with
  | none => exact Eff.keeps_pure
  | some lookup =>
    refine Eff.Keeps.bind (keeps_suspend hcalm) fun _ => Eff.Keeps.bind Eff.keeps_read fun w => ?_
    cases lookup w.ticks intent.idempotencyKey with
    | error e => exact Eff.keeps_throw
    | ok found =>
      cases found with
      | none => exact Eff.keeps_pure
      | some remote => exact keeps_setOrder _ hI

theorem keeps_recordAnswer {intent : ValidatedOrderIntent} (hI : OrdersFree I)
    (ended : Except Fault OrderResult) : Eff.Keeps I (recordAnswer env intent ended) := by
  have hcalm := hI.toCalm
  cases ended with
  | ok result => exact Eff.Keeps.bind (keeps_setOrder _ hI) fun _ => keeps_flush hcalm
  | error e =>
    cases e with
    | timeout => exact keeps_recoverTimeout hI
    | cancelled => exact Eff.keeps_throw
    | workflow message => exact Eff.keeps_throw
    | other message => exact Eff.keeps_throw
    | broker message => exact Eff.Keeps.bind (keeps_setOrder _ hI) fun _ => keeps_flush hcalm

theorem ordersFree_quiet (w₀ : World) : OrdersFree (Quiet w₀) where
  toCalm := calm_quiet w₀
  set := fun hf h => ⟨h.1.write fun ht => ht.setOrder hf, h.2⟩

variable [Casing]

theorem keeps_cancelWorking {symbol side : String} (hI : OrdersFree I) :
    Eff.Keeps I (cancelWorkingForSymbol env symbol side) := by
  refine Eff.Keeps.bind (keeps_query hI.toCalm) fun rows => ?_
  refine Eff.keeps_forEach fun row => Eff.Keeps.tryCatch (keeps_cancelOrder hI) fun e => ?_
  exact Eff.Keeps.ite Eff.keeps_pure Eff.keeps_throw

theorem keeps_skipsExit {intent : ValidatedOrderIntent} (hI : OrdersFree I) :
    Eff.Keeps I (skipsExit env intent) := by
  refine Eff.Keeps.ite Eff.keeps_pure ?_
  refine Eff.Keeps.bind (keeps_query hI.toCalm) fun working => ?_
  refine Eff.Keeps.ite Eff.keeps_pure (Eff.Keeps.ite ?_ Eff.keeps_pure)
  refine Eff.Keeps.bind Eff.keeps_read fun w => Eff.Keeps.ite Eff.keeps_pure ?_
  exact Eff.Keeps.bind (keeps_cancelWorking hI) fun _ => Eff.keeps_pure

end Keeps

/-! ## The row and the broker call -/

def OnFile (k : String) (w₀ w : World) : Prop :=
  Quiet w₀ w ∧ (w.db.broken = false → w.db.working.orders.HasKey k)

def Sent (k plan : String) (w₀ w : World) : Prop :=
  SubmitStep k plan w₀ w ∧ (w.db.broken = false → w.db.working.orders.HasKey k)

abbrev SelfSent (k : String) : World → World → Prop := Sent k k

theorem calm_onFile (k : String) (w₀ : World) : Calm (OnFile k w₀) where
  tick := fun w h => ⟨(calm_quiet w₀).tick w h.1, h.2⟩
  abort := fun w h => ⟨(calm_quiet w₀).abort w h.1, fun hb => absurd hb (by simp)⟩

theorem calm_submitStep (k plan : String) (w₀ : World) : Calm (SubmitStep k plan w₀) where
  tick := fun _ h => ⟨⟨h.frame.committed, h.frame.usable⟩, h.accepted, h.sent, h.recorded⟩
  abort := fun _ h => ⟨h.frame.abort, h.accepted, h.sent, fun hb => absurd hb (by simp)⟩

theorem calm_sent (k plan : String) (w₀ : World) : Calm (Sent k plan w₀) where
  tick := fun w h => ⟨(calm_submitStep k plan w₀).tick w h.1, h.2⟩
  abort := fun w h => ⟨(calm_submitStep k plan w₀).abort w h.1, fun hb => absurd hb (by simp)⟩

theorem Quiet.step {k plan : String} {w₀ : World} (h : Quiet w₀ w) : SubmitStep k plan w₀ w :=
  ⟨h.1, Or.inl h.2.1, Or.inl h.2.2, fun _ hne =>
    (hne.elim (fun hne => hne h.2.1) fun hne => hne h.2.2).elim⟩

theorem OnFile.sent {k plan : String} {w₀ : World} (h : OnFile k w₀ w) : Sent k plan w₀ w :=
  ⟨h.1.step, h.2⟩

section Row

variable {env : Env} {w₀ : World} {k plan : String}

theorem addOrder_spec (hkey : row.idempotencyKey = k) :
    Eff.Spec (Quiet w₀) (addOrder row) (fun _ => OnFile k w₀) (fun _ => Quiet w₀) := by
  intro w hw
  unfold addOrder
  cases hins : w.db.working.orders.insert row with
  | none =>
    simp only [bind, Eff.read, hins]
    exact (calm_quiet w₀).abort w hw
  | some orders =>
    simp only [bind, Eff.read, hins]
    refine ⟨⟨hw.1.write fun ht => ht.insert hins, hw.2⟩, fun _ => ?_⟩
    obtain ⟨_, hrows⟩ := KeyedTable.insert_eq_some hins
    subst hkey
    refine KeyedTable.hasKey_of_mem ?_
    show row ∈ orders.rows
    rw [hrows]
    exact List.mem_append_right _ (List.mem_singleton.mpr rfl)

theorem ordersFree_sent : OrdersFree (Sent k plan w₀) where
  toCalm := calm_sent k plan w₀
  set := fun hf h => ⟨⟨h.1.frame.write fun ht => ht.setOrder hf, h.1.accepted, h.1.sent,
    fun hb _ => (hasKey_setOrder hf).mpr (h.2 hb)⟩, fun hb => (hasKey_setOrder hf).mpr (h.2 hb)⟩

theorem brokerSubmit_spec {req : OrderRequest} (hkey : req.idempotencyKey = k) :
    Eff.Spec (OnFile k w₀) (brokerSubmit env plan req) (fun _ => Sent k plan w₀)
      (fun _ => Sent k plan w₀) := by
  refine Eff.Spec.bind ((keeps_suspend (calm_onFile k w₀)).weaken (fun _ h => h) (fun _ _ h => h)
    fun _ _ h => h.sent) fun _ => ?_
  refine Eff.Spec.bind (M := fun _ => OnFile k w₀) (Eff.Spec.read fun w hw => hw) fun w₁ => ?_
  generalize env.submitAnswer w₁.ticks req = answer
  -- the order is handed over, and then accepted or not
  refine Eff.Spec.bind (M := fun _ w => Sent k plan w₀ w ∧ w.accepted = w₀.accepted)
    (Eff.Spec.edit fun w hw => ?_) fun _ => ?_
  · refine ⟨⟨⟨⟨hw.1.1.committed, hw.1.1.usable⟩, Or.inl hw.1.2.1, Or.inr ⟨req, hkey, ?_⟩,
      fun hb _ => hw.2 hb⟩, hw.2⟩, hw.1.2.1⟩
    show w.sent ++ _ = _
    rw [hw.1.2.2]
  refine Eff.Spec.bind (M := fun _ => Sent k plan w₀) (Eff.Spec.edit fun w hw => ?_) fun _ => ?_
  · split
    · refine ⟨⟨⟨hw.1.1.frame.committed, hw.1.1.frame.usable⟩, Or.inr ⟨req, hkey, ?_⟩, hw.1.1.sent,
        fun hb _ => hw.1.2 hb⟩, hw.1.2⟩
      show w.accepted ++ _ = _
      rw [hw.2]
    · exact hw.1
  · refine Eff.Keeps.bind (keeps_suspend (calm_sent k plan w₀)) fun _ => ?_
    cases answer.reply with
    | ok result => exact Eff.keeps_pure
    | error e => exact Eff.keeps_throw

end Row

/-! ## One submission -/

section Submit

variable [Casing] {env : Env} {cfg : Settings} {w₀ : World} {intent : ValidatedOrderIntent}
  {decisionId : Option String}

theorem claimRow_spec :
    Eff.Spec (Quiet w₀) (claimRow env cfg intent decisionId)
      (fun claimed w => Quiet w₀ w ∧ (claimed = true → OnFile intent.idempotencyKey w₀ w))
      (fun _ => Quiet w₀) := by
  refine Eff.Spec.bind (query_spec (calm_quiet w₀)) fun existing => ?_
  cases existing with
  | none =>
    refine Eff.Spec.bind (M := fun _ => Quiet w₀) (Eff.Spec.read fun w hw => hw.1) fun w => ?_
    refine Eff.Spec.bind (addOrder_spec rfl) fun _ => ?_
    exact Eff.Spec.pure fun w hw => ⟨hw.1, fun _ => hw⟩
  | some row =>
    refine Eff.Spec.ite (fun _ => Eff.Spec.pure fun w hw => ⟨hw.1, fun h => by cases h⟩)
      fun _ => ?_
    refine Eff.Spec.bind (M := fun _ => OnFile intent.idempotencyKey w₀)
      (Eff.Spec.edit fun w hw => ?_) fun _ => Eff.Spec.pure fun w hw => ⟨hw.1, fun _ => hw⟩
    obtain ⟨hquiet, _, hfound⟩ := hw
    obtain ⟨hrow, hkey⟩ := KeyedTable.find?_eq_some_iff.mp hfound.symm
    refine ⟨⟨hquiet.1.write fun ht => ht.setOrder _, hquiet.2⟩, fun _ => ?_⟩
    exact (hasKey_setOrder (f := resubmitted cfg intent) fun _ => rfl).mpr
      (KeyedTable.hasKey_iff.mpr ⟨row, hrow, hkey⟩)

theorem sendOrder_spec :
    Eff.Spec (OnFile intent.idempotencyKey w₀) (sendOrder env cfg intent)
      (fun _ => SelfSent intent.idempotencyKey w₀) (fun _ => SelfSent intent.idempotencyKey w₀) := by
  have hlive : Eff.Keeps (OnFile intent.idempotencyKey w₀) (fetchLive env cfg intent) := by
    refine Eff.Keeps.ite (Eff.Keeps.bind (keeps_suspend (calm_onFile _ w₀)) fun _ => ?_)
      Eff.keeps_pure
    exact Eff.Keeps.bind Eff.keeps_read fun _ => Eff.keeps_pure
  refine Eff.Spec.bind (M := fun _ => OnFile intent.idempotencyKey w₀) (Eff.Spec.map
    (hlive.weaken (fun _ h => h) (fun _ _ h => h) fun e _ h => h.sent)) fun terms => ?_
  exact Eff.Spec.ite (fun _ => Eff.Spec.throw fun w hw => hw.sent)
    fun _ => brokerSubmit_spec rfl

/-- However it ends, it did what one submission under its key can do. -/
theorem submitOne_spec :
    Eff.Spec (· = w₀) (submitOne env cfg intent decisionId)
      (fun _ => SubmitStep intent.idempotencyKey intent.idempotencyKey w₀)
      (fun _ => SubmitStep intent.idempotencyKey intent.idempotencyKey w₀) := by
  have hquiet : Eff.Spec (· = w₀) (skipsExit env intent) (fun _ => Quiet w₀)
      (fun _ => SubmitStep intent.idempotencyKey intent.idempotencyKey w₀) :=
    (keeps_skipsExit (ordersFree_quiet w₀)).weaken (fun w hw => hw ▸ ⟨Frame.refl _, rfl, rfl⟩) (fun _ _ h => h)
      fun _ _ h => h.step
  refine Eff.Spec.bind hquiet fun skipped => Eff.Spec.ite
    (fun _ => Eff.Spec.pure fun w h => h.step) fun _ => ?_
  refine Eff.Spec.bind (claimRow_spec.weaken (fun _ h => h) (fun _ _ h => h) fun _ _ h => h.step)
    fun claimed => Eff.Spec.ite (fun _ => Eff.Spec.pure fun w h => h.1.step) fun hclaimed => ?_
  refine Eff.Spec.bind (M := fun _ => OnFile intent.idempotencyKey w₀) ?_ fun _ => ?_
  · refine (keeps_flush (calm_onFile intent.idempotencyKey w₀)).weaken (fun w h => h.2 ?_)
      (fun _ _ h => h) fun _ _ h => h.1.step
    simpa using hclaimed
  refine Eff.Spec.bind (M := fun _ => SelfSent intent.idempotencyKey w₀)
    (Eff.Spec.attempt sendOrder_spec) fun ended => ?_
  refine Eff.Spec.bind (M := fun _ => SelfSent intent.idempotencyKey w₀)
    ((keeps_recordAnswer ordersFree_sent ended).weaken (fun _ h => h) (fun _ _ h => h) fun _ _ h => h.1) fun _ => ?_
  exact Eff.Spec.pure fun w h => h.1

end Submit

/-! ## Assertions that look at no order -/

/-- An assertion that no part of a submission can break. -/
structure SubmitFree (I : World → Prop) : Prop extends OrdersFree I where
  insert : ∀ {w : World} {row : Order} {orders : OrderTable},
    w.db.working.orders.insert row = some orders → I w →
    I { w with db := w.db.write fun t => { t with orders } }
  accept : ∀ {w : World} (o : AcceptedOrder), I w → I { w with accepted := w.accepted ++ [o] }
  send : ∀ {w : World} (o : AcceptedOrder), I w → I { w with sent := w.sent ++ [o] }

section SubmitFree

variable {env : Env} {cfg : Settings} {I : World → Prop}

theorem keeps_addOrder (hI : SubmitFree I) : Eff.Keeps I (addOrder row) := by
  intro w hw
  unfold addOrder
  cases hins : w.db.working.orders.insert row with
  | none =>
    simp only [bind, Eff.read, hins]
    exact hI.abort w hw
  | some orders =>
    simp only [bind, Eff.read, hins]
    exact hI.insert hins hw

theorem keeps_brokerSubmit {plan : String} {req : OrderRequest} (hI : SubmitFree I) :
    Eff.Keeps I (brokerSubmit env plan req) := by
  refine Eff.Keeps.bind (keeps_suspend hI.toCalm) fun _ => Eff.Keeps.bind Eff.keeps_read fun w => ?_
  refine Eff.Keeps.bind (Eff.keeps_edit fun w hw => hI.send _ hw) fun _ => ?_
  refine Eff.Keeps.bind (Eff.keeps_edit fun w hw => ?_) fun _ => ?_
  · split
    · exact hI.accept _ hw
    · exact hw
  · refine Eff.Keeps.bind (keeps_suspend hI.toCalm) fun _ => ?_
    cases (env.submitAnswer w.ticks req).reply with
    | ok result => exact Eff.keeps_pure
    | error e => exact Eff.keeps_throw

variable [Casing]

theorem keeps_claimRow {intent : ValidatedOrderIntent} {decisionId : Option String}
    (hI : SubmitFree I) : Eff.Keeps I (claimRow env cfg intent decisionId) := by
  refine Eff.Keeps.bind (keeps_query hI.toCalm) fun existing => ?_
  cases existing with
  | none =>
    refine Eff.Keeps.bind Eff.keeps_read fun w => ?_
    exact Eff.Keeps.bind (keeps_addOrder hI) fun _ => Eff.keeps_pure
  | some row =>
    refine Eff.Keeps.ite Eff.keeps_pure ?_
    exact Eff.Keeps.bind (keeps_setOrder _ hI.toOrdersFree) fun _ => Eff.keeps_pure

theorem keeps_sendOrder {intent : ValidatedOrderIntent} (hI : SubmitFree I) :
    Eff.Keeps I (sendOrder env cfg intent) := by
  have hlive : Eff.Keeps I (fetchLive env cfg intent) := by
    refine Eff.Keeps.ite (Eff.Keeps.bind (keeps_suspend hI.toCalm) fun _ => ?_) Eff.keeps_pure
    exact Eff.Keeps.bind Eff.keeps_read fun _ => Eff.keeps_pure
  refine Eff.Keeps.bind (Eff.Spec.map hlive) fun terms => ?_
  exact Eff.Keeps.ite Eff.keeps_throw (keeps_brokerSubmit hI)

theorem keeps_submitOne_free {intent : ValidatedOrderIntent} {decisionId : Option String}
    (hI : SubmitFree I) : Eff.Keeps I (submitOne env cfg intent decisionId) := by
  refine Eff.Keeps.bind (keeps_skipsExit hI.toOrdersFree) fun skipped =>
    Eff.Keeps.ite Eff.keeps_pure ?_
  refine Eff.Keeps.bind (keeps_claimRow hI) fun claimed => Eff.Keeps.ite Eff.keeps_pure ?_
  refine Eff.Keeps.bind (keeps_flush hI.toCalm) fun _ => ?_
  refine Eff.Keeps.bind (Eff.Keeps.attempt (keeps_sendOrder hI)) fun ended => ?_
  exact Eff.Keeps.bind (keeps_recordAnswer hI.toOrdersFree ended) fun _ => Eff.keeps_pure

theorem keeps_submitEach_of {decisionId : Option String} {intents : List ValidatedOrderIntent}
    (h : ∀ intent, Eff.Keeps I (submitOne env cfg intent decisionId)) :
    Eff.Keeps I (submitEach env cfg decisionId intents) := by
  induction intents with
  | nil => exact Eff.keeps_pure
  | cons intent intents ih =>
    exact Eff.Keeps.bind (h intent) fun _ => Eff.Keeps.bind ih fun _ => Eff.keeps_pure

theorem keeps_submitValidated_free {controls : TradingControlState}
    {validation : ExecutionValidationResult} {decisionId : Option String} (hI : SubmitFree I) :
    Eff.Keeps I (submitValidatedIntents env cfg controls validation decisionId) :=
  Eff.Keeps.ite (Eff.Keeps.bind (keeps_flush hI.toCalm) fun _ => Eff.keeps_pure)
    (keeps_submitEach_of fun _ => keeps_submitOne_free hI)

end SubmitFree

end Investor.Execution
