import Investor.Execution.Submission

/-!
# What is sent where nothing hinders

Where no await is cancelled, no flush fails and the broker accepts what it is sent, an intent
whose key is not on file is sent, unless it is a partial exit and an order of its symbol and
side is working (`HeldBack`). A batch sends something exactly where it holds such an intent.
-/

namespace Investor.Execution

open Lib Schema Market Core

/-- Nothing is cancelled, no flush fails, and the broker accepts every order. -/
structure SendsFreely (env : Env) : Prop where
  uncut : ∀ n, env.cut n = false
  flushes : ∀ n, env.flushFails n = false
  accepts : ∀ n req, (env.submitAnswer n req).accepts = true
  /-- A cancellation at the broker may be refused, but is not itself cancelled. -/
  cancels : ∀ n oid, env.cancelAnswer n oid ≠ .error .cancelled

section Sending

variable {env : Env} {cfg : Settings} {x : ValidatedOrderIntent}
  {decisionId : Option String} {n : ℕ} {t : Tables}

/-- `_submit_one` leaves a partial exit to the working order of its symbol and side. -/
def HeldBack [Casing] (t : Tables) (x : ValidatedOrderIntent) : Prop :=
  isPartialExit x = true ∧ workingSameSide x.symbol x.side.value t ≠ []

/-- The session can be used, has no row of the key, and so many orders at least are
    accepted. -/
def Unsent (n : ℕ) (key : String) (w : World) : Prop :=
  w.db.broken = false ∧ ¬ w.db.working.orders.HasKey key ∧ n ≤ w.accepted.length

def SentMore (n : ℕ) (w : World) : Prop := n < w.accepted.length

theorem submitFree_sentMore (n : ℕ) : SubmitFree (SentMore n) where
  tick := fun _ h => h
  abort := fun _ h => h
  set := fun _ h => h
  insert := fun _ h => h
  accept := fun o h => by
    unfold SentMore at h ⊢
    rw [List.length_append]
    omega
  send := fun _ h => h

/-! ## Awaits, queries and flushes -/

section Free

variable {P : World → Prop}

theorem suspend_free (h : SendsFreely env) (htick : ∀ w, P w → P w.tick) :
    Eff.Goes P (suspend env) fun _ => P := by
  intro w hw
  have hawait : suspend env w = (.ok (), w.tick) := by simp [suspend, h.uncut]
  rw [hawait]
  exact htick w hw

theorem query_free {α : Type} {f : Tables → α} (h : SendsFreely env) (htick : ∀ w, P w → P w.tick)
    (husable : ∀ w, P w → w.db.broken = false) :
    Eff.Goes P (query env f) fun a w => P w ∧ a = f w.db.working := by
  refine Eff.Spec.bind (suspend_free h htick) fun _ => ?_
  intro w hw
  simp only [bind, Eff.read, husable w hw, Bool.false_eq_true, if_false]
  exact ⟨hw, rfl⟩

theorem flush_free (h : SendsFreely env) (htick : ∀ w, P w → P w.tick)
    (husable : ∀ w, P w → w.db.broken = false) :
    Eff.Goes P (flush env) fun _ => P := by
  refine Eff.Spec.bind (suspend_free h htick) fun _ => ?_
  intro w hw
  simp only [bind, Eff.read, husable w hw, h.flushes, Bool.false_eq_true, if_false]
  exact hw

end Free

/-! ## The exit checks -/

theorem cancelOrder_free (h : SendsFreely env) {key key' : String} :
    Eff.Spec (Unsent n key) (cancelOrder env key') (fun _ => Unsent n key)
      (fun e w => e.isException ∧ Unsent n key w) := by
  have hset : ∀ {f : Order → Order} (hf : ∀ r, (f r).idempotencyKey = r.idempotencyKey),
      Eff.Spec (Unsent n key) (write (setOrder key' f hf)) (fun _ => Unsent n key)
        (fun e w => e.isException ∧ Unsent n key w) := fun hf =>
    Eff.Spec.edit fun w hw => ⟨hw.1, fun hkey => hw.2.1 ((hasKey_setOrder hf).mp hkey), hw.2.2⟩
  have hflush : Eff.Spec (Unsent n key) (flush env) (fun _ => Unsent n key)
      (fun e w => e.isException ∧ Unsent n key w) :=
    (flush_free h (fun _ hw => hw) fun _ hw => hw.1).weaken (fun _ hw => hw) (fun _ _ hw => hw)
      fun _ _ hw => hw.elim
  refine Eff.Spec.bind ((query_free (P := Unsent n key) h (fun _ hw => hw) fun _ hw => hw.1).weaken
    (fun _ hw => hw) (fun _ _ hw => hw.1) fun _ _ hw => hw.elim) fun found => ?_
  cases found with
  | none => exact Eff.Spec.throw fun w hw => ⟨rfl, hw⟩
  | some row =>
    dsimp only
    cases row.brokerId? with
    | none => exact Eff.Spec.bind (hset _) fun _ => hflush
    | some oid =>
      have hcancel : Eff.Goes (Unsent n key) (Eff.attempt (brokerCancel env oid))
          (fun ended w => ended ≠ .error .cancelled ∧ Unsent n key w) := by
        refine Eff.Spec.attempt (Eff.Spec.bind ((suspend_free h fun _ hw => hw).weaken
          (fun _ hw => hw) (fun _ _ hw => hw) fun _ _ hw => hw.elim) fun _ => ?_)
        refine Eff.Spec.bind (M := fun _ => Unsent n key) (Eff.Spec.read fun _ hw => hw)
          fun w₁ => ?_
        cases hanswer : env.cancelAnswer w₁.ticks oid with
        | ok status => exact Eff.Spec.pure fun w hw => ⟨by simp, hw⟩
        | error e =>
          refine Eff.Spec.throw fun w hw => ⟨fun heq => ?_, hw⟩
          rw [Except.error.inj heq] at hanswer
          exact h.cancels _ _ hanswer
      refine Eff.Spec.bind (hcancel.weaken (fun _ hw => hw) (fun _ _ hw => hw)
        fun _ _ hw => hw.elim) fun ended => ?_
      have hraise : ∀ e : Fault, e ≠ .cancelled → Eff.Spec
          (fun w => ended ≠ .error .cancelled ∧ Unsent n key w) (throw e : Prog Unit)
          (fun _ => Unsent n key) (fun e w => e.isException ∧ Unsent n key w) := fun e he =>
        Eff.Spec.throw fun w hw => ⟨by cases e <;> first | rfl | exact absurd rfl he, hw.2⟩
      cases ended with
      | ok status =>
        exact Eff.Spec.bind ((hset _).pre fun w hw => hw.2) fun _ => hflush
      | error e =>
        cases e with
        | cancelled =>
          exact Eff.Spec.bind (M := fun _ => Unsent n key)
            (Eff.Spec.throw fun w hw => absurd rfl hw.1) fun _ => hflush
        | broker message =>
          refine Eff.Spec.bind (hflush.pre fun w hw => hw.2) fun _ =>
            Eff.Spec.bind (M := fun _ => Unsent n key)
              (Eff.Spec.throw fun w hw => ⟨rfl, hw⟩) fun _ => hflush
        | timeout => exact Eff.Spec.bind (hraise _ (by simp)) fun _ => hflush
        | workflow message => exact Eff.Spec.bind (hraise _ (by simp)) fun _ => hflush
        | other message => exact Eff.Spec.bind (hraise _ (by simp)) fun _ => hflush

theorem forEach_free {ι : Type} {P : World → Prop} {f : ι → Prog Unit} {xs : List ι}
    (hf : ∀ i, Eff.Goes P (f i) fun _ => P) : Eff.Goes P (Eff.forEach f xs) fun _ => P := by
  induction xs with
  | nil => exact Eff.Spec.pure fun _ hw => hw
  | cons i xs ih => exact Eff.Spec.bind (hf i) fun _ => ih

section

variable [Casing]

theorem cancelWorking_free (h : SendsFreely env) {key symbol side : String} :
    Eff.Goes (Unsent n key) (cancelWorkingForSymbol env symbol side) fun _ => Unsent n key := by
  refine Eff.Spec.bind ((query_free (P := Unsent n key) h (fun _ hw => hw) fun _ hw => hw.1).weaken
    (fun _ hw => hw) (fun _ _ hw => hw.1) fun _ _ hw => hw) fun rows => forEach_free fun row => ?_
  refine Eff.Spec.tryCatch (cancelOrder_free h) fun e => Eff.Spec.ite
    (fun _ => Eff.Spec.pure fun w hw => hw.2) fun hno => Eff.Spec.throw fun w hw => hno hw.1

theorem skipsExit_free (h : SendsFreely env) :
    Eff.Goes (fun w => Unsent n x.idempotencyKey w ∧ ¬ HeldBack w.db.working x) (skipsExit env x)
      fun skipped w => skipped = false ∧ Unsent n x.idempotencyKey w := by
  refine Eff.Spec.ite (fun _ => Eff.Spec.pure fun w hw => ⟨rfl, hw.1⟩) fun _ => ?_
  refine Eff.Spec.bind (query_free h (fun _ hw => hw) fun _ hw => hw.1.1) fun working => ?_
  refine Eff.Spec.ite (fun hheld => Eff.Spec.pure fun w hw => ?_) fun _ => ?_
  · obtain ⟨⟨_, hfree⟩, hworking⟩ := hw
    simp only [Bool.and_eq_true, Bool.not_eq_true', List.isEmpty_eq_false_iff] at hheld
    exact absurd ⟨hheld.2, hworking ▸ hheld.1⟩ hfree
  refine Eff.Spec.ite (fun _ => ?_) fun _ => Eff.Spec.pure fun w hw => ⟨rfl, hw.1.1⟩
  refine Eff.Spec.bind (M := fun _ w => (Unsent n x.idempotencyKey w ∧ ¬ HeldBack w.db.working x) ∧
    working = workingSameSide x.symbol x.side.value w.db.working) (Eff.Spec.read fun _ hw => hw)
    fun w₁ => ?_
  refine Eff.Spec.ite (fun hsame => Eff.Spec.pure fun w hw => ?_) fun _ =>
    Eff.Spec.bind ((cancelWorking_free h).pre fun w hw => hw.1.1) fun _ =>
      Eff.Spec.pure fun w hw => ⟨rfl, hw⟩
  obtain ⟨⟨hunsent, _⟩, rfl⟩ := hw
  -- a working order of the same key would be a row of it
  simp only [Bool.and_eq_true, Bool.not_eq_true', List.isEmpty_eq_false_iff] at hsame
  obtain ⟨row, hrow⟩ := List.exists_mem_of_ne_nil _ hsame.1
  obtain ⟨hworking, hkey⟩ := List.mem_filter.mp hrow
  have hin : row ∈ w.db.working.orders.rows := (List.mem_filter.mp hworking).1
  exact absurd (KeyedTable.hasKey_iff.mpr ⟨row, hin, by simpa using hkey⟩) hunsent.2.1

/-! ## The submission of one intent -/

theorem shapedTerms_market (hmarket : x.orderType = "market") (live : Option ℚ) :
    ¬ (((shapedTerms cfg x live).1 = "limit" ∨ (shapedTerms cfg x live).1 = "stop_limit") ∧
      (shapedTerms cfg x live).2.isNone) := by
  unfold shapedTerms
  split
  · simp [hmarket]
  · split
    · simp
    · simp [hmarket]

theorem sendOrder_free (h : SendsFreely env) (hmarket : x.orderType = "market") :
    Eff.Spec (fun w => w.db.broken = false ∧ n ≤ w.accepted.length) (sendOrder env cfg x)
      (fun _ => SentMore n) (fun _ => SentMore n) := by
  have hlive : Eff.Goes (fun w => w.db.broken = false ∧ n ≤ w.accepted.length)
      (fetchLive env cfg x) fun _ w => w.db.broken = false ∧ n ≤ w.accepted.length := by
    refine Eff.Spec.ite (fun _ => ?_) fun _ => Eff.Spec.pure fun _ hw => hw
    exact Eff.Spec.bind (suspend_free h fun _ hw => hw) fun _ =>
      Eff.Spec.bind (M := fun _ w => w.db.broken = false ∧ n ≤ w.accepted.length)
        (Eff.Spec.read fun _ hw => hw) fun _ => Eff.Spec.pure fun _ hw => hw
  have hterms : Eff.Goes (fun w => w.db.broken = false ∧ n ≤ w.accepted.length)
      (shapedTerms cfg x <$> fetchLive env cfg x) fun terms w =>
        ¬ ((terms.1 = "limit" ∨ terms.1 = "stop_limit") ∧ terms.2.isNone) ∧
          n ≤ w.accepted.length :=
    Eff.Spec.map (hlive.weaken (fun _ hw => hw) (fun live _ hw =>
      ⟨shapedTerms_market hmarket live, hw.2⟩) fun _ _ hw => hw)
  refine Eff.Spec.bind (hterms.weaken (fun _ hw => hw) (fun _ _ hw => hw) fun _ _ hw => hw.elim)
    fun terms => Eff.Spec.ite (fun hbad => Eff.Spec.throw fun w hw => absurd hbad hw.1) fun _ => ?_
  refine Eff.Spec.bind (M := fun _ w => n ≤ w.accepted.length) ((suspend_free h
    fun _ hw => hw).weaken (fun w hw => hw.2) (fun _ _ hw => hw) fun _ _ hw => hw.elim) fun _ => ?_
  refine Eff.Spec.bind (M := fun _ w => n ≤ w.accepted.length) (Eff.Spec.read fun _ hw => hw)
    fun w₁ => ?_
  refine Eff.Spec.bind (M := fun _ w => n ≤ w.accepted.length) (Eff.Spec.edit fun _ hw => hw)
    fun _ => ?_
  refine Eff.Spec.bind (M := fun _ => SentMore n) (Eff.Spec.edit fun w hw => ?_) fun _ => ?_
  · rw [if_pos (h.accepts _ _)]
    unfold SentMore
    rw [List.length_append, List.length_singleton]
    omega
  · refine Eff.Keeps.bind (keeps_suspend (submitFree_sentMore n).toCalm) fun _ => ?_
    cases (env.submitAnswer w₁.ticks _).reply with
    | ok result => exact Eff.keeps_pure
    | error e => exact Eff.keeps_throw

theorem claimRow_free (h : SendsFreely env) :
    Eff.Goes (Unsent n x.idempotencyKey) (claimRow env cfg x decisionId)
      fun claimed w => claimed = true ∧ w.db.broken = false ∧ n ≤ w.accepted.length := by
  refine Eff.Spec.bind (query_free h (fun _ hw => hw) fun _ hw => hw.1) fun existing => ?_
  intro w hw
  obtain ⟨hunsent, rfl⟩ := hw
  have hnone : w.db.working.orders.find? x.idempotencyKey = none :=
    KeyedTable.find?_eq_none_iff.mpr hunsent.2.1
  cases hins : w.db.working.orders.insert (pendingOrder cfg x decisionId (env.now w.ticks)) with
  | none => exact absurd (KeyedTable.insert_eq_none_iff.mp hins) hunsent.2.1
  | some orders =>
    simp only [hnone, bind, Eff.read, addOrder, hins, write, Eff.edit, pure]
    exact ⟨trivial, hunsent.1, hunsent.2.2⟩

theorem submitOne_free (h : SendsFreely env) (hmarket : x.orderType = "market") :
    Eff.Spec (fun w => Unsent n x.idempotencyKey w ∧ ¬ HeldBack w.db.working x)
      (submitOne env cfg x decisionId) (fun _ => SentMore n) (fun _ => SentMore n) := by
  have hfree := submitFree_sentMore n
  refine Eff.Spec.bind ((skipsExit_free h).weaken (fun _ hw => hw) (fun _ _ hw => hw)
    fun _ _ hw => hw.elim) fun skipped => Eff.Spec.ite
      (fun hskip => fun w hw => by rw [hw.1] at hskip; cases hskip) fun _ => ?_
  refine Eff.Spec.bind ((claimRow_free h).weaken (fun w hw => hw.2) (fun _ _ hw => hw)
    fun _ _ hw => hw.elim) fun claimed => Eff.Spec.ite
      (fun hno => fun w hw => by rw [hw.1] at hno; cases hno) fun _ => ?_
  refine Eff.Spec.bind (M := fun _ w => w.db.broken = false ∧ n ≤ w.accepted.length)
    ((flush_free h (fun _ hw => hw) fun _ hw => hw.1).weaken (fun w hw => hw.2)
      (fun _ _ hw => hw) fun _ _ hw => hw.elim) fun _ => ?_
  refine Eff.Spec.bind (Eff.Spec.attempt (R := fun _ => SentMore n) (sendOrder_free h hmarket))
    fun ended => ?_
  exact Eff.Keeps.bind (keeps_recordAnswer hfree.toOrdersFree ended) fun _ => Eff.keeps_pure

theorem HeldBack.isExit (h : HeldBack t x) : isExitIntent x = true := by
  have hpartial := h.1
  unfold isPartialExit at hpartial
  unfold isExitIntent
  rw [List.any_append, hpartial, Bool.or_true, Bool.true_or]

theorem submitOne_held {P : World → Prop} {E : Fault → World → Prop} (hheld : HeldBack t x)
    (hquery : Eff.Spec P (query env (workingSameSide x.symbol x.side.value))
      (fun rows w => P w ∧ rows = workingSameSide x.symbol x.side.value t) E) :
    Eff.Spec P (submitOne env cfg x decisionId) (fun _ => P) E := by
  have hskip : Eff.Spec P (skipsExit env x) (fun skipped w => skipped = true ∧ P w) E := by
    refine Eff.Spec.ite (fun hno => absurd hheld.isExit (by simpa using hno)) fun _ => ?_
    refine Eff.Spec.bind hquery fun rows => ?_
    refine Eff.Spec.ite (fun _ => Eff.Spec.pure fun w hw => ⟨rfl, hw.1⟩) fun hnot => ?_
    intro w hw
    refine absurd ?_ hnot
    rw [hw.2, Bool.and_eq_true, Bool.not_eq_true', List.isEmpty_eq_false_iff]
    exact ⟨hheld.2, hheld.1⟩
  refine Eff.Spec.bind hskip fun skipped => Eff.Spec.ite (fun _ => Eff.Spec.pure fun w hw => hw.2)
    fun hno => ?_
  exact fun w hw => absurd hw.1 hno

end

theorem workingSameSide_congr {t t' : Tables} {symbol side : String} [Casing]
    (h : t'.orders = t.orders) : workingSameSide symbol side t' = workingSameSide symbol side t := by
  unfold workingSameSide
  rw [h]

/-! ## A batch -/

/-- Nothing more is accepted, and a usable session has the orders of the tables. -/
def Resting (t : Tables) (orders : List AcceptedOrder) (w : World) : Prop :=
  w.accepted = orders ∧ (w.db.broken = false → w.db.working.orders = t.orders)

theorem calm_resting (t : Tables) (orders : List AcceptedOrder) : Calm (Resting t orders) where
  tick := fun _ h => h
  abort := fun _ h => ⟨h.1, fun hb => absurd hb (by simp)⟩

variable {batch : List ValidatedOrderIntent}

theorem keeps_submitEach_held [Casing] {orders : List AcceptedOrder}
    (hheld : ∀ x ∈ batch, HeldBack t x) :
    Eff.Keeps (Resting t orders) (submitEach env cfg decisionId batch) := by
  induction batch with
  | nil => exact Eff.keeps_pure
  | cons x batch ih =>
    have hone : Eff.Keeps (Resting t orders) (submitOne env cfg x decisionId) := by
      refine submitOne_held (hheld x List.mem_cons_self) ?_
      refine (query_spec (calm_resting t orders)).weaken (fun _ hw => hw) (fun rows w hw => ?_)
        fun _ _ hw => hw
      obtain ⟨hrest, husable, rfl⟩ := hw
      exact ⟨hrest, workingSameSide_congr (hrest.2 husable)⟩
    refine Eff.Keeps.bind hone fun _ => ?_
    exact Eff.Keeps.bind (ih fun y hy => hheld y (List.mem_cons_of_mem _ hy)) fun _ =>
      Eff.keeps_pure

/-- What may be sent from a batch: market orders under keys that are not on file. -/
structure Sendable (t : Tables) (batch : List ValidatedOrderIntent) : Prop where
  market : ∀ x ∈ batch, x.orderType = "market"
  unseen : ∀ x ∈ batch, ¬ t.orders.HasKey x.idempotencyKey

/-- The session can be used and has the orders of the tables, and so many orders at least are
    accepted. -/
def Ready (t : Tables) (n : ℕ) (w : World) : Prop :=
  w.db.broken = false ∧ w.db.working.orders = t.orders ∧ n ≤ w.accepted.length

theorem submitEach_sends [Casing] (h : SendsFreely env) (hbatch : Sendable t batch)
    (hfree : ∃ x ∈ batch, ¬ HeldBack t x) :
    Eff.Spec (Ready t n) (submitEach env cfg decisionId batch) (fun _ => SentMore n)
      (fun _ => SentMore n) := by
  induction batch with
  | nil =>
    obtain ⟨x, hx, _⟩ := hfree
    cases hx
  | cons x batch ih =>
    by_cases hheld : HeldBack t x
    · have hone : Eff.Goes (Ready t n) (submitOne env cfg x decisionId) fun _ => Ready t n := by
        refine submitOne_held hheld ((query_free h (fun _ hw => hw) fun _ hw => hw.1).weaken
          (fun _ hw => hw) (fun rows w hw => ⟨hw.1, ?_⟩) fun _ _ hw => hw)
        rw [hw.2]
        exact workingSameSide_congr hw.1.2.1
      obtain ⟨y, hy, hgoes⟩ := hfree
      rcases List.mem_cons.mp hy with rfl | hy
      · exact absurd hheld hgoes
      have hrest := ih ⟨fun z hz => hbatch.market z (List.mem_cons_of_mem _ hz),
        fun z hz => hbatch.unseen z (List.mem_cons_of_mem _ hz)⟩ ⟨y, hy, hgoes⟩
      refine Eff.Spec.bind (hone.weaken (fun _ hw => hw) (fun _ _ hw => hw) fun _ _ hw => hw.elim)
        fun _ => Eff.Spec.bind hrest fun _ => Eff.keeps_pure
    · have hsent := submitFree_sentMore n
      have hunseen := hbatch.unseen x List.mem_cons_self
      refine Eff.Spec.bind ((submitOne_free h (hbatch.market x List.mem_cons_self)).pre
        fun w hw => ?_) fun _ => ?_
      · refine ⟨⟨hw.1, ?_, hw.2.2⟩, fun hw' => hheld ⟨hw'.1, ?_⟩⟩
        · rw [hw.2.1]
          exact hunseen
        · rw [← workingSameSide_congr hw.2.1]
          exact hw'.2
      · exact Eff.Keeps.bind (keeps_submitEach_of fun _ => keeps_submitOne_free hsent) fun _ =>
          Eff.keeps_pure

/-- A log that a submission adds its own order to, and awaits leave alone. -/
structure SubmitLog (log : World → List AcceptedOrder) : Prop where
  tick : ∀ w, log w.tick = log w
  abort : ∀ w, log { w with db := w.db.abort } = log w
  step : ∀ {k w w'}, SubmitStep k k w w' → OneMore k k (log w) (log w')

theorem submitLog_accepted : SubmitLog World.accepted :=
  ⟨fun _ => rfl, fun _ => rfl, fun h => h.accepted⟩

theorem submitLog_sent : SubmitLog World.sent := ⟨fun _ => rfl, fun _ => rfl, fun h => h.sent⟩

/-- What is new in the log is for plans that meet the predicate. -/
abbrev SentOnly (log : World → List AcceptedOrder) (plans : String → Prop) (w₀ w : World) : Prop :=
  Grown (fun o => plans o.plan) (log w₀) (log w)

section SentOnly

variable {log : World → List AcceptedOrder} {plans : String → Prop} {w₀ : World}

theorem calm_sentOnly (hlog : SubmitLog log) : Calm (SentOnly log plans w₀) where
  tick := fun w h => by rwa [SentOnly, hlog.tick w]
  abort := fun w h => by rwa [SentOnly, hlog.abort w]

theorem keeps_submitEach_only [Casing] (hlog : SubmitLog log)
    (hplans : ∀ x ∈ batch, plans x.idempotencyKey) :
    Eff.Keeps (SentOnly log plans w₀) (submitEach env cfg decisionId batch) := by
  induction batch with
  | nil => exact Eff.keeps_pure
  | cons x batch ih =>
    have hone : Eff.Keeps (SentOnly log plans w₀) (submitOne env cfg x decisionId) :=
      Eff.keeps_of_step (fun _ => submitOne_spec) fun w w' hw hstep =>
        hw.oneMore (hlog.step hstep) fun _ _ _ => hplans x List.mem_cons_self
    refine Eff.Keeps.bind hone fun _ => ?_
    exact Eff.Keeps.bind (ih fun y hy => hplans y (List.mem_cons_of_mem _ hy)) fun _ =>
      Eff.keeps_pure

theorem keeps_submitValidated_only [Casing] (hlog : SubmitLog log) {controls : TradingControlState}
    {validation : ExecutionValidationResult}
    (hplans : ∀ x ∈ validation.intents, plans x.idempotencyKey) :
    Eff.Keeps (SentOnly log plans w₀)
      (submitValidatedIntents env cfg controls validation decisionId) :=
  Eff.Keeps.ite (Eff.Keeps.bind (keeps_flush (calm_sentOnly hlog)) fun _ => Eff.keeps_pure)
    (keeps_submitEach_only hlog hplans)

end SentOnly

end Sending

end Investor.Execution
