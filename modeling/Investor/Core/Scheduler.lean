import Investor.Execution.Submission

/-!
# The dispatch loop

`_dispatch_due_jobs` runs the action of a due job under `wait_for` and then settles the
job: a returned action is committed, and on a timeout or an exception the session is
rolled back and only the job's row is rewritten.

An action is any program that submits validated intents, awaits, flushes and rewrites
the tables without removing an order row; what it does next may depend on everything it
has seen, exceptions included (`JobAction`). Nothing inside an action commits.

The orders table of the session keeps a row for every order the broker accepted during
the action (`Recorded`). Whether those rows outlive the handling of the outcome is a
matter of commit or rollback, and a later submission is a duplicate of such a row only if
the row is not dead (`accepted_on_file_iff`).
-/

namespace Investor.Core

open Lib Schema Market Execution

inductive JobOutcome
  | done
  | reschedule (delayS : Int)
  deriving DecidableEq

structure TableWork where
  run : Tables → Tables
  keeps : ∀ t k, t.orders.HasKey k → (run t).orders.HasKey k

inductive JobAction
  | finish (outcome : JobOutcome)
  | raise (e : Fault)
  | await (next : Except Fault Unit → JobAction)
  | flush (next : Except Fault Unit → JobAction)
  | work (rewrite : TableWork) (next : JobAction)
  | look (next : Tables → JobAction)
  | submit (controls : TradingControlState) (validation : ExecutionValidationResult)
      (decisionId : Option String) (next : Except Fault Nat → JobAction)

section Dispatch

variable [Casing] (env : Env) (cfg : Settings)

def JobAction.run : JobAction → Prog JobOutcome
  | .finish outcome => return outcome
  | .raise e => throw e
  | .await next => do
    let ended ← Eff.attempt (suspend env)
    (next ended).run
  | .flush next => do
    let ended ← Eff.attempt (Core.flush env)
    (next ended).run
  | .work rewrite next => do
    write rewrite.run
    next.run
  | .look next => do
    let w ← Eff.read
    (next w.db.working).run
  | .submit controls validation decisionId next => do
    let ended ← Eff.attempt (submitValidatedIntents env cfg controls validation decisionId)
    (next ended).run

/-! ## The job's row -/

def setJob (id : Nat) (f : ScheduledJob → ScheduledJob) (t : Tables) : Tables :=
  { t with jobs := t.jobs.map fun j => if j.id = id then f j else j }

/-- `_reschedule_intraday_not_ready`. -/
def rescheduleIntradayNotReady (error : String) : Bool :=
  hasPart error "catch_up_cooldown" || hasPart error "intraday_not_allowed_from:PREMARKET" ||
    hasPart error "intraday_not_allowed_from:PREOPEN"

/-- `_set_job_row_status`: an `UPDATE` sent to the database. -/
def setJobRowStatus (id : Nat) (f : ScheduledJob → ScheduledJob) : Prog Unit := do
  flush env
  write (setJob id f)

/-! ## One job -/

def startJob (job : ScheduledJob) (now : Int) : Prog Unit := do
  write (setJob job.id fun j => { j with status := "running", startedAt := some now })
  flush env
  commit env

/-- What follows the action inside the `try`. -/
def settleJob (job : ScheduledJob) (timeoutS : Int) (now : Int) :
    Except Fault JobOutcome → Prog Unit
  | .ok .done => do
    write (setJob job.id fun j => { j with status := "completed", completedAt := some now })
    commit env
  | .ok (.reschedule delayS) => do
    write (setJob job.id fun j =>
      { j with status := "planned", plannedAt := now + max 0 delayS, startedAt := none,
               completedAt := none, error := none })
    commit env
  | .error .timeout => do
    let resume := hasPrefix (jobKeyBase job.jobKey) "postmarket_eval"
    rollback
    setJobRowStatus env job.id fun j =>
      { j with status := if resume then "planned" else "failed",
               error := some s!"job_action_timeout:{timeoutS}s", plannedAt := now + 30,
               startedAt := none, completedAt := if resume then j.completedAt else some now }
    commit env
  | .error e => throw e

/-- The `except` clauses. -/
def handleFault (job : ScheduledJob) (now : Int) : Fault → Prog Unit
  | .cancelled => throw .cancelled
  | .workflow message => do
    let err := takeChars 500 message
    let resume := rescheduleIntradayNotReady err
    rollback
    setJobRowStatus env job.id fun j =>
      if resume then
        { j with status := "planned", error := some err, plannedAt := now + 30, startedAt := none }
      else { j with status := "skipped", error := some err, completedAt := some now }
    commit env
  | e => do
    rollback
    setJobRowStatus env job.id fun j =>
      { j with status := "failed", error := some (takeChars 500 e.text), completedAt := some now }
    commit env

structure DueJob where
  job : ScheduledJob
  action : JobAction
  timeoutS : Int
  now : Int

def dispatchJob (due : DueJob) : Prog Unit :=
  tryCatch (do
    startJob env due.job due.now
    let ended ← Eff.attempt (waitFor (due.action.run env cfg))
    settleJob env due.job due.timeoutS due.now ended) (handleFault env due.job due.now)

end Dispatch

/-! ## What an action leaves behind -/

def RowIfUsable (w : World) (o : AcceptedOrder) : Prop :=
  w.db.broken = false → w.db.working.orders.HasKey o.request.idempotencyKey

/-- Nothing was committed, and a usable session holds a row for every order that was handed to the
    broker or accepted since. -/
structure Recorded (w₀ w : World) : Prop where
  committed : w.db.committed = w₀.db.committed
  kept : w.db.broken = false →
    ∀ k, w₀.db.working.orders.HasKey k → w.db.working.orders.HasKey k
  accepted : Grown (RowIfUsable w) w₀.accepted w.accepted
  sent : Grown (RowIfUsable w) w₀.sent w.sent

theorem Recorded.refl (w : World) : Recorded w w := ⟨rfl, fun _ _ h => h, .refl, .refl⟩

theorem calm_recorded (w₀ : World) : Calm (Recorded w₀) where
  tick := fun _ h => ⟨h.committed, h.kept, h.accepted, h.sent⟩
  abort := fun _ h => ⟨h.committed, fun hb => absurd hb (by simp),
    h.accepted.imp fun _ _ hb => absurd hb (by simp), h.sent.imp fun _ _ hb => absurd hb (by simp)⟩

variable {w : World}

/-- One submission more: the row of its key was written before the broker was called. -/
theorem Recorded.submit {k plan : String} {w₀ w' : World} (h : Recorded w₀ w)
    (hstep : SubmitStep k plan w w') : Recorded w₀ w' := by
  have hkept : ∀ o, RowIfUsable w o → RowIfUsable w' o := fun o ho hb =>
    (hstep.frame.usable hb).2.keys _ (ho (hstep.frame.usable hb).1)
  refine ⟨hstep.frame.committed.trans h.committed, fun hb k hk => ?_,
    (h.accepted.imp hkept).oneMore hstep.accepted fun hne req hreq hb => ?_,
    (h.sent.imp hkept).oneMore hstep.sent fun hne req hreq hb => ?_⟩
  · obtain ⟨hb', hkeys⟩ := hstep.frame.usable hb
    exact hkeys.keys k (h.kept hb' k hk)
  · exact hreq ▸ hstep.recorded hb (Or.inl hne)
  · exact hreq ▸ hstep.recorded hb (Or.inr hne)

variable {decisionId : Option String}

section Actions

variable [Casing] {env : Env} {cfg : Settings} {w₀ : World}

theorem keeps_submitOne {intent : ValidatedOrderIntent} :
    Eff.Keeps (Recorded w₀) (submitOne env cfg intent decisionId) :=
  Eff.keeps_of_step (fun _ => submitOne_spec) fun _ _ h hstep => h.submit hstep

theorem keeps_submitValidatedIntents {controls : TradingControlState}
    {validation : ExecutionValidationResult} :
    Eff.Keeps (Recorded w₀) (submitValidatedIntents env cfg controls validation decisionId) :=
  Eff.Keeps.ite (Eff.Keeps.bind (keeps_flush (calm_recorded w₀)) fun _ => Eff.keeps_pure)
    (keeps_submitEach_of fun _ => keeps_submitOne)

theorem keeps_action (action : JobAction) : Eff.Keeps (Recorded w₀) (action.run env cfg) := by
  have hcalm := calm_recorded w₀
  induction action with
  | finish outcome => exact Eff.keeps_pure
  | raise e => exact Eff.keeps_throw
  | await next ih => exact Eff.Keeps.bind (Eff.Keeps.attempt (keeps_suspend hcalm)) ih
  | flush next ih => exact Eff.Keeps.bind (Eff.Keeps.attempt (keeps_flush hcalm)) ih
  | look next ih => exact Eff.Keeps.bind Eff.keeps_read fun w => ih w.db.working
  | submit controls validation decisionId next ih =>
    exact Eff.Keeps.bind (Eff.Keeps.attempt keeps_submitValidatedIntents) ih
  | work rewrite next ih =>
    refine Eff.Keeps.bind (Eff.keeps_edit fun w h => ?_) fun _ => ih
    exact ⟨h.committed, fun hb k hk => rewrite.keeps _ _ (h.kept hb k hk),
      h.accepted.imp fun _ ho hb => rewrite.keeps _ _ (ho hb),
      h.sent.imp fun _ ho hb => rewrite.keeps _ _ (ho hb)⟩

end Actions

/-! ## Handling the outcome -/

/-- The committed orders and what was accepted are as given. -/
def Settled (c : OrderTable) (accepted : List AcceptedOrder) (w : World) : Prop :=
  w.db.committed.orders = c ∧ w.accepted = accepted

def Unwound (c : OrderTable) (accepted : List AcceptedOrder) (w : World) : Prop :=
  Settled c accepted w ∧ w.db.working.orders = c

theorem calm_unwound (c : OrderTable) (accepted : List AcceptedOrder) :
    Calm (Unwound c accepted) :=
  ⟨fun _ h => h, fun _ h => ⟨h.1, h.1.1⟩⟩

section Handling

variable {env : Env} {cfg : Settings} {c : OrderTable} {accepted : List AcceptedOrder}

theorem keeps_commit_unwound : Eff.Keeps (Unwound c accepted) (commit env) := by
  refine (commit_spec env (calm_unwound c accepted)).weaken (fun _ h => h) ?_ fun _ _ h => h
  rintro _ w' ⟨w, h, _, rfl⟩
  exact ⟨⟨h.2, h.1.2⟩, h.2⟩

theorem unwind_spec {id : Nat} {f : ScheduledJob → ScheduledJob} :
    Eff.Spec (Settled c accepted)
      (do rollback; setJobRowStatus env id f; commit env)
      (fun _ => Settled c accepted) (fun _ => Settled c accepted) := by
  have hrollback : Eff.Spec (Settled c accepted) rollback (fun _ => Unwound c accepted)
      (fun _ => Settled c accepted) := Eff.Spec.edit fun w h => ⟨h, h.1⟩
  have hrow : Eff.Keeps (Unwound c accepted) (setJobRowStatus env id f) :=
    Eff.Keeps.bind (keeps_flush (calm_unwound c accepted)) fun _ => Eff.keeps_edit fun _ h => h
  refine Eff.Spec.bind hrollback fun _ => ?_
  exact (Eff.Keeps.bind hrow fun _ => keeps_commit_unwound).weaken (fun _ h => h)
    (fun _ _ h => h.1) fun _ _ h => h.1

theorem handleFault_spec (job : ScheduledJob) (now : Int) (e : Fault) :
    Eff.Keeps (Settled c accepted) (handleFault env job now e) := by
  cases e with
  | cancelled => exact Eff.keeps_throw
  | timeout => exact unwind_spec
  | broker message => exact unwind_spec
  | workflow message => exact unwind_spec
  | other message => exact unwind_spec

/-- The commit stores what the session has, or all of it is rolled back. -/
theorem commitJob_spec {id : Nat} {f : ScheduledJob → ScheduledJob} (htimed : w.timed = false) :
    Eff.Spec (· = w) (do write (setJob id f); commit env)
      (fun _ w' => CommitsAt env w ∧ Unwound w.db.working.orders w.accepted w')
      (fun _ w' => ¬ CommitsAt env w ∧ Settled w.db.committed.orders w.accepted w') := by
  rintro s rfl
  let s' : World := { s with db := s.db.write (setJob id f) }
  have hgo : (commit env s').1 = .ok () ↔ CommitsAt env s := commit_ok_iff htimed
  have hcalm : Calm fun x : World => Settled s.db.committed.orders s.accepted x ∧
      (x.db.broken = false → x.db.working.orders = s.db.working.orders) :=
    ⟨fun _ h => h, fun _ h => ⟨h.1, fun hb => absurd hb (by simp)⟩⟩
  have hspec := commit_spec env hcalm s' ⟨⟨rfl, rfl⟩, fun _ => rfl⟩
  rw [show (write (setJob id f) >>= fun _ => commit env) s = commit env s' from rfl]
  cases hrun : commit env s' with
  | mk r w' =>
    rw [hrun] at hspec hgo
    cases r with
    | ok u =>
      obtain ⟨x, ⟨hx, hworking⟩, hunbroken, rfl⟩ := hspec
      exact ⟨hgo.mp rfl, ⟨hworking hunbroken, hx.2⟩, hworking hunbroken⟩
    | error e => exact ⟨fun h => absurd (hgo.mpr h) (by simp), hspec.1⟩

theorem startJob_spec (env : Env) (job : ScheduledJob) (now : Int) :
    Eff.Spec (· = w) (startJob env job now)
      (fun _ w' => w'.db = Session.fresh w'.db.committed ∧
        Settled w.db.working.orders w.accepted w')
      (fun _ w' => w'.accepted = w.accepted) := by
  have hcalm : Calm fun x : World => x.accepted = w.accepted ∧
      (x.db.broken = false → x.db.working.orders = w.db.working.orders) :=
    ⟨fun _ h => h, fun _ h => ⟨h.1, fun hb => absurd hb (by simp)⟩⟩
  refine Eff.Spec.bind (M := fun _ x => x.accepted = w.accepted ∧
      (x.db.broken = false → x.db.working.orders = w.db.working.orders))
    (Eff.Spec.edit fun x hx => hx ▸ ⟨rfl, fun _ => rfl⟩) fun _ => ?_
  refine Eff.Spec.bind ((keeps_flush hcalm).weaken (fun _ h => h) (fun _ _ h => h)
    fun _ _ h => h.1) fun _ => ?_
  refine (commit_spec env hcalm).weaken (fun _ h => h) ?_ fun _ _ h => h.1
  rintro _ w' ⟨x, ⟨hacc, hworking⟩, hunbroken, rfl⟩
  exact ⟨rfl, hworking hunbroken, hacc⟩

end Handling

/-! ## When accepted orders stay on file -/

section OnFile

variable {env : Env} {cfg : Settings}

/-- There is a row under the key, and `_submit_one` takes it for a duplicate. -/
def Recognised [Casing] (orders : OrderTable) (key : String) : Prop :=
  (orders.find? key).any fun row => foldStatus row.status ∉ DEAD_ORDER_STATUSES

instance [Casing] (orders : OrderTable) (key : String) : Decidable (Recognised orders key) :=
  inferInstanceAs (Decidable (_ = true))

/-- Every order the broker accepted since has a row in the committed table under its key, by which
    a later submission is recognised. -/
def AllOnFile [Casing] (w w' : World) : Prop :=
  ∀ o ∈ acceptedSince w w', Recognised w'.db.committed.orders o.request.idempotencyKey

def NoneDead [Casing] (orders : OrderTable) (accepted : List AcceptedOrder) : Prop :=
  ∀ o ∈ accepted, ∀ row ∈ orders.rows, row.idempotencyKey = o.request.idempotencyKey →
    foldStatus row.status ∉ DEAD_ORDER_STATUSES

theorem recognised_iff [Casing] {orders : OrderTable} {key : String} (h : orders.HasKey key) :
    Recognised orders key ↔ ∀ row ∈ orders.rows, row.idempotencyKey = key →
      foldStatus row.status ∉ DEAD_ORDER_STATUSES := by
  unfold Recognised
  cases hfound : orders.find? key with
  | none => exact absurd h (KeyedTable.find?_eq_none_iff.mp hfound)
  | some row =>
    rw [Option.any_some, decide_eq_true_iff]
    constructor
    · intro hlive row' hrow' hkey
      have hsame := KeyedTable.find?_eq_some_iff.mpr ⟨hrow', hkey⟩
      rw [← Option.some.inj (hfound.symm.trans hsame)]
      exact hlive
    · intro hall
      obtain ⟨hrow, hkey⟩ := KeyedTable.find?_eq_some_iff.mp hfound
      exact hall row hrow hkey

/-- A later submission under the key goes no further than its row. -/
theorem claimRow_recognised [Casing] {x : ValidatedOrderIntent} {decisionId : Option String}
    {orders : OrderTable} (h : Recognised orders x.idempotencyKey) :
    Eff.Spec (fun w => w.db.broken = false → w.db.working.orders = orders)
      (claimRow env cfg x decisionId) (fun claimed _ => claimed = false) fun _ _ => True := by
  have hcalm : Calm fun w : World => w.db.broken = false → w.db.working.orders = orders :=
    ⟨fun _ h => h, fun _ _ hb => absurd hb (by simp)⟩
  refine Eff.Spec.bind ((query_spec hcalm).weaken (fun _ h => h) (fun _ _ h => h)
    fun _ _ _ => trivial) fun existing => ?_
  rintro w ⟨horders, husable, rfl⟩
  obtain ⟨row, hrow, hlive⟩ := (Option.any_eq_true ..).mp h
  rw [horders husable, hrow]
  dsimp only
  rw [if_pos (by simpa using hlive)]
  exact rfl

def runAction [Casing] (env : Env) (cfg : Settings) (due : DueJob) : Prog JobOutcome := do
  startJob env due.job due.now
  waitFor (due.action.run env cfg)

theorem allOnFile_of_settled [Casing] {w' : World} {c : OrderTable} {accepted : List AcceptedOrder}
    (h : Settled c accepted w') :
    AllOnFile w w' ↔
      ∀ o ∈ accepted.drop w.accepted.length, Recognised c o.request.idempotencyKey := by
  obtain ⟨hc, hacc⟩ := h
  unfold AllOnFile acceptedSince
  rw [hc, hacc]

theorem waitFor_timed {α : Type} (p : Prog α) (w : World) :
    (waitFor p w).2.timed = false ∧ (waitFor p w).1 ≠ .error .cancelled := by
  cases hp : p { w with timed := true } with
  | mk r w' =>
    cases r with
    | ok a => simp [waitFor, bind, Eff.edit, Eff.attempt, hp, pure]
    | error e =>
      cases e <;> simp [waitFor, bind, Eff.edit, Eff.attempt, hp, throw, throwThe,
        MonadExceptOf.throw]

theorem keeps_waitFor {α : Type} {p : Prog α} {w₀ : World} (hp : Eff.Keeps (Recorded w₀) p) :
    Eff.Keeps (Recorded w₀) (waitFor p) := by
  have htimed : ∀ timed, Eff.Keeps (Recorded w₀)
      (Eff.edit fun w => { w with timed } : Prog Unit) := fun _ =>
    Eff.keeps_edit fun _ h => ⟨h.committed, h.kept, h.accepted, h.sent⟩
  refine Eff.Keeps.bind (htimed true) fun _ => Eff.Keeps.bind (Eff.Keeps.attempt hp) fun ended =>
    Eff.Keeps.bind (htimed false) fun _ => ?_
  cases ended with
  | ok a => exact Eff.keeps_pure
  | error e => cases e <;> exact Eff.keeps_throw

def Published (env : Env) (ended : Except Fault JobOutcome) (w : World) : Prop :=
  (∃ outcome, ended = .ok outcome) ∧ CommitsAt env w

/-- The working orders were published, or what was committed stands. -/
def HandledAs (env : Env) (ended : Except Fault JobOutcome) (w w' : World) : Prop :=
  Published env ended w ∧ Unwound w.db.working.orders w.accepted w' ∨
    ¬ Published env ended w ∧ Settled w.db.committed.orders w.accepted w'

theorem not_published_error {e : Fault} : ¬ Published env (.error e) w := by
  rintro ⟨⟨outcome, h⟩, _⟩
  cases h

variable [Casing]

/-- Settling handles how the job ended, or rolls the session back. -/
theorem settleJob_spec (env : Env) (job : ScheduledJob) (timeoutS now : Int)
    {ended : Except Fault JobOutcome} (htimed : w.timed = false)
    (hended : ended ≠ .error .cancelled) :
    Eff.Spec (· = w) (settleJob env job timeoutS now ended)
      (fun _ => HandledAs env ended w)
      (fun _ w' => ¬ Published env ended w ∧ Settled w.db.committed.orders w.accepted w') := by
  cases ended with
  | ok outcome =>
    have hcommit : ∀ f, Eff.Spec (· = w) (do write (setJob job.id f); commit env)
        (fun _ => HandledAs env (.ok outcome) w)
        (fun _ w' => ¬ Published env (.ok outcome) w ∧
          Settled w.db.committed.orders w.accepted w') := fun f =>
      (commitJob_spec htimed).weaken (fun _ h => h)
        (fun _ w' h => Or.inl ⟨⟨⟨outcome, rfl⟩, h.1⟩, h.2⟩) fun _ w' h => ⟨fun hg => h.1 hg.2, h.2⟩
    cases outcome with
    | done => exact hcommit _
    | reschedule delayS => exact hcommit _
  | error e =>
    have hthrow : ∀ e', Eff.Spec (· = w) (throw e' : Prog Unit)
        (fun _ => HandledAs env (.error e) w)
        (fun _ w' => ¬ Published env (.error e) w ∧
          Settled w.db.committed.orders w.accepted w') := fun _ =>
      Eff.Spec.throw fun w' hw => ⟨not_published_error, hw ▸ ⟨rfl, rfl⟩⟩
    cases e with
    | cancelled => exact absurd rfl hended
    | broker message => exact hthrow _
    | workflow message => exact hthrow _
    | other message => exact hthrow _
    | timeout =>
      exact unwind_spec.weaken (fun w' hw => hw ▸ ⟨rfl, rfl⟩)
        (fun _ _ h => Or.inr ⟨not_published_error, h⟩) fun _ _ h => ⟨not_published_error, h⟩

theorem handled_of_dispatch (due : DueJob) {ended : Except Fault JobOutcome}
    (htimed : w.timed = false) (hended : ended ≠ .error .cancelled) :
    HandledAs env ended w (match settleJob env due.job due.timeoutS due.now ended w with
      | (.ok u, w₃) => (Except.ok u, w₃)
      | (.error e, w₃) => handleFault env due.job due.now e w₃).2 := by
  have hsettle := settleJob_spec env due.job due.timeoutS due.now htimed hended w rfl
  cases h₃ : settleJob env due.job due.timeoutS due.now ended w with
  | mk r₃ w₃ =>
    rw [h₃] at hsettle
    cases r₃ with
    | ok u => exact hsettle
    | error e =>
      obtain ⟨hbad, hsettled⟩ := hsettle
      have hkeeps : Eff.Keeps (Settled w.db.committed.orders w.accepted)
          (handleFault env due.job due.now e) := handleFault_spec due.job due.now e
      exact Or.inr ⟨hbad, hkeeps.at_end hsettled⟩

theorem dispatchJob_eq (due : DueJob) (w : World) :
    dispatchJob env cfg due w =
      match startJob env due.job due.now w with
      | (.error e, w₁) => handleFault env due.job due.now e w₁
      | (.ok _, w₁) =>
        match settleJob env due.job due.timeoutS due.now (waitFor (due.action.run env cfg) w₁).1
            (waitFor (due.action.run env cfg) w₁).2 with
        | (.ok u, w₃) => (.ok u, w₃)
        | (.error e, w₃) => handleFault env due.job due.now e w₃ := by
  simp only [dispatchJob, tryCatch, tryCatchThe, MonadExceptOf.tryCatch, bind, Eff.attempt]
  cases startJob env due.job due.now w with
  | mk r w₁ =>
    cases r with
    | error e => rfl
    | ok u =>
      dsimp only
      cases settleJob env due.job due.timeoutS due.now (waitFor (due.action.run env cfg) w₁).1
          (waitFor (due.action.run env cfg) w₁).2 with
      | mk r₃ w₃ => cases r₃ <;> rfl

/-- A job sends nothing, or commits what it sent before it is recorded. -/
theorem dispatchJob_cases (env : Env) (cfg : Settings) (due : DueJob) (w : World) :
    ((runAction env cfg due w).2.accepted = w.accepted ∧
      (dispatchJob env cfg due w).2.accepted = w.accepted ∧
      ¬ Published env (runAction env cfg due w).1 (runAction env cfg due w).2) ∨
    ∃ w₁, Settled w.db.working.orders w.accepted w₁ ∧ w₁.db = Session.fresh w₁.db.committed ∧
      Recorded w₁ (runAction env cfg due w).2 ∧
      HandledAs env (runAction env cfg due w).1 (runAction env cfg due w).2
        (dispatchJob env cfg due w).2 := by
  have hstart := startJob_spec env due.job due.now w rfl
  rw [dispatchJob_eq]
  cases h₁ : startJob env due.job due.now w with
  | mk r₁ w₁ =>
    rw [h₁] at hstart
    cases r₁ with
    | error e =>
      have hrun : runAction env cfg due w = (.error e, w₁) := by
        simp only [runAction, bind, h₁]
      have hkeeps : Eff.Keeps (Settled w₁.db.committed.orders w.accepted)
          (handleFault env due.job due.now e) := handleFault_spec due.job due.now e
      rw [hrun]
      exact Or.inl ⟨hstart, (hkeeps.at_end ⟨rfl, hstart⟩).2, not_published_error⟩
    | ok u =>
      have hrun : runAction env cfg due w = waitFor (due.action.run env cfg) w₁ := by
        simp only [runAction, bind, h₁]
      have htimed := waitFor_timed (due.action.run env cfg) w₁
      have hkeeps : Eff.Keeps (Recorded w₁) (waitFor (due.action.run env cfg)) :=
        keeps_waitFor (keeps_action due.action)
      rw [hrun]
      exact Or.inr ⟨w₁, hstart.2, hstart.1, hkeeps.at_end (Recorded.refl w₁),
        handled_of_dispatch due htimed.1 htimed.2⟩

/-- **When accepted orders stay on file.** After a job was handled, exactly when its action
    returned, could be committed and leaves none of them cancelled, rejected or expired, or what it
    did was not committed and every order accepted during it had its row before. -/
theorem accepted_on_file_iff (env : Env) (cfg : Settings) (due : DueJob) (w : World) :
    let w' := (runAction env cfg due w).2
    AllOnFile w (dispatchJob env cfg due w).2 ↔
      (Published env (runAction env cfg due w).1 w' ∧
        NoneDead w'.db.working.orders (acceptedSince w w')) ∨
      (¬ Published env (runAction env cfg due w).1 w' ∧ ∀ o ∈ acceptedSince w w',
        Recognised w.db.working.orders o.request.idempotencyKey) := by
  dsimp only
  rcases dispatchJob_cases env cfg due w with ⟨hrun, hend, hbad⟩ | ⟨w₁, hw₁, hfresh, hrecord, hend⟩
  · -- nothing was accepted
    refine iff_of_true ?_ (Or.inr ⟨hbad, ?_⟩)
    · simp [AllOnFile, acceptedSince, hend]
    · simp [acceptedSince, hrun]
  · rcases hend with ⟨hgood, hsettled⟩ | ⟨hbad, hsettled⟩
    · rw [allOnFile_of_settled hsettled.1, ← hw₁.2, or_iff_left fun h => h.1 hgood,
        and_iff_right hgood]
      unfold NoneDead acceptedSince
      rw [← hw₁.2]
      exact forall₂_congr fun o ho => recognised_iff (hrecord.accepted.new o ho hgood.2.1)
    · rw [allOnFile_of_settled hsettled, hrecord.committed, hw₁.1, or_iff_right fun h => hbad h.1,
        and_iff_right hbad]
      rfl

end OnFile

/-! ## Jobs that lose their orders -/

section LostOrders

attribute [local instance] asciiCasing

instance (w w' : World) : Decidable (AllOnFile w w') :=
  inferInstanceAs (Decidable (∀ o ∈ acceptedSince w w', _))

def buyAapl : ValidatedOrderIntent :=
  { symbol := "AAPL", side := .buy, quantity := 10, orderType := "market", limitPrice := none,
    stopPrice := some 95, idempotencyKey := "wf:AAPL:buy:BUY", decisionId := "d1",
    thesis := "thesis", venue := some "US", conId := none, timeInForce := none,
    attribution := none }

def submitThen (ending : JobAction) : JobAction :=
  .submit freshWorld.controls { approved := true, intents := [buyAapl], rejections := [] }
    (some "d1") fun _ => ending

def dueJob (action : JobAction) : DueJob :=
  { job := { id := 1, jobKey := "US:intraday_eval_1", status := "planned", error := none,
             plannedAt := 0, startedAt := none, completedAt := none }
    action, timeoutS := 480, now := 0 }

/-- An order of the key that the broker has cancelled. -/
def cancelledBefore : World :=
  { emptyWorld with
    db := Session.fresh { emptyWorld.db.working with
      orders := (emptyWorld.db.working.orders.insert { pendingOrder mockSettings buyAapl none 0 with
        status := "CANCELLED" }).getD KeyedTable.empty } }

/-- The broker accepted the order and its row is rolled back: the action raised afterwards,
    or was cancelled while the answer of the broker was under way. Where the row was there before,
    it is again what it was, cancelled. -/
theorem rolled_back_after_accept :
    ¬ AllOnFile emptyWorld (dispatchJob (acceptingEnv fun _ => false) mockSettings
        (dueJob (submitThen (.raise (.workflow "no premarket")))) emptyWorld).2 ∧
    ¬ AllOnFile emptyWorld (dispatchJob (acceptingEnv (· = 6)) mockSettings
        (dueJob (submitThen (.raise .cancelled))) emptyWorld).2 ∧
    ¬ AllOnFile cancelledBefore (dispatchJob (acceptingEnv fun _ => false) mockSettings
        (dueJob (submitThen (.raise (.workflow "no premarket")))) cancelledBefore).2 := by
  decide +kernel

end LostOrders

end Investor.Core
