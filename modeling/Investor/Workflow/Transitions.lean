import Investor.Workflow.Kept

/-!
# The recorded transitions

Whether the rows of `workflow_state_transitions` tell where a run stands. Every operation of the
service keeps them telling it: a state is only assigned together with the row of the step that
leads to it, and where the flush of the row fails, the assignment is not reached. The recovery
assigns the state of a run of an earlier day without a row, and does so for every such run.

The assertion is over all runs on file, those of the session and the committed ones
(`RunsAll`), and a run of operations is by whoever calls them, each with its own services.
-/

namespace Investor.Workflow

open Lib Schema Core Execution

/-! ## All runs on file -/

structure RunsAll (Q : DailyWorkflowRun → Prop) (w : World) : Prop where
  working : ∀ r ∈ w.db.working.runs.rows, Q r
  committed : ∀ r ∈ w.db.committed.runs.rows, Q r

theorem submitFree_runsAll (Q : DailyWorkflowRun → Prop) : SubmitFree (RunsAll Q) where
  tick := fun _ h => ⟨h.working, h.committed⟩
  abort := fun _ h => ⟨h.committed, h.committed⟩
  set := fun _ h => ⟨h.working, h.committed⟩
  insert := fun _ h => ⟨h.working, h.committed⟩
  accept := fun _ h => ⟨h.working, h.committed⟩
  send := fun _ h => ⟨h.working, h.committed⟩

variable {Q : DailyWorkflowRun → Prop}

theorem steady_runsAll [Casing] (hchange : ∀ {r r'}, RunChange r r' → Q r → Q r')
    (hnew : ∀ {r : DailyWorkflowRun}, r.transitions = [] → r.currentState = r.createdAs → Q r) :
    Steady (RunsAll Q) where
  tick := fun _ h => ⟨h.working, h.committed⟩
  abort := fun _ h => ⟨h.committed, h.committed⟩
  intents := fun _ _ h => ⟨h.working, h.committed⟩
  submits := fun _ _ _ => keeps_submitValidated_free (submitFree_runsAll Q)
  leases := fun _ h => ⟨h.working, h.committed⟩
  change := by
    intro w k f hf _ hstep h
    refine ⟨fun r' hr' => ?_, h.committed⟩
    obtain ⟨r, hr, rfl⟩ := List.mem_map.mp hr'
    by_cases hrk : r.session = k
    · rw [if_pos hrk]
      exact hchange (hstep r (KeyedTable.find?_eq_some_iff.mpr ⟨hr, hrk⟩)) (h.working r hr)
    · rw [if_neg hrk]
      exact h.working r hr
  create := by
    intro w run runs hinsert hrows hstate h
    refine ⟨fun r hr => ?_, h.committed⟩
    have hr : r ∈ w.db.working.runs.rows ++ [run] := by
      rw [← (KeyedTable.insert_eq_some hinsert).2]
      exact hr
    rcases List.mem_append.mp hr with hr | hr
    · exact h.working r hr
    · rw [List.mem_singleton.mp hr]
      exact hnew hrows hstate

theorem RunChange.trailed {r r' : DailyWorkflowRun} (h : RunChange r r') (hr : r.Trailed) :
    r'.Trailed := by
  cases h with
  | columns hrows hcreated hstate => exact hr.of_same hrows hcreated hstate
  | moves trigger reason hallowed _ hrows hcreated =>
    exact (hr.enter hallowed trigger reason).of_same hrows hcreated rfl

abbrev AllTrailed (w : World) : Prop := RunsAll DailyWorkflowRun.Trailed w

theorem steady_allTrailed [Casing] : Steady AllTrailed :=
  steady_runsAll RunChange.trailed DailyWorkflowRun.Trailed.of_new

/-! ## The recovery -/

section Recovery

variable {rec : RecoveryDesk} {now : Int} {r : DailyWorkflowRun}

theorem recoverRun_columns (h : rec.isStale now r = false) :
    RunChange r (rec.recoverRun now r) := by
  unfold RecoveryDesk.recoverRun
  rw [h]
  split
  · exact RunChange.columns rfl rfl rfl
  · simp only [Bool.false_eq_true, if_false]
    cases rec.noteFor now r with
    | none => exact RunChange.columns rfl rfl rfl
    | some note => exact RunChange.columns rfl rfl rfl

end Recovery

/-! ## Runs of operations -/

structure DailyCall where
  desk : Desk
  recovery : RecoveryDesk
  op : DailyOp

section Calls

variable (env : Env)

def DailyCall.step [Casing] (w : World) (c : DailyCall) : World := dailyStep env c.desk c.recovery w c.op

def FindsNoneStale (w : World) (c : DailyCall) : Prop :=
  ∀ now, c.op = .recover now → ∀ r ∈ w.db.working.runs.rows, c.recovery.isStale now r = false

variable {env}

variable {w : World}

theorem keeps_recoveryRun [Casing] (hQ : Steady (RunsAll Q)) {rec : RecoveryDesk} {now : Int}
    (hw : RunsAll Q w) (hrewrite : ∀ r ∈ w.db.working.runs.rows, Q r → Q (rec.recoverRun now r)) :
    RunsAll Q (recoveryRun env rec now w).2 := by
  -- a session that was not broken still holds the runs of the beginning
  let J : World → Prop := fun x => RunsAll Q x ∧ (x.db.broken = false →
    ∀ r ∈ x.db.working.runs.rows, Q r → Q (rec.recoverRun now r))
  have hJ : Calm J :=
    ⟨fun x h => ⟨hQ.tick x h.1, h.2⟩,
      fun x h => ⟨hQ.abort x h.1, fun hb => absurd hb (by simp)⟩⟩
  have hreclaim : Eff.Keeps J (reclaimExpired env) := by
    refine Eff.Keeps.bind Eff.keeps_read fun start => Eff.Keeps.bind (keeps_query hJ) fun _ => ?_
    exact keeps_flushWith hJ fun x _ hx => ⟨hQ.leases _ hx.1, hx.2⟩
  have hall : Eff.Spec J (recoveryRun env rec now) (fun _ => RunsAll Q) (fun _ => RunsAll Q) := by
    refine Eff.Spec.bind ((keeps_callService hJ).weaken (fun _ h => h) (fun _ _ h => h)
      fun _ _ h => h.1) fun _ => ?_
    refine Eff.Spec.bind (hreclaim.weaken (fun _ h => h) (fun _ _ h => h) fun _ _ h => h.1)
      fun _ => ?_
    refine Eff.Spec.bind ((query_spec hJ).weaken (fun _ h => h) (fun _ _ h => h)
      fun _ _ h => h.1) fun runs => ?_
    refine Eff.Spec.bind (M := fun _ => RunsAll Q) (Eff.Spec.edit fun x hx => ?_) fun _ =>
      keeps_sync hQ.toCalm
    obtain ⟨⟨hx, hrewrite⟩, husable, _⟩ := hx
    refine ⟨fun r' hr' => ?_, hx.committed⟩
    obtain ⟨r, hr, rfl⟩ := List.mem_map.mp hr'
    exact hrewrite husable r hr (hx.working r hr)
  exact hall.at_end ⟨hw, fun _ => hrewrite⟩

theorem keeps_commit (hQ : Calm (RunsAll Q)) (hw : RunsAll Q w) : RunsAll Q (commit env w).2 := by
  have hend := commit_spec env hQ w hw
  cases hrun : commit env w with
  | mk e w' =>
    rw [hrun] at hend
    cases e with
    | ok u =>
      obtain ⟨x, hx, _, rfl⟩ := hend
      exact ⟨hx.working, hx.working⟩
    | error e => exact hend

theorem DailyCall.step_runsAll [Casing] (hQ : Steady (RunsAll Q)) {c : DailyCall} (hw : RunsAll Q w)
    (hrewrite : ∀ now, c.op = .recover now → ∀ r ∈ w.db.working.runs.rows, Q r →
      Q (c.recovery.recoverRun now r)) : RunsAll Q (c.step env w) := by
  obtain ⟨desk, rec, op⟩ := c
  cases op with
  | recover now => exact keeps_recoveryRun hQ hw (hrewrite now rfl)
  | commit => exact keeps_commit hQ.toCalm hw
  | rollback => exact ⟨hw.committed, hw.committed⟩
  | _ => exact (keeps_service hQ rfl).at_end hw

theorem DailyCall.step_trailed [Casing] {c : DailyCall} (hw : AllTrailed w)
    (hc : FindsNoneStale w c) : AllTrailed (c.step env w) :=
  DailyCall.step_runsAll steady_allTrailed hw fun now hop r hr htrailed =>
    (recoverRun_columns (hc now hop r hr)).trailed htrailed

/-- **In a run of calls none of which is a recovery that finds a run of an earlier day open, the
    rows of every run tell where it stands, in every state reached.** -/
theorem calls_trailed [Casing] {w₀ : World} {calls : List DailyCall} (h₀ : AllTrailed w₀)
    (hcalls : StepsMeet (DailyCall.step env) FindsNoneStale w₀ calls) :
    AllTrailed (runFrom (DailyCall.step env) w₀ calls) :=
  run_invariant_of_meets (fun _ _ hw hc => DailyCall.step_trailed hw hc) h₀ hcalls

end Calls

/-! ## A run of yesterday -/

section Stale

attribute [local instance] asciiCasing

instance decidableTrailed (r : DailyWorkflowRun) : Decidable r.Trailed :=
  decidable_of_iff (IsTrail Allowed r.createdAs r.steps ∧
    r.currentState = trailEnd r.createdAs r.steps)
    ⟨fun h => ⟨h.1, h.2⟩, fun h => ⟨h.path, h.stands⟩⟩

instance (w : World) : Decidable (AllTrailed w) :=
  decidable_of_iff ((∀ r ∈ w.db.working.runs.rows, r.Trailed) ∧
    ∀ r ∈ w.db.committed.runs.rows, r.Trailed)
    ⟨fun h => ⟨h.1, h.2⟩, fun h => ⟨h.working, h.committed⟩⟩

def callOf (op : DailyOp) : DailyCall :=
  { desk := deskDeciding (decisionOf .hold [])
    recovery := { calendarOf := fun _ => (deskDeciding (decisionOf .hold [])).calendar
                  restore := fun _ => answers () }
    op }

def preparedThenRestarted : List DailyCall :=
  [callOf (.prepare (some 0) 0), callOf .commit, callOf (.recover 86400)]

/-- The run of the session is `FAILED`, with no row that says so. -/
theorem restarted_not_trailed :
    AllTrailed emptyWorld ∧
      ¬ AllTrailed (runFrom (DailyCall.step (acceptingEnv fun _ => false)) emptyWorld
        preparedThenRestarted) := by
  decide +kernel

/-- The session is analysed and opened, and the service restarted on the same day. -/
theorem calls_trailed_opened :
    AllTrailed (runFrom (DailyCall.step (acceptingEnv fun _ => false)) emptyWorld
      [callOf (.prepare (some 0) 0), callOf (.runAnalysis (some 0)),
        callOf (.revalidate (some 0) 0 noFixture), callOf .commit, callOf (.recover 7200)]) := by
  refine calls_trailed (by decide +kernel) ?_
  refine ⟨fun now h => ?_, fun now h => ?_, fun now h => ?_, fun now h => ?_, fun now h => ?_,
    trivial⟩
  · cases h
  · cases h
  · cases h
  · cases h
  · cases h
    decide +kernel

end Stale

end Investor.Workflow
