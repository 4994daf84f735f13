import Investor.Workflow.Kept
import Investor.Workflow.Undisturbed

/-!
# An analysis and its orders

`run_analysis` accepts three states, sends the orders of the committee's decision, and then
changes the state to `PREOPEN_REVALIDATION`. From that state itself the change is not allowed,
so a second analysis before the open raises after its orders were sent. From the other two the
call ends where the transitions lead, with the decision on the run and its orders on file,
unless something disturbs the flushes that follow the orders.

The call is followed in two parts: up to the orders (`upToOrders`), and what closes it.
-/

namespace Investor.Workflow

open Lib Schema Market Risk Core Execution

section AnalysisOrders

variable {env : Env} {desk : Desk} {k : SessionKey}

/-! ## Up to the orders -/

def leasedRun (env : Env) (desk : Desk) (k : SessionKey) : Prog DailyWorkflowRun := do
  let run ← requireRun env k
  assertNotBlocked desk run
  acquireLease env desk (analysisLease desk k)
  return run

def upToOrders [Casing] (env : Env) (desk : Desk) (k : SessionKey) : Prog Decided := do
  let run ← leasedRun env desk k
  decideAndTrade env desk k run.id

def DailyWorkflowState.inAnalysis : DailyWorkflowState → DailyWorkflowState
  | .premarketPreparation => .premarketAnalysis
  | state => state

variable {state : DailyWorkflowState}

theorem startAnalysis_spec :
    Eff.Spec (Stands k state) (startAnalysis env k)
      (fun _ w => state.isPremarket ∧ Stands k state.inAnalysis w) (fun _ _ => True) := by
  refine Eff.Spec.bind (loadedRun_spec.weaken (fun _ h => h) (fun _ _ h => h)
    fun _ _ _ => trivial) fun run => ?_
  have hstate : ∀ w, (Stands k state w ∧ w.db.broken = false ∧
      w.db.working.runs.find? k = some run) → run.currentState = state := by
    intro w hw
    obtain ⟨run', hrun', hs⟩ := hw.1 hw.2.1
    rw [hw.2.2] at hrun'
    rw [← hs, ← Option.some.inj hrun']
  cases hrun : run.currentState with
  | premarketPreparation =>
    intro w hw
    obtain rfl := (hstate w hw).symm.trans hrun
    exact (setState_spec.weaken (fun _ h => h) (fun _ _ h => ⟨rfl, h.2⟩) fun _ _ h => h) w hw.1
  | premarketAnalysis =>
    refine Eff.Spec.pure fun w hw => ?_
    obtain rfl := (hstate w hw).symm.trans hrun
    exact ⟨rfl, hw.1⟩
  | preopenRevalidation =>
    refine Eff.Spec.pure fun w hw => ?_
    obtain rfl := (hstate w hw).symm.trans hrun
    exact ⟨rfl, hw.1⟩
  | _ => exact Eff.Spec.throw fun _ _ => trivial

/-- A decision is the committee's, of a run before the market. -/
theorem decideAndTrade_spec [Casing] {runId : String} :
    Eff.Spec (Stands k state) (decideAndTrade env desk k runId)
      (fun d w => (state.isPremarket ∧ Stands k state.inAnalysis w) ∧
        ∃ n, (desk.committee n).reply = .ok d.analysis)
      (fun _ _ => True) := by
  let I : World → Prop := fun w => state.isPremarket ∧ Stands k state.inAnalysis w
  have hfree := submitFree_stands k state.inAnalysis
  have hI : SubmitFree I :=
    { tick := fun w h => ⟨h.1, hfree.tick w h.2⟩
      abort := fun w h => ⟨h.1, hfree.abort w h.2⟩
      set := fun hf h => ⟨h.1, hfree.set hf h.2⟩
      insert := fun hins h => ⟨h.1, hfree.insert hins h.2⟩
      accept := fun o h => ⟨h.1, hfree.accept o h.2⟩
      send := fun o h => ⟨h.1, hfree.send o h.2⟩ }
  have hintents : IntentsFree I := fun w f h => h
  have hcall : ∀ {α : Type} (answer : Nat → ServiceAnswer α),
      Eff.Spec I (callService env answer) (fun _ => I) (fun _ _ => True) := fun answer =>
    (keeps_callService hI.toCalm).weaken (fun _ h => h) (fun _ _ h => h) fun _ _ _ => trivial
  have hmeta : ∀ f, Eff.Spec I (editMeta k f) (fun _ => I) (fun _ _ => True) := by
    intro f w hw
    have hkeeps : Eff.Keeps (Stands k state.inAnalysis) (editMeta k f) :=
      keeps_assignRun_stands fun _ => rfl
    have hspec : Eff.Spec (Stands k state.inAnalysis) (editMeta k f) (fun _ => I)
        (fun _ _ => True) :=
      hkeeps.weaken (fun _ h => h) (fun _ _ h => ⟨hw.1, h⟩) fun _ _ _ => trivial
    exact hspec w hw.2
  refine Eff.Spec.bind startAnalysis_spec fun _ => Eff.Spec.ite
    (fun _ => Eff.Spec.throw fun _ _ => trivial) fun _ => ?_
  refine Eff.Spec.bind (M := fun _ => I) ?_ fun portfolio => ?_
  · exact Eff.Spec.tryCatch (hcall _) fun e => Eff.Spec.ite
      (fun _ => Eff.Spec.throw fun _ _ => trivial) fun _ => Eff.Spec.throw fun _ _ => trivial
  refine Eff.Spec.bind (hcall _) fun u => Eff.Spec.bind (hcall _) fun c =>
    Eff.Spec.bind (hmeta _) fun _ => ?_
  refine Eff.Spec.bind ((callService_spec hI.toCalm).weaken (fun _ h => h) (fun _ _ h => h)
    fun _ _ _ => trivial) fun a => ?_
  intro w hw
  obtain ⟨hw, hanswer⟩ := hw
  refine (Eff.Spec.bind (hcall _) fun _ => Eff.Spec.bind (M := fun _ => I) ?_ fun r =>
    Eff.Spec.pure fun w hw => ⟨hw, hanswer⟩ : Eff.Spec I _ _ _) w hw
  exact (keeps_materialize hI.toCalm hintents fun _ _ _ =>
    keeps_submitValidated_free hI).weaken (fun _ h => h) (fun _ _ h => h) fun _ _ _ => trivial

/-- What a call that came to its orders started from, and where the run stands. -/
structure Started (desk : Desk) (k : SessionKey) (w w' : World) (d : Decided)
    (run : DailyWorkflowRun) : Prop where
  found : w.db.working.runs.find? k = some run
  premarket : run.currentState.isPremarket
  stands : Stands k run.currentState.inAnalysis w'
  decided : ∃ n, (desk.committee n).reply = .ok d.analysis

def SameRuns (w₀ w : World) : Prop :=
  w.db.broken = false → w.db.working.runs = w₀.db.working.runs

theorem leasesFree_sameRuns (w₀ : World) : LeasesFree (SameRuns w₀) where
  tick := fun _ h => h
  abort := fun _ _ hb => absurd hb (by simp)
  leases := fun _ h => h

theorem runAnalysis_eq [Casing] :
    runAnalysis env desk k = (do
      let run ← leasedRun env desk k
      finallyDo (do
        let d ← decideAndTrade env desk k run.id
        closeAnalysis env desk k d) (releaseQuietly env desk (analysisLease desk k))) := by
  unfold leasedRun
  rw [Eff.bind_bind]
  refine bind_congr fun run => ?_
  rw [Eff.bind_bind]
  refine bind_congr fun _ => ?_
  rw [Eff.bind_bind]
  rfl

/-- A call that comes to its orders has a decision and a run before the market. -/
theorem upToOrders_spec [Casing] {w₀ : World} :
    Eff.Spec (· = w₀) (upToOrders env desk k) (fun d w => ∃ run, Started desk k w₀ w d run)
      (fun _ _ => True) := by
  have hfree := leasesFree_sameRuns w₀
  have hrequire : Eff.Spec (· = w₀) (requireRun env k)
      (fun run w => SameRuns w₀ w ∧ w₀.db.working.runs.find? k = some run) (fun _ _ => True) := by
    refine Eff.Spec.bind (((query_spec hfree.toCalm).weaken (fun w hw => ?_) (fun _ _ h => h)
      fun _ _ _ => trivial)) fun found => ?_
    · rw [hw]
      exact fun _ => rfl
    · cases found with
      | none => exact Eff.Spec.throw fun _ _ => trivial
      | some run =>
        refine Eff.Spec.pure fun w hw => ⟨hw.1, ?_⟩
        rw [← hw.1 hw.2.1]
        exact hw.2.2.symm
  have hleased : Eff.Spec (· = w₀) (leasedRun env desk k)
      (fun run w => SameRuns w₀ w ∧ w₀.db.working.runs.find? k = some run) (fun _ _ => True) := by
    refine Eff.Spec.bind hrequire fun run => Eff.Spec.assume fun hfound => ?_
    refine Eff.Spec.bind (keeps_assertNotBlocked.weaken (fun _ h => h) (fun _ _ h => h)
      fun _ _ _ => trivial) fun _ => ?_
    refine Eff.Spec.bind ((keeps_acquireLease hfree).weaken (fun _ h => h) (fun _ _ h => h)
      fun _ _ _ => trivial) fun _ => ?_
    exact Eff.Spec.pure fun w hw => ⟨hw, hfound⟩
  refine Eff.Spec.bind hleased fun run => Eff.Spec.assume fun hfound => ?_
  refine decideAndTrade_spec.weaken (fun w hsame husable => ⟨run, ?_, rfl⟩)
    (fun d w hd => ⟨run, hfound, hd.1.1, hd.1.2, hd.2⟩) fun _ _ h => h
  rw [hsame husable]
  exact hfound

/-! ## What closes the call -/

theorem runsFree_accepted (orders : List AcceptedOrder) :
    RunsFree fun w => w.accepted = orders where
  tick := fun _ h => h
  abort := fun _ h => h
  leases := fun _ h => h
  change := fun _ _ _ h => h
  create := fun _ _ _ h => h

theorem runsFree_sent (orders : List AcceptedOrder) : RunsFree fun w => w.sent = orders where
  tick := fun _ h => h
  abort := fun _ h => h
  leases := fun _ h => h
  change := fun _ _ _ h => h
  create := fun _ _ _ h => h

variable {w w₂ : World}

theorem finallyDo_of_ok {α : Type} {p : Prog α} {after : Prog Unit} {w₁ : World}
    {ended : Except Fault α} (hp : p w = (ended, w₁)) (hafter : after w₁ = (.ok (), w₂)) :
    finallyDo p after w = (ended, w₂) := by
  have hattempt : Eff.attempt p w = (.ok ended, w₁) := by simp [Eff.attempt, hp]
  unfold finallyDo
  rw [Eff.bind_of_ok hattempt, Eff.bind_of_ok hafter]
  cases ended <;> rfl

theorem finallyDo_of_error {α : Type} {p : Prog α} {after : Prog Unit} {w₁ : World}
    {ended : Except Fault α} {e : Fault} (hp : p w = (ended, w₁))
    (hafter : after w₁ = (.error e, w₂)) : finallyDo p after w = (.error e, w₂) := by
  have hattempt : Eff.attempt p w = (.ok ended, w₁) := by simp [Eff.attempt, hp]
  unfold finallyDo
  rw [Eff.bind_of_ok hattempt, Eff.bind_of_error hafter]

/-- Nothing disturbs what follows the orders: the two flushes of the closing change of state,
    and the release of the lease. -/
structure EndsQuietly (env : Env) (desk : Desk) (k : SessionKey) (w : World) : Prop where
  row : FlushGoes env w
  state : FlushGoes env w.tick
  release : ReleaseGoes env desk (analysisLease desk k) w.tick.tick

def withDecision (desk : Desk) (d : Decided) (r : DailyWorkflowRun) : DailyWorkflowRun :=
  { r with
    metadata := analysisMeta desk d.portfolio d.collected d.analysis d.execution r.metadata
    latestDecisionId := some d.analysis.cio.decisionId }

def decidedWorld (desk : Desk) (k : SessionKey) (d : Decided) (w : World) : World :=
  { w with db := w.db.write (setRun k (withDecision desk d) fun _ => rfl) }

theorem found_decidedWorld {d : Decided} {run : DailyWorkflowRun} {w : World}
    (hrun : w.db.working.runs.find? k = some run) :
    (decidedWorld desk k d w).db.working.runs.find? k = some (withDecision desk d run) :=
  @found_setRun k (withDecision desk d) (fun _ => rfl) _ _ hrun

variable {d : Decided}

theorem closeAnalysis_eq {run : DailyWorkflowRun} (husable : w.db.broken = false)
    (hrun : w.db.working.runs.find? k = some run) :
    closeAnalysis env desk k d w =
      setState env k .preopenRevalidation "run_analysis" "analysis_complete"
        (decidedWorld desk k d w) := by
  have hassign : assignRun k (withDecision desk d) (fun _ => rfl) w =
      (.ok (), decidedWorld desk k d w) := assignRun_goes husable hrun
  exact Eff.bind_of_ok hassign

theorem closeAnalysis_goes {d : Decided} {state : DailyWorkflowState} {w : World}
    (hs : Stands k state w) (hallowed : Allowed state .preopenRevalidation)
    (hrow : FlushGoes env w) (hend : FlushGoes env w.tick) :
    ∃ t : Tables, closeAnalysis env desk k d w =
        (.ok (), { w.tick.tick with db := w.db.write fun _ => t }) ∧
      t.leases = w.db.working.leases ∧
      ∃ run', t.runs.find? k = some run' ∧ run'.currentState = .preopenRevalidation ∧
        run'.latestDecisionId = some d.analysis.cio.decisionId := by
  obtain ⟨run, hrun, rfl⟩ := hs hrow.usable
  have hfound := @found_decidedWorld desk k d run w hrun
  have hset := @setState_goes env k .preopenRevalidation "run_analysis" "analysis_complete" _
    (decidedWorld desk k d w) hfound hallowed (hrow.of_same rfl rfl rfl)
    (hend.of_same rfl rfl rfl)
  refine ⟨setRun k (·.enter .preopenRevalidation "run_analysis" "analysis_complete")
    (fun _ => rfl) (decidedWorld desk k d w).db.working,
    (closeAnalysis_eq hrow.usable hrun).trans hset, rfl, ?_⟩
  exact ⟨(withDecision desk d run).enter .preopenRevalidation "run_analysis"
    "analysis_complete", found_setRun _ hfound, rfl, rfl⟩

theorem closeAnalysis_stops {d : Decided} {state : DailyWorkflowState} {w : World}
    (hs : Stands k state w) (h : ¬ (Allowed state .preopenRevalidation ∧ FlushGoes env w ∧
      FlushGoes env w.tick)) :
    ∃ e w', closeAnalysis env desk k d w = (.error e, w') := by
  by_cases husable : w.db.broken = false
  · obtain ⟨run, hrun, rfl⟩ := hs husable
    rw [closeAnalysis_eq husable hrun]
    obtain ⟨e, w', hstop, _⟩ := @setState_stops env k .preopenRevalidation "run_analysis"
      "analysis_complete" _ _ (@found_decidedWorld desk k d run w hrun) fun hgo =>
        h ⟨hgo.1, hgo.2.1.of_same rfl rfl rfl, hgo.2.2.of_same rfl rfl rfl⟩
    exact ⟨e, w', hstop⟩
  · have hbroken : w.db.broken = true := Bool.eq_true_of_not_eq_false husable
    exact ⟨_, _, Eff.bind_of_error (Eff.bind_of_error (loadedRun_stops hbroken))⟩

/-! ## How the call ends -/

theorem runAnalysis_of_ok [Casing] (h : upToOrders env desk k w = (.ok d, w₂)) :
    runAnalysis env desk k w = finallyDo (closeAnalysis env desk k d)
      (releaseQuietly env desk (analysisLease desk k)) w₂ := by
  rw [runAnalysis_eq]
  unfold upToOrders at h
  cases hrun : leasedRun env desk k w with
  | mk r w₁ =>
    cases r with
    | error e => rw [Eff.bind_of_error hrun] at h; cases h
    | ok run =>
      rw [Eff.bind_of_ok hrun] at h ⊢
      have hbody : Eff.attempt (do
          let d ← decideAndTrade env desk k run.id
          closeAnalysis env desk k d) w₁ = Eff.attempt (closeAnalysis env desk k d) w₂ := by
        unfold Eff.attempt
        rw [Eff.bind_of_ok h]
      unfold finallyDo
      cases hclose : Eff.attempt (closeAnalysis env desk k d) w₂ with
      | mk r w₃ =>
        cases r with
        | error e => rw [Eff.bind_of_error (hbody.trans hclose), Eff.bind_of_error hclose]
        | ok ended => rw [Eff.bind_of_ok (hbody.trans hclose), Eff.bind_of_ok hclose]

theorem runAnalysis_of_error [Casing] {e : Fault} (h : upToOrders env desk k w = (.error e, w₂)) :
    ∃ e' w', runAnalysis env desk k w = (.error e', w') ∧ w'.sent = w₂.sent := by
  rw [runAnalysis_eq]
  unfold upToOrders at h
  cases hrun : leasedRun env desk k w with
  | mk r w₁ =>
    cases r with
    | error e' =>
      rw [Eff.bind_of_error hrun] at h ⊢
      cases h
      exact ⟨e, w₂, rfl, rfl⟩
    | ok run =>
      rw [Eff.bind_of_ok hrun] at h ⊢
      have hbody : (do
          let d ← decideAndTrade env desk k run.id
          closeAnalysis env desk k d : Prog Unit) w₁ = (.error e, w₂) := Eff.bind_of_error h
      have hfree := (runsFree_sent w₂.sent).toLeasesFree
      have hrelease : Eff.Keeps (fun w => w.sent = w₂.sent)
          (releaseQuietly env desk (analysisLease desk k)) := keeps_releaseQuietly hfree
      cases hreleased : releaseQuietly env desk (analysisLease desk k) w₂ with
      | mk r w₃ =>
        have hend : w₃.sent = w₂.sent := hrelease.of_end rfl hreleased
        cases r with
        | error e' => exact ⟨e', w₃, finallyDo_of_error hbody hreleased, hend⟩
        | ok u => exact ⟨e, w₃, finallyDo_of_ok hbody hreleased, hend⟩

theorem allowed_preopen_iff (h : state.isPremarket) :
    Allowed state.inAnalysis .preopenRevalidation ↔ state ≠ .preopenRevalidation := by
  revert h
  cases state <;> decide

/-- After its orders the analysis returns exactly from an earlier state, undisturbed. -/
theorem runAnalysis_ok_iff [Casing] {run : DailyWorkflowRun}
    (h : upToOrders env desk k w = (.ok d, w₂)) (hs : Started desk k w w₂ d run) :
    (∃ w', runAnalysis env desk k w = (.ok (), w')) ↔
      run.currentState ≠ .preopenRevalidation ∧ EndsQuietly env desk k w₂ := by
  rw [runAnalysis_of_ok h, ← allowed_preopen_iff hs.premarket]
  by_cases hclose : Allowed run.currentState.inAnalysis .preopenRevalidation ∧
      FlushGoes env w₂ ∧ FlushGoes env w₂.tick
  · obtain ⟨hallowed, hrow, hstate⟩ := hclose
    obtain ⟨t, hclosed, hleases, -⟩ := @closeAnalysis_goes env desk k d _ _ hs.stands
      hallowed hrow hstate
    have hrelease : ReleaseGoes env desk (analysisLease desk k)
        { w₂.tick.tick with db := w₂.db.write fun _ => t } ↔
        ReleaseGoes env desk (analysisLease desk k) w₂.tick.tick :=
      @releaseGoes_write env desk _ t w₂.tick.tick hleases
    by_cases hgo : ReleaseGoes env desk (analysisLease desk k)
        { w₂.tick.tick with db := w₂.db.write fun _ => t }
    · obtain ⟨w₄, hreleased, _⟩ := releaseQuietly_goes hgo
      refine iff_of_true ⟨w₄, finallyDo_of_ok hclosed hreleased⟩ ⟨hallowed, hrow, hstate, ?_⟩
      exact hrelease.mp hgo
    · obtain ⟨e, w₄, hstopped⟩ := releaseQuietly_stops hgo
      refine iff_of_false ?_ fun hquiet => hgo (hrelease.mpr hquiet.2.release)
      rintro ⟨w', hok⟩
      rw [finallyDo_of_error hclosed hstopped] at hok
      cases hok
  · refine iff_of_false ?_ fun hquiet => hclose ⟨hquiet.1, hquiet.2.row, hquiet.2.state⟩
    rintro ⟨w', hok⟩
    obtain ⟨e, w₃, hstop⟩ := @closeAnalysis_stops env desk k d _ _ hs.stands hclose
    cases hreleased : releaseQuietly env desk (analysisLease desk k) w₃ with
    | mk r w₄ =>
      cases r with
      | error e' => rw [finallyDo_of_error hstop hreleased] at hok; cases hok
      | ok u => rw [finallyDo_of_ok hstop hreleased] at hok; cases hok

/-! ## When the orders and the run agree -/

theorem steady_recorded [Casing] (w₀ : World) : Steady (Recorded w₀) where
  tick := (calm_recorded w₀).tick
  abort := (calm_recorded w₀).abort
  leases := fun _ h => ⟨h.committed, h.kept, h.accepted, h.sent⟩
  change := fun _ _ _ h => ⟨h.committed, h.kept, h.accepted, h.sent⟩
  create := fun _ _ _ h => ⟨h.committed, h.kept, h.accepted, h.sent⟩
  intents := fun _ _ h => ⟨h.committed, h.kept, h.accepted, h.sent⟩
  submits := fun _ _ _ => keeps_submitValidatedIntents

/-- After the call the run stands where the transitions lead from its state before, with a
    decision of the committee on it, and every order sent in the call has its row. -/
structure AnalysisDone (desk : Desk) (k : SessionKey) (w w' : World) : Prop where
  usable : w'.db.broken = false
  stands : ∃ run run', w.db.working.runs.find? k = some run ∧
    w'.db.working.runs.find? k = some run' ∧
    Relation.ReflTransGen Allowed run.currentState run'.currentState ∧
    ∃ n a, (desk.committee n).reply = .ok a ∧ run'.latestDecisionId = some a.cio.decisionId
  recorded : ∀ o ∈ sentSince w w', w'.db.working.orders.HasKey o.request.idempotencyKey

/-- The call returns with everything done, or raises before any order is handed to the broker. -/
def AnalysisSound [Casing] (env : Env) (desk : Desk) (k : SessionKey) (w : World) : Prop :=
  match runAnalysis env desk k w with
  | (.ok _, w') => AnalysisDone desk k w w'
  | (.error _, w') => sentSince w w' = []

def NothingSent [Casing] (env : Env) (desk : Desk) (k : SessionKey) (w : World) : Prop :=
  sentSince w (upToOrders env desk k w).2 = []

/-- The run is not before the open already, the orders are sent without an exception, and
    nothing disturbs what follows them. -/
structure Closes [Casing] (env : Env) (desk : Desk) (k : SessionKey) (w : World) : Prop where
  starts : ∀ run, w.db.working.runs.find? k = some run →
    run.currentState ≠ .preopenRevalidation
  sends : ∃ d, (upToOrders env desk k w).1 = .ok d
  quiet : EndsQuietly env desk k (upToOrders env desk k w).2

theorem reaches_preopen (h : state.isPremarket) :
    Relation.ReflTransGen Allowed state .preopenRevalidation := by
  cases state with
  | premarketPreparation =>
    exact Relation.ReflTransGen.head (show Allowed _ .premarketAnalysis by decide)
      (Relation.ReflTransGen.single (by decide))
  | premarketAnalysis => exact Relation.ReflTransGen.single (by decide)
  | preopenRevalidation => exact Relation.ReflTransGen.refl
  | _ => cases h

/-- An analysis that returns has its decision on the run and its orders on file. -/
theorem analysisDone_of_ok [Casing] {w' : World} (h : runAnalysis env desk k w = (.ok (), w')) :
    AnalysisDone desk k w w' := by
  have hrecord : Recorded w w' :=
    (keeps_runAnalysis (steady_recorded w)).of_end (Recorded.refl w) h
  have hup := @upToOrders_spec env desk k _ w w rfl
  cases hr : upToOrders env desk k w with
  | mk r w₂ =>
    rw [hr] at hup
    cases r with
    | error e =>
      obtain ⟨e', w₃, herror, _⟩ := runAnalysis_of_error hr
      rw [h] at herror
      cases herror
    | ok d =>
      obtain ⟨run, hs⟩ := hup
      obtain ⟨hstart, hquiet⟩ := (runAnalysis_ok_iff hr hs).mp ⟨w', h⟩
      obtain ⟨t, hclosed, hleases, run', hrun', hstate, hdecision⟩ :=
        @closeAnalysis_goes env desk k d _ _ hs.stands
          ((allowed_preopen_iff hs.premarket).mpr hstart) hquiet.row hquiet.state
      let w₃ : World := { w₂.tick.tick with db := w₂.db.write fun _ => t }
      obtain ⟨w₄, hreleased, husable⟩ := releaseQuietly_goes
        ((@releaseGoes_write env desk _ t w₂.tick.tick hleases).mpr hquiet.release)
      have hsame : SameRuns w₃ w₄ := by
        have hkeeps : Eff.Keeps (SameRuns w₃)
            (releaseQuietly env desk (analysisLease desk k)) :=
          keeps_releaseQuietly (leasesFree_sameRuns w₃)
        exact hkeeps.of_end (fun _ => rfl : SameRuns w₃ w₃) hreleased
      obtain rfl : w₄ = w' := by
        rw [runAnalysis_of_ok hr, finallyDo_of_ok hclosed hreleased] at h
        cases h
        rfl
      obtain ⟨n, hanswer⟩ := hs.decided
      refine ⟨husable, ⟨run, run', hs.found, ?_, ?_, n, d.analysis, hanswer, hdecision⟩,
        fun o ho => hrecord.sent.new o ho husable⟩
      · rw [hsame husable]
        exact hrun'
      · rw [hstate]
        exact reaches_preopen hs.premarket

/-- **When the orders of an analysis and its run agree.** Exactly when no order is sent, or the
    run was not before the open already and nothing disturbs what follows the orders. -/
theorem analysisSound_iff [Casing] (env : Env) (desk : Desk) (k : SessionKey) (w : World) :
    AnalysisSound env desk k w ↔ NothingSent env desk k w ∨ Closes env desk k w := by
  have hup := @upToOrders_spec env desk k _ w w rfl
  unfold AnalysisSound
  cases hr : upToOrders env desk k w with
  | mk r w₂ =>
    rw [hr] at hup
    -- what a call that raises has sent, it has sent up to the orders
    have hsent : NothingSent env desk k w ↔ sentSince w w₂ = [] := by
      unfold NothingSent
      rw [hr]
    cases r with
    | error e =>
      obtain ⟨e', w', herror, hsame⟩ := runAnalysis_of_error hr
      have hcloses : ¬ Closes env desk k w := by
        intro hc
        obtain ⟨d, hd⟩ := hc.sends
        rw [hr] at hd
        cases hd
      rw [herror, or_iff_left hcloses, hsent]
      show sentSince w w' = [] ↔ _
      unfold sentSince
      rw [hsame]
    | ok d =>
      obtain ⟨run, hs⟩ := hup
      have hiff := runAnalysis_ok_iff hr hs
      have hcloses : Closes env desk k w ↔
          run.currentState ≠ .preopenRevalidation ∧ EndsQuietly env desk k w₂ := by
        constructor
        · intro hc
          have hquiet := hc.quiet
          rw [hr] at hquiet
          exact ⟨hc.starts run hs.found, hquiet⟩
        · intro hc
          refine ⟨fun run' hrun' => ?_, ⟨d, by rw [hr]⟩, by rw [hr]; exact hc.2⟩
          rw [hs.found] at hrun'
          rw [← Option.some.inj hrun']
          exact hc.1
      cases hrun : runAnalysis env desk k w with
      | mk r' w' =>
        cases r' with
        | ok u =>
          exact iff_of_true (analysisDone_of_ok hrun)
            (Or.inr (hcloses.mpr (hiff.mp ⟨w', hrun⟩)))
        | error e =>
          have hnot : ¬ Closes env desk k w := by
            intro hc
            obtain ⟨w'', hok⟩ := hiff.mpr (hcloses.mp hc)
            rw [hrun] at hok
            cases hok
          have hsame : w'.sent = w₂.sent := by
            have hfree := runsFree_sent w₂.sent
            have hkeeps : Eff.Keeps (fun w => w.sent = w₂.sent)
                (finallyDo (closeAnalysis env desk k d)
                  (releaseQuietly env desk (analysisLease desk k))) :=
              keeps_finallyDo (keeps_closeAnalysis hfree)
                (keeps_releaseQuietly hfree.toLeasesFree)
            exact hkeeps.of_end rfl ((runAnalysis_of_ok hr).symm.trans hrun)
          rw [or_iff_left hnot, hsent]
          show sentSince w w' = [] ↔ _
          unfold sentSince
          rw [hsame]

end AnalysisOrders

/-! ## A second analysis before the open -/

section SecondAnalysis

attribute [local instance] asciiCasing

/-- The committee buys in a second analysis: the broker is handed the order, and the call raises
    because the run is before the open already. -/
theorem second_analysis_raises_after_orders :
    ¬ AnalysisSound (acceptingEnv fun _ => false) (deskDeciding (decisionOf .buy [planOf "AAPL" .buy]))
      newYork analysedWorld := by
  have hrun : (match runAnalysis (acceptingEnv fun _ => false)
      (deskDeciding (decisionOf .buy [planOf "AAPL" .buy])) newYork analysedWorld with
    | (.ok _, _) => false
    | (.error _, w') => !(sentSince analysedWorld w').isEmpty) = true := by
    decide +kernel
  unfold AnalysisSound
  intro hsound
  cases hend : runAnalysis (acceptingEnv fun _ => false)
      (deskDeciding (decisionOf .buy [planOf "AAPL" .buy])) newYork analysedWorld with
  | mk r w' =>
    rw [hend] at hrun hsound
    cases r with
    | ok u => cases hrun
    | error e =>
      have hsent : sentSince analysedWorld w' = [] := hsound
      simp [hsent] at hrun

end SecondAnalysis

end Investor.Workflow
