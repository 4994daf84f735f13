import Investor.Workflow.Undisturbed

/-!
# Into the tape after a failed preparation

The first tick of a live tape finds a run that is still before the open and whose analysis
fails. `_enter_intraday_after_failed_prep` walks it to `PREOPEN_REVALIDATION` and revalidates
it, and the revalidation may ask for an analysis again, which fails again. The tick has two
tries at this, the one in the catch-up and the one after it, and it catches nothing but a
`DailyWorkflowError`.

The calls are followed where nothing but the analysis hinders them (`Unhindered`), through
assertions on the run of the session (`RunIs`).
-/

namespace Investor.Workflow

open Lib Schema Market Risk Core Execution

/-! ## Where nothing hinders the calls -/

/-- No await is cancelled, no flush fails, nobody pauses or stops the trading, and the job rows
    are written. -/
structure Unhindered (env : Env) (desk : Desk) : Prop where
  uncut : ∀ n, env.cut n = false
  flushes : ∀ n, env.flushFails n = false
  active : ∀ n, (desk.feed.controls n).state = .active
  jobRows : ∀ n, desk.jobRows n = answers ()

/-- The session can be used, and its run is as the assertion says. -/
def RunIs (k : SessionKey) (Q : DailyWorkflowRun → Prop) (w : World) : Prop :=
  w.db.broken = false ∧ ∃ run, w.db.working.runs.find? k = some run ∧ Q run

theorem RunIs.mono {k : SessionKey} {Q R : DailyWorkflowRun → Prop} {w : World}
    (h : RunIs k Q w) (hQ : ∀ r, Q r → R r) : RunIs k R w := by
  obtain ⟨husable, run, hrun, hq⟩ := h
  exact ⟨husable, run, hrun, hQ run hq⟩

variable {toState : DailyWorkflowState} {trigger reason : String}

section Unhindered

variable {env : Env} {desk : Desk} {k : SessionKey} {Q R : DailyWorkflowRun → Prop}

theorem flushWith_runIs (hu : Unhindered env desk) :
    Eff.Goes (RunIs k Q) (flushWith env id) fun _ => RunIs k Q := by
  intro w hw
  rw [flushWith_goes ⟨hw.1, by rw [hu.uncut, Bool.and_false], hu.flushes _⟩]
  exact hw

theorem getCurrent_runIs (hu : Unhindered env desk) :
    Eff.Goes (RunIs k Q) (getCurrent env k)
      fun found w => ∃ run, found = some run ∧ Q run ∧ RunIs k (· = run) w := by
  intro w hw
  obtain ⟨husable, run, hrun, hq⟩ := hw
  unfold getCurrent
  rw [query_goes husable (by rw [hu.uncut, Bool.and_false])]
  exact ⟨run, hrun, hq, husable, run, hrun, rfl⟩

theorem requireRun_runIs (hu : Unhindered env desk) :
    Eff.Goes (RunIs k Q) (requireRun env k) fun run w => Q run ∧ RunIs k (· = run) w := by
  refine Eff.Spec.bind (getCurrent_runIs hu) fun found => ?_
  intro w hw
  obtain ⟨run, rfl, hq, hw⟩ := hw
  exact ⟨hq, hw⟩

theorem loadedRun_runIs :
    Eff.Goes (RunIs k Q) (loadedRun k) fun run w => Q run ∧ RunIs k (· = run) w := by
  intro w hw
  obtain ⟨husable, run, hrun, hq⟩ := hw
  rw [loadedRun_goes husable hrun]
  exact ⟨hq, husable, run, hrun, rfl⟩

theorem assignRun_runIs {f : DailyWorkflowRun → DailyWorkflowRun}
    {hf : ∀ r, (f r).session = r.session} (hQ : ∀ r, Q r → R (f r)) :
    Eff.Goes (RunIs k Q) (assignRun k f hf) fun _ => RunIs k R := by
  intro w hw
  obtain ⟨husable, run, hrun, hq⟩ := hw
  rw [assignRun_goes husable hrun]
  exact ⟨husable, f run, found_setRun hf hrun, hQ run hq⟩

theorem setState_runIs (hu : Unhindered env desk) (hQ : ∀ r, Q r →
      Allowed r.currentState toState ∧ R (r.enter toState trigger reason)) :
    Eff.Goes (RunIs k Q) (setState env k toState trigger reason) fun _ => RunIs k R := by
  intro w hw
  obtain ⟨husable, run, hrun, hq⟩ := hw
  have hgo : FlushGoes env w := ⟨husable, by rw [hu.uncut, Bool.and_false], hu.flushes _⟩
  have hgo' : FlushGoes env w.tick := ⟨husable, by rw [hu.uncut, Bool.and_false], hu.flushes _⟩
  rw [setState_goes hrun (hQ run hq).1 hgo hgo']
  exact ⟨husable, run.enter toState trigger reason,
    @found_setRun k (·.enter toState trigger reason) (fun _ => rfl) _ _ hrun, (hQ run hq).2⟩

theorem jobRows_runIs (hu : Unhindered env desk) :
    Eff.Goes (RunIs k Q) (callService env desk.jobRows) fun _ => RunIs k Q := by
  intro w hw
  rw [callService_eq, if_neg (by simp [hu.uncut]), hu.jobRows]
  exact hw

theorem assertNotBlocked_runIs (hu : Unhindered env desk) {P : World → Prop}
    {run : DailyWorkflowRun} (hstate : run.currentState.isPremarket) :
    Eff.Goes P (assertNotBlocked desk run) fun _ => P := by
  intro w hw
  have hstop : run.currentState ≠ .emergencyStop := fun h => by rw [h] at hstate; cases hstate
  have hpause : run.currentState ≠ .paused := fun h => by rw [h] at hstate; cases hstate
  have hread : (Eff.read : Prog World) w = (.ok w, w) := rfl
  unfold assertNotBlocked
  rw [Eff.bind_of_ok hread]
  simp only [hu.active, hstop, hpause, reduceCtorEq, or_self, if_false]
  exact hw

end Unhindered

/-! ## What a failed analysis leaves -/

/-- A `DailyWorkflowError`. -/
def isWorkflowError : Fault → Bool
  | .workflow _ => true
  | _ => false

/-- What the revalidation goes by is that of the metadata, and the count is as given. -/
structure Prepared (n : Int) (m : Dict Json) (r : DailyWorkflowRun) : Prop where
  count : r.revalidationCount = n
  completed : Dict.at r.metadata "analysis_completed_at" = Dict.at m "analysis_completed_at"
  events : Dict.at r.metadata "market_events" = Dict.at m "market_events"

theorem Prepared.of_same {n n' : Int} {m : Dict Json} {r r' : DailyWorkflowRun}
    (h : Prepared n m r) (hcount : r.revalidationCount = n → r'.revalidationCount = n')
    (hmeta : ∀ key, key ∈ ["analysis_completed_at", "market_events"] →
      Dict.at r'.metadata key = Dict.at r.metadata key) : Prepared n' m r' where
  count := hcount h.count
  completed := (hmeta _ List.mem_cons_self).trans h.completed
  events := (hmeta _ (List.mem_cons_of_mem _ List.mem_cons_self)).trans h.events

structure Unanalysed (n : Int) (m : Dict Json) (r : DailyWorkflowRun) : Prop
    extends Prepared n m r where
  state : r.currentState = .premarketPreparation ∨ r.currentState = .premarketAnalysis

/-- An operation that raises no `DailyWorkflowError`. -/
abbrev Plain {α : Type} (P : World → Prop) (p : Prog α) (Q : α → World → Prop) : Prop :=
  Eff.Spec P p Q fun e _ => isWorkflowError e = false

section Failed

variable {env : Env} {desk : Desk} {k : SessionKey} {n : Int} {m : Dict Json}

theorem plain_suspend : Plain (fun _ => True) (suspend env) fun _ _ => True := by
  intro w _
  unfold suspend
  by_cases hcut : w.timed && env.cut w.ticks
  · rw [if_pos hcut]; rfl
  · rw [if_neg hcut]; trivial

theorem plain_query {α : Type} {f : Tables → α} :
    Plain (fun _ => True) (query env f) fun _ _ => True :=
  Eff.Spec.bind plain_suspend fun _ => Eff.Spec.bind (M := fun _ _ => True)
    (Eff.Spec.read fun _ h => h) fun _ => Eff.Spec.ite (fun _ => Eff.Spec.throw fun _ _ => rfl)
      fun _ => Eff.Spec.pure fun _ h => h

theorem plain_flushWith {f : Tables → Tables} :
    Plain (fun _ => True) (flushWith env f) fun _ _ => True := by
  refine Eff.Spec.bind (M := fun _ _ => True) (Eff.Spec.read fun _ h => h) fun _ =>
    Eff.Spec.ite (fun _ => Eff.Spec.throw fun _ _ => rfl) fun _ => ?_
  have hawait : Plain (fun _ => True) (Eff.attempt (suspend env))
      (fun ended _ => ∀ e, ended = .error e → isWorkflowError e = false) :=
    Eff.Spec.attempt (plain_suspend.weaken (fun _ h => h) (fun _ _ _ _ he => nomatch he)
      fun e _ h e' he => by cases he; exact h)
  refine Eff.Spec.bind hawait fun ended => Eff.Spec.bind (M := fun _ _ =>
    ∀ e, ended = .error e → isWorkflowError e = false) (Eff.Spec.read fun _ h => h) fun w₁ => ?_
  cases ended with
  | error e =>
    exact Eff.Spec.bind (M := fun _ _ => isWorkflowError e = false)
      (Eff.Spec.edit fun _ h => h e rfl) fun _ => Eff.Spec.throw fun _ h => h
  | ok _ =>
    refine Eff.Spec.ite (fun _ => ?_) fun _ => Eff.Spec.edit fun _ _ => trivial
    exact Eff.Spec.bind (M := fun _ _ => True) (Eff.Spec.edit fun _ _ => trivial) fun _ =>
      Eff.Spec.throw fun _ _ => rfl

theorem plain_loadedRun : Plain (fun _ => True) (loadedRun k) fun _ _ => True := by
  refine Eff.Spec.bind (M := fun _ _ => True) (Eff.Spec.read fun _ h => h) fun w =>
    Eff.Spec.ite (fun _ => Eff.Spec.throw fun _ _ => rfl) fun _ => ?_
  cases w.db.working.runs.find? k with
  | none => exact Eff.Spec.throw fun _ _ => rfl
  | some run => exact Eff.Spec.pure fun _ h => h

theorem plain_setState :
    Plain (fun _ => True) (setState env k toState trigger reason) fun _ _ => True :=
  Eff.Spec.bind plain_loadedRun fun _ => Eff.Spec.ite
    (fun _ => Eff.Spec.bind plain_flushWith fun _ => Eff.Spec.bind (M := fun _ _ => True)
      (Eff.Spec.edit fun _ h => h) fun _ => plain_flushWith)
    fun _ => Eff.Spec.throw fun _ _ => rfl

variable {key : String}

theorem plain_acquireLease : Plain (fun _ => True) (acquireLease env desk key) fun _ _ => True := by
  refine Eff.Spec.bind (M := fun _ _ => True) (Eff.Spec.read fun _ h => h) fun start =>
    Eff.Spec.bind plain_query fun seen => Eff.Spec.bind (M := fun _ _ => True)
    (Eff.Spec.read fun _ h => h) fun w => ?_
  dsimp only
  split
  · exact Eff.Spec.throw fun _ _ => rfl
  · exact plain_flushWith
  · exact plain_flushWith

theorem plain_releaseQuietly :
    Plain (fun _ => True) (releaseQuietly env desk key) fun _ _ => True := by
  refine Eff.Spec.tryCatch (X := fun e _ => isWorkflowError e = false) ?_ fun e =>
    Eff.Spec.ite (fun _ => Eff.Spec.pure fun _ _ => trivial) fun _ => Eff.Spec.throw fun _ h => h
  refine Eff.Spec.bind plain_query fun seen => ?_
  cases seen with
  | none => exact Eff.Spec.pure fun _ h => h
  | some row => exact Eff.Spec.ite (fun _ => Eff.Spec.throw fun _ _ => rfl) fun _ => plain_flushWith

/-- The run, if the session can be used, is as the assertion says. -/
def IfUsable (k : SessionKey) (Q : DailyWorkflowRun → Prop) (w : World) : Prop :=
  w.db.broken = false → RunIs k Q w

theorem submitFree_ifUsable (k : SessionKey) (Q : DailyWorkflowRun → Prop) :
    SubmitFree (IfUsable k Q) where
  tick := fun _ h => h
  abort := fun _ _ hb => absurd hb (by simp)
  set := fun _ h => h
  insert := fun _ h => h
  accept := fun _ h => h
  send := fun _ h => h

theorem leasesFree_ifUsable (k : SessionKey) (Q : DailyWorkflowRun → Prop) :
    LeasesFree (IfUsable k Q) where
  toCalm := (submitFree_ifUsable k Q).toCalm
  leases := fun _ h => h

theorem keeps_assignRun_ifUsable {Q : DailyWorkflowRun → Prop}
    {f : DailyWorkflowRun → DailyWorkflowRun} {hf : ∀ r, (f r).session = r.session}
    (hQ : ∀ r, Q r → Q (f r)) : Eff.Keeps (IfUsable k Q) (assignRun k f hf) := by
  refine Eff.Spec.bind loadedRun_spec fun _ => Eff.Spec.edit fun w hw husable => ?_
  obtain ⟨_, run, hrun, hq⟩ := hw.1 husable
  exact ⟨husable, f run, found_setRun hf hrun, hQ run hq⟩

theorem keeps_setState_ifUsable {Q : DailyWorkflowRun → Prop}
    (hrecord : ∀ r t, Q r → Q (r.record t)) (hassign : ∀ r, Q r → Q (r.assign toState reason)) :
    Eff.Keeps (IfUsable k Q) (setState env k toState trigger reason) := by
  have hcalm := (submitFree_ifUsable k Q).toCalm
  have hset : ∀ (f : DailyWorkflowRun → DailyWorkflowRun) (hf : ∀ r, (f r).session = r.session),
      (∀ r, Q r → Q (f r)) → ∀ w, IfUsable k Q w →
        IfUsable k Q { w with db := w.db.write (setRun k f hf) } := by
    intro f hf hQ w hw husable
    obtain ⟨_, run, hrun, hq⟩ := hw husable
    exact ⟨husable, f run, found_setRun hf hrun, hQ run hq⟩
  refine Eff.Keeps.bind keeps_loadedRun fun run => Eff.Keeps.ite ?_ Eff.keeps_throw
  refine Eff.Keeps.bind (keeps_flushWith hcalm fun w _ hw => ?_) fun _ =>
    Eff.Keeps.bind (Eff.keeps_edit fun w hw => ?_) fun _ => keeps_sync hcalm
  · exact hset _ _ (fun r hq => hrecord r _ hq) w hw
  · exact hset _ _ hassign w hw

theorem keeps_startAnalysis_unanalysed :
    Eff.Keeps (IfUsable k (Unanalysed n m)) (startAnalysis env k) := by
  refine Eff.Keeps.bind keeps_loadedRun fun run => ?_
  cases run.currentState with
  | premarketPreparation =>
    exact keeps_setState_ifUsable
      (fun r t hq => ⟨hq.toPrepared.of_same id fun _ _ => rfl, hq.state⟩)
      fun r hq => ⟨hq.toPrepared.of_same id fun _ _ => rfl, Or.inr rfl⟩
  | premarketAnalysis => exact Eff.keeps_pure
  | preopenRevalidation => exact Eff.keeps_pure
  | _ => exact Eff.keeps_throw

theorem at_collectionMeta {c : Collected} {u : SessionUniverse} {d : Dict Json}
    (hkey : key ∈ ["analysis_completed_at", "market_events"]) :
    Dict.at (collectionMeta desk c u d) key = Dict.at d key := by
  have hother : ∀ own ∈ ["data_fail_closed", "data_fail_closed_reasons", "collection_run_id",
      "collection_symbols", "venue"], own ≠ key := by
    rintro own hown rfl
    revert own
    decide
  simp only [List.mem_cons, List.not_mem_nil, or_false, forall_eq_or_imp, forall_eq] at hother
  obtain ⟨h₁, h₂, h₃, h₄, h₅⟩ := hother
  simp only [collectionMeta, Dict.merge, List.foldl_cons, List.foldl_nil, Dict.at]
  rw [Dict.get?_set_of_ne _ _ h₅, Dict.get?_set_of_ne _ _ h₄, Dict.get?_set_of_ne _ _ h₃,
    Dict.get?_set_of_ne _ _ h₂, Dict.get?_set_of_ne _ _ h₁]

theorem keeps_decideAndTrade_unanalysed [Casing] {runId : String} :
    Eff.Keeps (IfUsable k (Unanalysed n m)) (decideAndTrade env desk k runId) := by
  have hfree := submitFree_ifUsable k (Unanalysed n m)
  have hmeta : ∀ c u, Eff.Keeps (IfUsable k (Unanalysed n m))
      (editMeta k (collectionMeta desk c u)) := fun c u =>
    keeps_assignRun_ifUsable fun r hq =>
      ⟨hq.toPrepared.of_same id fun key hkey => at_collectionMeta hkey, hq.state⟩
  refine Eff.Keeps.bind keeps_startAnalysis_unanalysed fun _ =>
    Eff.Keeps.ite Eff.keeps_throw ?_
  refine Eff.Keeps.bind (Keeps.exceptException (keeps_callService hfree.toCalm)
    fun e => Eff.keeps_throw) fun portfolio => ?_
  refine Eff.Keeps.bind (keeps_callService hfree.toCalm) fun u =>
    Eff.Keeps.bind (keeps_callService hfree.toCalm) fun c => Eff.Keeps.bind (hmeta c u) fun _ => ?_
  refine Eff.Keeps.bind (keeps_callService hfree.toCalm) fun a =>
    Eff.Keeps.bind (keeps_callService hfree.toCalm) fun _ => Eff.Keeps.bind ?_ fun r =>
      Eff.keeps_pure
  exact keeps_materialize hfree.toCalm (fun w f h => h) fun _ _ _ =>
    keeps_submitValidated_free hfree

theorem releaseQuietly_leaves {Q : DailyWorkflowRun → Prop} :
    Eff.Spec (IfUsable k Q) (releaseQuietly env desk key) (fun _ => RunIs k Q)
      (fun e _ => isWorkflowError e = false) := by
  have hfree := leasesFree_ifUsable k Q
  have hread : Eff.Spec (IfUsable k Q) (query env fun t => Dict.get? t.leases key)
      (fun _ => RunIs k Q) (fun e _ => isLeaseError e = false) := by
    intro w hw
    by_cases hgo : w.db.broken = false ∧ (w.timed && env.cut w.ticks) = false
    · rw [query_goes hgo.1 hgo.2]
      exact hw hgo.1
    · obtain ⟨e, w', hstop, he⟩ := query_stops (f := fun t => Dict.get? t.leases key) hgo
      rw [hstop]
      exact he
  have hdelete : Eff.Spec (RunIs k Q)
      (flushWith env fun t => { t with leases := Dict.erase t.leases key })
      (fun _ => RunIs k Q) (fun e _ => isLeaseError e = false) := by
    intro w hw
    by_cases hgo : FlushGoes env w
    · rw [flushWith_goes hgo]
      exact hw
    · obtain ⟨e, w', hstop, he, _⟩ := flushWith_stops
        (f := fun t => { t with leases := Dict.erase t.leases key }) hgo
      rw [hstop]
      exact he
  have hno : ∀ {e : Fault} {w : World}, isLeaseError e = false → isLeaseError e → RunIs k Q w :=
    fun h h' => by rw [h] at h'; cases h'
  have hrelease : Eff.Spec (IfUsable k Q) (releaseLease env desk key) (fun _ => RunIs k Q)
      (fun e w => isLeaseError e → RunIs k Q w) := by
    refine Eff.Spec.bind (hread.weaken (fun _ h => h) (fun _ _ h => h) fun _ _ h => hno h)
      fun seen => ?_
    cases seen with
    | none => exact Eff.Spec.pure fun _ h => h
    | some row =>
      refine Eff.Spec.ite (fun _ => Eff.Spec.throw fun _ h _ => h) fun _ => ?_
      exact hdelete.weaken (fun _ h => h) (fun _ _ h => h) fun _ _ h => hno h
  refine ((Eff.Spec.tryCatch hrelease fun e => Eff.Spec.ite (E := fun _ _ => True)
    (fun he => Eff.Spec.pure fun _ h => h he) fun _ => Eff.Spec.throw fun _ _ => trivial).and
      plain_releaseQuietly).weaken (fun _ h => ⟨h, trivial⟩) (fun _ _ h => h.1) fun _ _ h => h.2

theorem runAnalysis_leaves [Casing] :
    Eff.Spec (IfUsable k (Unanalysed n m)) (runAnalysis env desk k) (fun _ _ => True)
      (fun e w => isWorkflowError e → RunIs k (Unanalysed n m) w) := by
  let J : World → Prop := IfUsable k (Unanalysed n m)
  have hfree := leasesFree_ifUsable k (Unanalysed n m)
  have hplain : ∀ {α : Type} {p : Prog α} {Q : α → World → Prop},
      Eff.Spec J p Q (fun e _ => isWorkflowError e = false) →
      Eff.Spec J p Q (fun e w => isWorkflowError e → RunIs k (Unanalysed n m) w) := fun h =>
    h.weaken (fun _ h => h) (fun _ _ h => h) fun e _ he hw => by rw [he] at hw; cases hw
  have hread : Eff.Spec J (getCurrent env k)
      (fun found w => J w ∧ ∃ run, found = some run ∧ w.db.broken = false)
      (fun e _ => isWorkflowError e = false) := by
    refine ((query_spec hfree.toCalm).and (@plain_query env _ _)).weaken
      (fun _ h => ⟨h, trivial⟩) (fun found w h => ⟨h.1.1, ?_⟩) fun _ _ h => h.2
    obtain ⟨_, run, hrun, _⟩ := h.1.1 h.1.2.1
    exact ⟨run, h.1.2.2.trans hrun, h.1.2.1⟩
  have hrequire : Eff.Spec J (requireRun env k) (fun _ w => J w ∧ w.db.broken = false)
      (fun e w => isWorkflowError e → RunIs k (Unanalysed n m) w) := by
    refine Eff.Spec.bind (hplain hread) fun found => ?_
    intro w hw
    obtain ⟨hw, run, rfl, husable⟩ := hw
    exact ⟨hw, husable⟩
  have hblocked : ∀ run, Eff.Spec (fun w => J w ∧ w.db.broken = false)
      (assertNotBlocked desk run) (fun _ => J)
      (fun e w => isWorkflowError e → RunIs k (Unanalysed n m) w) := fun run =>
    keeps_assertNotBlocked.weaken (fun _ h => h) (fun _ _ h => h.1) fun _ _ h _ => h.1 h.2
  refine Eff.Spec.bind hrequire fun run => Eff.Spec.bind (hblocked run) fun _ =>
    Eff.Spec.bind (M := fun _ => J) ?_ fun _ => ?_
  · exact hplain (((keeps_acquireLease hfree).and plain_acquireLease).weaken
      (fun _ h => ⟨h, trivial⟩) (fun _ _ h => h.1) fun _ _ h => h.2)
  -- what ends the body in a `DailyWorkflowError` is found before the orders are closed
  have hbody : Eff.Spec J (do
      let d ← decideAndTrade env desk k run.id
      closeAnalysis env desk k d) (fun _ _ => True) (fun e w => isWorkflowError e → J w) := by
    refine Eff.Spec.bind (M := fun _ _ => True) (keeps_decideAndTrade_unanalysed.weaken
      (fun _ h => h) (fun _ _ _ => trivial) fun _ _ h _ => h) fun d => ?_
    refine (Eff.Spec.bind (Eff.Spec.bind plain_loadedRun fun _ => Eff.Spec.edit fun _ h => h)
      fun _ => plain_setState : Plain _ _ _).weaken (fun _ h => h) (fun _ _ h => h) ?_
    intro e w he hw
    rw [he] at hw
    cases hw
  refine Eff.Spec.bind (M := fun ended w => ∀ e, ended = .error e → isWorkflowError e → J w)
    (Eff.Spec.attempt (hbody.weaken (fun _ h => h) (fun _ _ _ _ he => nomatch he)
      fun e _ h e' he => by cases he; exact h)) fun ended => ?_
  have hafter : Plain (fun _ => True) (releaseQuietly env desk (analysisLease desk k))
      fun _ _ => True := plain_releaseQuietly
  cases ended with
  | ok u =>
    refine Eff.Spec.bind (M := fun _ _ => True) ?_ fun _ => Eff.Spec.pure fun _ h => h
    exact hafter.weaken (fun _ _ => trivial) (fun _ _ h => h) fun e _ he hw => by
      rw [he] at hw; cases hw
  | error e =>
    by_cases he : isWorkflowError e
    · refine Eff.Spec.bind (M := fun _ => RunIs k (Unanalysed n m)) ?_ fun _ =>
        Eff.Spec.throw fun _ h _ => h
      exact (hplain releaseQuietly_leaves).pre fun w hw => hw e rfl he
    · refine Eff.Spec.bind (M := fun _ _ => True) ?_ fun _ =>
        Eff.Spec.throw fun _ _ hw => absurd hw he
      exact hafter.weaken (fun _ _ => trivial) (fun _ _ h => h) fun e _ he hw => by
        rw [he] at hw; cases hw

end Failed

/-! ## The revalidation of a failed preparation -/

def Asks (cfg : WorkflowSettings) (m : Dict Json) (now : Int) : Bool :=
  analysisExpired cfg m now || newsSinceAnalysis m

/-- A revalidation with this attempt sends the run back to the analysis. -/
def Demands (cfg : WorkflowSettings) (m : Dict Json) (now attempt : Int) : Prop :=
  Asks cfg m now ∧ attempt ≤ cfg.maxRevalidationRetries

theorem Demands.earlier {cfg : WorkflowSettings} {m : Dict Json} {now attempt : Int}
    (h : Demands cfg m now (attempt + 1)) : Demands cfg m now attempt :=
  ⟨h.1, by have := h.2; omega⟩

section Revalidated

variable {cfg : WorkflowSettings} {n now : Int} {m : Dict Json} {run : DailyWorkflowRun}

theorem asks_of_prepared (h : Prepared n m run) : Asks cfg run.metadata now = Asks cfg m now := by
  have hcompleted : completedAnalysis run.metadata = completedAnalysis m := by
    unfold completedAnalysis
    rw [h.completed]
  have hevents : marketEvents run.metadata = marketEvents m := by
    unfold marketEvents
    rw [h.events]
  unfold Asks analysisExpired newsSinceAnalysis
  rw [hcompleted, hevents]

/-- What the report of a trading day says, without a fixture. -/
structure Reported (cfg : WorkflowSettings) (m : Dict Json) (now attempt : Int)
    (report : RevalidationReport) : Prop where
  numbered : report.attempt = attempt
  retries : report.result = .reanalysisRequired ∧ ¬ cfg.maxRevalidationRetries < report.attempt ↔
    Demands cfg m now attempt
  settled : report.result ≠ .failed

theorem metadataReport_cases (cfg : WorkflowSettings) (now : Int) (d : Dict Json)
    (attempt : Int) :
    ((metadataReport cfg d now attempt false).1 = .reanalysisRequired ∧
      ¬ cfg.maxRevalidationRetries < attempt ↔
        Asks cfg d now ∧ attempt ≤ cfg.maxRevalidationRetries) ∧
      (metadataReport cfg d now attempt false).1 ≠ .failed := by
  unfold metadataReport Asks
  cases hexpired : analysisExpired cfg d now with
  | true =>
    by_cases hlast : attempt ≤ cfg.maxRevalidationRetries + 1
    · simp [hlast, not_lt]
    · have hmore : ¬ attempt ≤ cfg.maxRevalidationRetries := fun h => hlast (by omega)
      simp [hlast, hmore]
  | false =>
    cases hnews : newsSinceAnalysis d with
    | false =>
      cases hclosed : (Dict.at d "data_fail_closed").truthy <;> simp
    | true =>
      by_cases hmore : attempt ≤ cfg.maxRevalidationRetries
      · simp [hmore, not_lt]
      · cases hclosed : (Dict.at d "data_fail_closed").truthy <;> simp [hmore]

theorem reported {status : MarketStatus} (h : Prepared n m run)
    (htrading : status.isTradingDay = true) :
    Reported cfg m now (n + 1) (revalidationReport cfg status run now noFixture) := by
  have hcases := metadataReport_cases cfg now run.metadata (n + 1)
  have hverdict : revalidationReport cfg status run now noFixture =
      { result := (metadataReport cfg run.metadata now (n + 1) false).1
        reason := (metadataReport cfg run.metadata now (n + 1) false).2
        attempt := n + 1 } := by
    unfold revalidationReport
    rw [h.count]
    simp [noFixture, htrading]
  rw [hverdict]
  refine ⟨rfl, hcases.1.trans ?_, hcases.2⟩
  rw [asks_of_prepared h]
  exact Iff.rfl

end Revalidated

section Recovery

variable {env : Env} {desk : Desk} {k : SessionKey} {n now : Int} {m : Dict Json}

/-- The run stands in the state, and the revalidation goes by the same. -/
structure At (state : DailyWorkflowState) (n : Int) (m : Dict Json) (r : DailyWorkflowRun) : Prop
    extends Prepared n m r where
  state : r.currentState = state

def OnTape (r : DailyWorkflowRun) : Prop := r.currentState.isOnTape = true

theorem reportOf_goes (hu : Unhindered env desk) (hlive : marketNeedsIntraday desk now) :
    Eff.Goes (RunIs k (At .preopenRevalidation n m)) (reportOf env desk k now noFixture)
      fun report w => Reported desk.cfg m now (n + 1) report ∧
        RunIs k (At .preopenRevalidation (n + 1) m) w := by
  have htrading : (desk.calendar.status now).isTradingDay = true := by
    unfold marketNeedsIntraday at hlive
    simp only [Bool.and_eq_true] at hlive
    exact hlive.1
  refine Eff.Spec.bind (requireRun_runIs hu) fun run => ?_
  intro w hw
  obtain ⟨hat, hw⟩ := hw
  have hsession : run.session = k := by
    obtain ⟨_, run', hrun', rfl⟩ := hw
    exact (KeyedTable.find?_eq_some_iff.mp hrun').2
  refine (Eff.Spec.bind (assertNotBlocked_runIs hu (by rw [hat.state]; rfl)) fun _ =>
    Eff.Spec.ite (fun hstate => absurd hat.state hstate) fun _ => ?_ :
      Eff.Goes (RunIs k (· = run)) _ _) w hw
  unfold revalidationRun
  rw [hsession]
  refine Eff.Spec.bind (assignRun_runIs (R := At .preopenRevalidation (n + 1) m) ?_) fun _ =>
    Eff.Spec.bind (flushWith_runIs hu) fun _ => Eff.Spec.pure fun _ hw =>
      ⟨reported hat.toPrepared htrading, hw⟩
  rintro r rfl
  exact ⟨hat.toPrepared.of_same (fun h => by show r.revalidationCount + 1 = _; rw [h])
    fun _ _ => rfl, hat.state⟩

theorem enterTape_goes (hu : Unhindered env desk) {openReason enterReason : String} :
    Eff.Goes (RunIs k (·.currentState = .preopenRevalidation))
      (enterTape env k trigger openReason enterReason) fun _ => RunIs k OnTape := by
  refine Eff.Spec.bind (setState_runIs hu (R := (·.currentState = .marketOpen)) ?_) fun _ =>
    setState_runIs hu ?_
  · intro r hr
    rw [hr]
    exact ⟨by decide, rfl⟩
  · intro r hr
    rw [hr]
    exact ⟨by decide, rfl⟩

def toReanalysis (env : Env) (desk : Desk) (k : SessionKey) (now : Int) : Prog Unit := do
  let _ ← reportOf env desk k now noFixture
  setState env k .premarketAnalysis "revalidate" "reanalysis_required"

theorem setNoTrade_goes :
    Eff.Goes (RunIs k (At .preopenRevalidation n m)) (setNoTrade k reason)
      fun _ => RunIs k (·.currentState = .preopenRevalidation) :=
  assignRun_runIs fun _ hr => hr.state

theorem revalidate_enters [Casing] (hu : Unhindered env desk) (hlive : marketNeedsIntraday desk now)
    (hd : ¬ Demands desk.cfg m now (n + 1)) :
    Eff.Goes (RunIs k (At .preopenRevalidation n m)) (revalidate env desk k now noFixture)
      fun _ => RunIs k OnTape := by
  have hunresolved : ∀ report, Eff.Goes (RunIs k (At .preopenRevalidation (n + 1) m))
      (enterUnresolved env k report) fun _ => RunIs k OnTape := fun report =>
    Eff.Spec.bind setNoTrade_goes fun _ => enterTape_goes hu
  refine Eff.Spec.bind (reportOf_goes hu hlive) fun report => ?_
  intro w hw
  obtain ⟨hreport, hw⟩ := hw
  refine (Eff.Spec.ite (fun hre => Eff.Spec.ite (fun _ => hunresolved report) fun hmore =>
    absurd (hreport.retries.mp ⟨hre, hmore⟩) hd) fun hre => ?_ :
      Eff.Goes (RunIs k (At .preopenRevalidation (n + 1) m)) _ _) w hw
  have henter : ∀ trigger openReason enterReason, Eff.Goes
      (RunIs k (At .preopenRevalidation (n + 1) m)) (enterTape env k trigger openReason enterReason)
      fun _ => RunIs k OnTape := fun _ _ _ =>
    (enterTape_goes hu).pre fun w hw => hw.mono fun _ hr => hr.state
  unfold settleReport
  cases hresult : report.result with
  | valid => exact henter _ _ _
  | validWithRestrictions => exact henter _ _ _
  | noTrade => exact Eff.Spec.bind setNoTrade_goes fun _ => enterTape_goes hu
  | reanalysisRequired => exact absurd hresult hre
  | failed => exact absurd hresult hreport.settled

theorem toReanalysis_goes (hu : Unhindered env desk) (hlive : marketNeedsIntraday desk now) :
    Eff.Goes (RunIs k (At .preopenRevalidation n m)) (toReanalysis env desk k now)
      fun _ => RunIs k (Unanalysed (n + 1) m) := by
  refine Eff.Spec.bind ((reportOf_goes hu hlive).weaken (fun _ h => h) (fun _ _ h => h.2)
    fun _ _ h => h) fun _ => setState_runIs hu fun r hr => ⟨?_, ?_⟩
  · rw [hr.state]
    decide
  · exact ⟨hr.toPrepared.of_same id fun _ _ => rfl, Or.inr rfl⟩

def AnalysisFails [Casing] (env : Env) (desk : Desk) (k : SessionKey) : Prop :=
  ∀ w, ∃ e w', runAnalysis env desk k w = (.error e, w')

/-- An attempt that fails, and what it leaves where it raises a `DailyWorkflowError`. -/
abbrev Fails (k : SessionKey) (n : Int) (m : Dict Json) (P : World → Prop) (p : Prog Unit) :
    Prop :=
  Eff.Spec P p (fun _ _ => False) fun e w => isWorkflowError e → RunIs k (Unanalysed n m) w

theorem runAnalysis_fails [Casing] (hfails : AnalysisFails env desk k) :
    Fails k n m (RunIs k (Unanalysed n m)) (runAnalysis env desk k) := by
  intro w hw
  have hleft := @runAnalysis_leaves env desk k n m _ w fun _ => hw
  obtain ⟨e, w', hrun⟩ := hfails w
  rw [hrun] at hleft ⊢
  exact hleft

def reanalysis [Casing] (env : Env) (desk : Desk) (k : SessionKey) (now : Int) : Prog Unit := do
  toReanalysis env desk k now
  runAnalysis env desk k

theorem reanalysis_fails [Casing] (hu : Unhindered env desk) (hlive : marketNeedsIntraday desk now)
    (hfails : AnalysisFails env desk k) :
    Fails k (n + 1) m (RunIs k (At .preopenRevalidation n m)) (reanalysis env desk k now) :=
  Eff.Spec.bind ((toReanalysis_goes hu hlive).weaken (fun _ h => h) (fun _ _ h => h)
    fun _ _ h => h.elim) fun _ => runAnalysis_fails hfails

theorem revalidate_retries [Casing] (hu : Unhindered env desk) (hlive : marketNeedsIntraday desk now)
    (hfails : AnalysisFails env desk k) (hd : Demands desk.cfg m now (n + 1)) {w : World}
    (hw : RunIs k (At .preopenRevalidation n m) w) :
    revalidate env desk k now noFixture w = reanalysis env desk k now w := by
  obtain ⟨report, w₁, hreported, hreport, hw₁⟩ := (reportOf_goes hu hlive).ends hw
  obtain ⟨hre, hmore⟩ := hreport.retries.mpr hd
  have hset : Eff.Goes (RunIs k (At .preopenRevalidation (n + 1) m))
      (setState env k .premarketAnalysis "revalidate" "reanalysis_required") fun _ _ => True :=
    (setState_runIs hu (R := fun _ => True) fun r hr => ⟨by rw [hr.state]; decide, trivial⟩).weaken
      (fun _ h => h) (fun _ _ _ => trivial) fun _ _ h => h
  obtain ⟨_, w₂, hsent, _⟩ := hset.ends hw₁
  obtain ⟨e, w₃, hfailed⟩ := hfails w₂
  have hagain : reanalysis env desk k now w = (.error e, w₃) := by
    unfold reanalysis toReanalysis
    rw [Eff.bind_bind, Eff.bind_of_ok hreported, Eff.bind_of_ok hsent]
    exact hfailed
  rw [hagain]
  unfold revalidate revalidateFrom
  rw [Eff.bind_of_ok hreported, if_pos hre, if_neg hmore, Eff.bind_of_ok hsent]
  exact Eff.bind_of_error hfailed

/-! ## The walk to the revalidation -/

variable {state : DailyWorkflowState}

theorem whenIn_runIs {p : Prog Unit} {Q R : DailyWorkflowRun → Prop}
    (hp : Eff.Goes (RunIs k fun r => Q r ∧ r.currentState = state) p fun _ => RunIs k R)
    (hskip : ∀ r, Q r → r.currentState ≠ state → R r) :
    Eff.Goes (RunIs k Q) (whenIn k state p) fun _ => RunIs k R := by
  refine Eff.Spec.bind loadedRun_runIs fun run => Eff.Spec.ite (fun hstate => ?_) fun hstate => ?_
  · exact hp.pre fun w hw => hw.2.mono fun r hr => by rw [hr]; exact ⟨hw.1, hstate⟩
  · exact Eff.Spec.pure fun w hw => hw.2.mono fun r hr => by rw [hr]; exact hskip run hw.1 hstate

/-- `_enter_intraday_after_failed_prep` up to its revalidation. -/
def intoPreopen (env : Env) (k : SessionKey) (reason : String) : Prog Unit := do
  editMeta k fun m => Dict.set
    (Dict.set m "no_trade_reason" (.str (takeChars 240 reason)))
    "catch_up_incomplete" (.str (takeChars 240 reason))
  flushWith env id
  whenIn k .premarketPreparation
    (setState env k .premarketAnalysis "catch_up" "failed_prep_enter")
  whenIn k .premarketAnalysis
    (setState env k .preopenRevalidation "catch_up" "analysis_failed_enter")

theorem intoPreopen_goes (hu : Unhindered env desk) (reason : String) :
    Eff.Goes (RunIs k (Unanalysed n m)) (intoPreopen env k reason)
      fun _ => RunIs k (At .preopenRevalidation n m) := by
  refine Eff.Spec.bind (assignRun_runIs (R := Unanalysed n m) fun r hr => ?_) fun _ =>
    Eff.Spec.bind (flushWith_runIs hu) fun _ =>
    Eff.Spec.bind (whenIn_runIs (R := At .premarketAnalysis n m) (setState_runIs hu ?_) ?_)
      fun _ => whenIn_runIs (setState_runIs hu ?_) ?_
  · refine ⟨hr.toPrepared.of_same id fun key hkey => ?_, hr.state⟩
    have hother : ∀ own ∈ ["no_trade_reason", "catch_up_incomplete"], own ≠ key := by
      rintro own hown rfl
      revert own
      decide
    show Dict.at (Dict.set (Dict.set _ _ _) _ _) key = _
    unfold Dict.at
    rw [Dict.get?_set_of_ne _ _ (hother _ (by decide)),
      Dict.get?_set_of_ne _ _ (hother _ (by decide))]
  · intro r hr
    rw [hr.2]
    exact ⟨by decide, hr.1.toPrepared.of_same id fun _ _ => rfl, rfl⟩
  · intro r hr hstate
    exact ⟨hr.toPrepared, hr.state.resolve_left hstate⟩
  · intro r hr
    rw [hr.2]
    exact ⟨by decide, hr.1.toPrepared.of_same id fun _ _ => rfl, rfl⟩
  · intro r hr hstate
    exact absurd hr.state hstate

def walkedAnalysis [Casing] (env : Env) (desk : Desk) (k : SessionKey) (now : Int) (reason : String) :
    Prog Unit := do
  intoPreopen env k reason
  reanalysis env desk k now

theorem walkedAnalysis_fails [Casing] (hu : Unhindered env desk) (hlive : marketNeedsIntraday desk now)
    (hfails : AnalysisFails env desk k) (reason : String) :
    Fails k (n + 1) m (RunIs k (Unanalysed n m)) (walkedAnalysis env desk k now reason) :=
  Eff.Spec.bind ((intoPreopen_goes hu reason).weaken (fun _ h => h) (fun _ _ h => h)
    fun _ _ h => h.elim) fun _ => reanalysis_fails hu hlive hfails

theorem enter_eq [Casing] (hu : Unhindered env desk) (now : Int) (reason : String) {w : World}
    (hw : RunIs k (Unanalysed n m) w) :
    ∃ w₁, intoPreopen env k reason w = (.ok (), w₁) ∧ RunIs k (At .preopenRevalidation n m) w₁ ∧
      enterIntradayAfterFailedPrep env desk k now reason w =
        (do
          revalidate env desk k now noFixture
          let _ ← requireRun env k
          return () : Prog Unit) w₁ := by
  obtain ⟨_, w₁, hwalked, hw₁⟩ := (intoPreopen_goes hu reason).ends hw
  refine ⟨w₁, hwalked, hw₁, ?_⟩
  obtain ⟨husable, run, hrun, hq⟩ := hw
  have hoff : ¬ run.currentState.isOnTape = true := by
    rcases hq.state with h | h <;> rw [h] <;> decide
  obtain ⟨husable₁, run₁, hrun₁, hq₁⟩ := hw₁
  have hwhen := @whenIn_goes k .preopenRevalidation (revalidate env desk k now noFixture) run₁ w₁
    husable₁ hrun₁
  rw [if_pos hq₁.state] at hwhen
  have hrest : (do
      intoPreopen env k reason
      whenIn k .preopenRevalidation (revalidate env desk k now noFixture)
      let _ ← requireRun env k
      return () : Prog Unit) w = (do
        revalidate env desk k now noFixture
        let _ ← requireRun env k
        return () : Prog Unit) w₁ := by
    rw [Eff.bind_of_ok hwalked]
    cases hrevalidated : revalidate env desk k now noFixture w₁ with
    | mk r w₂ =>
      rw [hrevalidated] at hwhen
      cases r with
      | ok u => rw [Eff.bind_of_ok hwhen, Eff.bind_of_ok hrevalidated]
      | error e => rw [Eff.bind_of_error hwhen, Eff.bind_of_error hrevalidated]
  unfold enterIntradayAfterFailedPrep
  rw [Eff.bind_of_ok (loadedRun_goes husable hrun), if_neg hoff, ← hrest]
  unfold intoPreopen
  simp only [Eff.bind_bind]

theorem enter_enters [Casing] (hu : Unhindered env desk) (hlive : marketNeedsIntraday desk now)
    (hd : ¬ Demands desk.cfg m now (n + 1)) (reason : String) :
    Eff.Goes (RunIs k (Unanalysed n m)) (enterIntradayAfterFailedPrep env desk k now reason)
      fun _ => RunIs k OnTape := by
  intro w hw
  obtain ⟨w₁, _, hw₁, hentered⟩ := enter_eq hu now reason hw
  rw [hentered]
  refine (Eff.Spec.bind (revalidate_enters hu hlive hd) fun _ =>
    Eff.Spec.bind (requireRun_runIs hu) fun run => Eff.Spec.pure fun w hw => ?_ :
      Eff.Goes _ _ _) w₁ hw₁
  exact hw.2.mono fun r hr => by rw [hr]; exact hw.1

theorem enter_retries [Casing] (hu : Unhindered env desk) (hlive : marketNeedsIntraday desk now)
    (hfails : AnalysisFails env desk k) (hd : Demands desk.cfg m now (n + 1)) (reason : String)
    {w : World} (hw : RunIs k (Unanalysed n m) w) :
    enterIntradayAfterFailedPrep env desk k now reason w =
      walkedAnalysis env desk k now reason w := by
  obtain ⟨w₁, hwalked, hw₁, hentered⟩ := enter_eq hu now reason hw
  have hagain := revalidate_retries hu hlive hfails hd hw₁
  have hfailed := reanalysis_fails hu hlive hfails w₁ hw₁
  unfold walkedAnalysis
  rw [hentered, Eff.bind_of_ok hwalked]
  cases hend : reanalysis env desk k now w₁ with
  | mk r w₂ =>
    rw [hend] at hagain hfailed
    cases r with
    | ok u => exact hfailed.elim
    | error e => exact Eff.bind_of_error hagain

/-! ## The tick -/

def Lands {α : Type} (k : SessionKey) (p : Prog α) (w : World) : Prop :=
  ∃ a w', p w = (.ok a, w') ∧ RunIs k OnTape w'

variable {α : Type}

theorem lands_of_goes {P : World → Prop} {p : Prog α} {w : World}
    (h : Eff.Goes P p fun _ => RunIs k OnTape) (hw : P w) : Lands k p w :=
  h.ends hw

theorem not_lands_of_error {α : Type} {p : Prog α} {w w' : World} {e : Fault}
    (h : p w = (.error e, w')) : ¬ Lands k p w := by
  rintro ⟨a, w'', hok, _⟩
  rw [h] at hok
  cases hok

theorem enter_raises [Casing] (hu : Unhindered env desk) (hlive : marketNeedsIntraday desk now)
    (hfails : AnalysisFails env desk k) (hd : Demands desk.cfg m now (n + 1)) (reason : String)
    {w : World} (hw : RunIs k (Unanalysed n m) w) :
    ∃ e w', enterIntradayAfterFailedPrep env desk k now reason w = (.error e, w') := by
  have hfailed := walkedAnalysis_fails hu hlive hfails reason w hw
  rw [enter_retries hu hlive hfails hd reason hw]
  cases hend : walkedAnalysis env desk k now reason w with
  | mk r w' =>
    rw [hend] at hfailed
    cases r with
    | ok u => exact hfailed.elim
    | error e => exact ⟨e, w', rfl⟩

def markCatchUp (env : Env) (k : SessionKey) (now : Int) : Prog Unit := do
  editMeta k fun m => Dict.set m "last_catch_up_at" (stamp now)
  flushWith env id

def beforeAttempt (env : Env) (k : SessionKey) (now : Int) : Prog Unit := do
  let _ ← requireRun env k
  let _ ← getCurrent env k
  markCatchUp env k now

def firstAttempt [Casing] (env : Env) (desk : Desk) (k : SessionKey) (now : Int) : Prog Unit := do
  beforeAttempt env k now
  whenIn k .preopenRevalidation (toReanalysis env desk k now)
  runAnalysis env desk k

def secondAttempt [Casing] (env : Env) (desk : Desk) (k : SessionKey) (now : Int) : Prog Unit := do
  beforeAttempt env k now
  let ended ← Eff.attempt (runAnalysis env desk k)
  match ended with
  | .error (.workflow message) => walkedAnalysis env desk k now message
  | _ => return ()

/-- The operation ends in a `DailyWorkflowError`. -/
def RaisesWorkflow (p : Prog Unit) (w : World) : Prop :=
  ∃ message w', p w = (.error (.workflow message), w')

/-- A run before the open at a live tape, all of whose analyses fail, in a tick that nothing
    else hinders. -/
structure FailedPrep [Casing] (env : Env) (desk : Desk) (sessionDate : Option Int) (now : Int)
    (k : SessionKey) (run : DailyWorkflowRun) (w : World) : Prop where
  unhindered : Unhindered env desk
  session : k = { sessionDate := sessionDate.getD (desk.calendar.marketDay (env.now w.ticks))
                  calendarName := desk.calendarName }
  usable : w.db.broken = false
  found : w.db.working.runs.find? k = some run
  premarket : run.currentState.isPremarket
  live : marketNeedsIntraday desk now
  fails : AnalysisFails env desk k

/-- The second revalidation of the tick demands no analysis, and each one the tick makes ends in
    a `DailyWorkflowError`: the one the catch-up begins with, or its revalidation demands, and
    the one demanded after that. -/
structure Recovers [Casing] (env : Env) (desk : Desk) (now : Int) (k : SessionKey)
    (run : DailyWorkflowRun) (w : World) : Prop where
  settles : ¬ Demands desk.cfg run.metadata now (run.revalidationCount + 1 + 1)
  first : (run.currentState = .preopenRevalidation →
    Demands desk.cfg run.metadata now (run.revalidationCount + 1)) →
      RaisesWorkflow (firstAttempt env desk k now) w
  second : run.currentState ≠ .preopenRevalidation →
    Demands desk.cfg run.metadata now (run.revalidationCount + 1) →
      RaisesWorkflow (secondAttempt env desk k now) w

theorem markCatchUp_goes (hu : Unhindered env desk) :
    Eff.Goes (RunIs k (At state n m)) (markCatchUp env k now) fun _ => RunIs k (At state n m) := by
  refine Eff.Spec.bind (assignRun_runIs fun r hr =>
    ⟨hr.toPrepared.of_same id fun key hkey => ?_, hr.state⟩) fun _ => flushWith_runIs hu
  show Dict.at (Dict.set r.metadata "last_catch_up_at" (stamp now)) key = _
  unfold Dict.at
  rw [Dict.get?_set_of_ne]
  rintro rfl
  revert hkey
  decide

variable {w' : World}

theorem exceptWorkflow_of_ok {p : Prog α} {handler : String → Prog α} {a : α} {w : World}
    (h : p w = (.ok a, w')) : exceptWorkflow p handler w = (.ok a, w') :=
  Eff.tryCatch_of_ok h

variable {message : String}

theorem exceptWorkflow_of_workflow {p : Prog α} {handler : String → Prog α} {w : World}
    (h : p w = (.error (.workflow message), w')) :
    exceptWorkflow p handler w = handler message w' :=
  Eff.tryCatch_of_error h

theorem exceptWorkflow_of_error {p : Prog α} {handler : String → Prog α} {e : Fault} {w : World}
    (h : p w = (.error e, w')) (he : isWorkflowError e = false) :
    exceptWorkflow p handler w = (.error e, w') := by
  have hcaught : exceptWorkflow p handler w = _ := Eff.tryCatch_of_error h
  rw [hcaught]
  cases e with
  | workflow message => cases he
  | _ => rfl

section CatchUp

variable {w w₁ w₂ : World} {e : Fault}

theorem catchUpSteps_raises [Casing] (hmarked : markCatchUp env k now w = (.ok (), w₁))
    (hw₁ : RunIs k (Unanalysed n m) w₁) (hfailed : runAnalysis env desk k w₁ = (.error e, w₂))
    (he : isWorkflowError e = false) : catchUpSteps env desk k now w = (.error e, w₂) := by
  obtain ⟨husable, run, hrun, hq⟩ := hw₁
  refine (congrFun (Eff.bind_bind (editMeta k _) (fun _ => flushWith env id) _).symm w).trans
    ((Eff.bind_of_ok hmarked).trans ?_)
  rw [Eff.bind_of_ok (loadedRun_goes husable hrun), if_pos hq.state]
  exact Eff.bind_of_error (exceptWorkflow_of_error (Eff.bind_of_error hfailed) he)

theorem catchUpSteps_enters [Casing] (hlive : marketNeedsIntraday desk now)
    (hmarked : markCatchUp env k now w = (.ok (), w₁)) (hw₁ : RunIs k (Unanalysed n m) w₁)
    (hfailed : runAnalysis env desk k w₁ = (.error (.workflow message), w₂)) :
    catchUpSteps env desk k now w =
      (do
        enterIntradayAfterFailedPrep env desk k now message
        callService env desk.jobRows
        return "analysis_failed_enter" : Prog String) w₂ := by
  obtain ⟨husable, run, hrun, hq⟩ := hw₁
  refine (congrFun (Eff.bind_bind (editMeta k _) (fun _ => flushWith env id) _).symm w).trans
    ((Eff.bind_of_ok hmarked).trans ?_)
  rw [Eff.bind_of_ok (loadedRun_goes husable hrun), if_pos hq.state]
  refine (Eff.bind_of_eq ((exceptWorkflow_of_workflow (Eff.bind_of_error hfailed)).trans
    (congrFun (if_neg (by simp [hlive])) w₂))).trans ?_
  rw [Eff.bind_bind]
  refine congrFun (bind_congr fun _ => ?_) w₂
  rw [Eff.bind_bind]
  rfl

theorem catchUpSteps_preopen [Casing] (hmarked : markCatchUp env k now w = (.ok (), w₁))
    (hw₁ : RunIs k (At .preopenRevalidation n m) w₁) :
    catchUpSteps env desk k now w =
      (do
        revalidate env desk k now noFixture
        callService env desk.jobRows
        return "advanced" : Prog String) w₁ := by
  obtain ⟨husable, run, hrun, hat⟩ := hw₁
  refine (congrFun (Eff.bind_bind (editMeta k _) (fun _ => flushWith env id) _).symm w).trans
    ((Eff.bind_of_ok hmarked).trans ?_)
  rw [Eff.bind_of_ok (loadedRun_goes husable hrun), if_neg (by rw [hat.state]; decide)]
  unfold catchUpRevalidate
  rw [Eff.bind_of_ok (loadedRun_goes husable hrun), if_pos hat.state]

end CatchUp

section FirstTick

variable {sessionDate : Option Int} {run : DailyWorkflowRun} {w : World}

theorem offTape_of_premarket (h : state.isPremarket) :
    ¬ state.isOnTape = true ∧ ¬ state.isPastTape = true := by
  revert h
  cases state <;> decide

theorem requireRun_goes (hu : Unhindered env desk) (husable : w.db.broken = false)
    (hrun : w.db.working.runs.find? k = some run) : requireRun env k w = (.ok run, w.tick) := by
  have hread := query_goes (f := fun t => t.runs.find? k) husable
    (by rw [hu.uncut, Bool.and_false] : (w.timed && env.cut w.ticks) = false)
  rw [hrun] at hread
  exact Eff.bind_of_ok hread

theorem assertNotBlocked_goes (hu : Unhindered env desk) (hstate : run.currentState.isPremarket)
    {w : World} : assertNotBlocked desk run w = (.ok (), w) := by
  obtain ⟨_, w', hrun, rfl⟩ := (assertNotBlocked_runIs (P := (· = w)) hu hstate).ends rfl
  exact hrun

section

variable [Casing]

theorem openTick_eq (h : FailedPrep env desk sessionDate now k run w) :
    openTick env desk sessionDate now w =
      (do
        reachIntraday env desk k now
        return k : Prog SessionKey) w.tick := by
  have hkey : sessionOf env desk sessionDate w = (.ok k, w) := by
    rw [h.session]
    rfl
  have hsession : run.session = k := (KeyedTable.find?_eq_some_iff.mp h.found).2
  obtain ⟨hoff, hpast⟩ := offTape_of_premarket h.premarket
  unfold openTick
  rw [Eff.bind_of_ok hkey, Eff.bind_of_ok (requireRun_goes h.unhindered h.usable h.found),
    Eff.bind_of_ok (assertNotBlocked_goes h.unhindered h.premarket), if_neg hpast, if_neg hoff,
    hsession]

theorem catchUp_eq (h : FailedPrep env desk sessionDate now k run w) :
    catchUpToIntraday env desk (some k.sessionDate) now (marketNeedsIntraday desk now) w.tick =
      catchUpSteps env desk k now w.tick.tick := by
  have hkey : sessionOf env desk (some k.sessionDate) w.tick = (.ok k, w.tick) := by
    rw [h.session]
    rfl
  have hread : getCurrent env k w.tick = (.ok (some run), w.tick.tick) := by
    have hread := query_goes (f := fun t => t.runs.find? k) (w := w.tick) h.usable
      (by rw [h.unhindered.uncut, Bool.and_false] :
        (w.tick.timed && env.cut w.tick.ticks) = false)
    exact hread.trans (by rw [show w.tick.db.working.runs.find? k = some run from h.found])
  have hcurrent : currentOrPrepared env desk (some k.sessionDate) now w.tick =
      (.ok run, w.tick.tick) := by
    unfold currentOrPrepared
    rw [Eff.bind_of_ok hkey, Eff.bind_of_ok hread]
    rfl
  have hsession : run.session = k := (KeyedTable.find?_eq_some_iff.mp h.found).2
  obtain ⟨hoff, -⟩ := offTape_of_premarket h.premarket
  unfold catchUpToIntraday
  rw [Eff.bind_of_ok hcurrent, Eff.bind_of_ok (assertNotBlocked_goes h.unhindered h.premarket), if_neg hoff,
    if_neg (by simp [h.live]), if_neg (by simp [h.live]), hsession]

theorem marked_goes (h : FailedPrep env desk sessionDate now k run w) :
    ∃ w₁, markCatchUp env k now w.tick.tick = (.ok (), w₁) ∧
      RunIs k (At run.currentState run.revalidationCount run.metadata) w₁ ∧
      beforeAttempt env k now w = (.ok (), w₁) := by
  have hw : RunIs k (At run.currentState run.revalidationCount run.metadata) w.tick.tick :=
    ⟨h.usable, run, h.found, ⟨rfl, rfl, rfl⟩, rfl⟩
  obtain ⟨_, w₁, hmarked, hw₁⟩ := (markCatchUp_goes h.unhindered).ends hw
  refine ⟨w₁, hmarked, hw₁, ?_⟩
  have hread := query_goes (f := fun t => t.runs.find? k) (w := w.tick) h.usable
    (by rw [h.unhindered.uncut, Bool.and_false] : (w.tick.timed && env.cut w.tick.ticks) = false)
  unfold beforeAttempt
  rw [Eff.bind_of_ok (requireRun_goes h.unhindered h.usable h.found)]
  exact (Eff.bind_of_ok hread).trans hmarked

theorem openTick_lands_iff (h : FailedPrep env desk sessionDate now k run w)
    (hends : Lands k (catchUpForTick env desk k now) w.tick ∨
      ∃ e w', catchUpForTick env desk k now w.tick = (.error e, w')) :
    Lands k (openTick env desk sessionDate now) w ↔
      Lands k (catchUpForTick env desk k now) w.tick := by
  rcases hends with hlands | ⟨e, w', herror⟩
  · refine iff_of_true ?_ hlands
    obtain ⟨reason, w', hcaught, hw'⟩ := hlands
    obtain ⟨run', w'', hrequired, htape, hw''⟩ := (requireRun_runIs h.unhindered).ends hw'
    refine ⟨k, w'', ?_, hw''.mono fun r hr => by rw [hr]; exact htape⟩
    rw [openTick_eq h]
    unfold reachIntraday
    rw [Eff.bind_bind, Eff.bind_of_ok hcaught, Eff.bind_bind, Eff.bind_of_ok hrequired,
      if_pos (show run'.currentState.isOnTape = true from htape)]
    rfl
  · refine iff_of_false ?_ (not_lands_of_error herror)
    refine @not_lands_of_error k _ _ _ w' e ?_
    rw [openTick_eq h]
    exact Eff.bind_of_error (Eff.bind_of_error herror)

theorem tick_after_catchUp {n : Int} {m : Dict Json}
    (h : FailedPrep env desk sessionDate now k run w) {w₂ : World}
    (hcaught : catchUpSteps env desk k now w.tick.tick = (.error (.workflow message), w₂))
    (hw₂ : RunIs k (Unanalysed n m) w₂) :
    Lands k (openTick env desk sessionDate now) w ↔ ¬ Demands desk.cfg m now (n + 1) := by
  have hhandled : catchUpForTick env desk k now w.tick = (do
      enterIntradayAfterFailedPrep env desk k now message
      return "analysis_failed_enter" : Prog String) w₂ := by
    refine (exceptWorkflow_of_workflow ((catchUp_eq h).trans hcaught)).trans ?_
    exact congrFun (if_neg (by simp [h.live])) w₂
  by_cases hd : Demands desk.cfg m now (n + 1)
  · obtain ⟨e, w', hraised⟩ := enter_raises h.unhindered h.live h.fails hd message hw₂
    have herror := hhandled.trans (Eff.bind_of_error hraised)
    rw [openTick_lands_iff h (Or.inr ⟨e, w', herror⟩)]
    exact iff_of_false (not_lands_of_error herror) fun hno => hno hd
  · have hlands : Lands k (catchUpForTick env desk k now) w.tick := by
      obtain ⟨_, w', hentered, hw'⟩ := (enter_enters h.unhindered h.live hd message).ends hw₂
      exact ⟨_, w', hhandled.trans (Eff.bind_of_ok hentered), hw'⟩
    rw [openTick_lands_iff h (Or.inl hlands)]
    exact iff_of_true hlands hd

theorem tick_of_caughtUp (h : FailedPrep env desk sessionDate now k run w)
    (hlands : Lands k (catchUpSteps env desk k now) w.tick.tick) :
    Lands k (openTick env desk sessionDate now) w := by
  obtain ⟨reason, w', hsteps, hw'⟩ := hlands
  have hcaught : Lands k (catchUpForTick env desk k now) w.tick :=
    ⟨reason, w', exceptWorkflow_of_ok ((catchUp_eq h).trans hsteps), hw'⟩
  exact (openTick_lands_iff h (Or.inl hcaught)).mpr hcaught

theorem not_tick_of_raises (h : FailedPrep env desk sessionDate now k run w) {e : Fault}
    (hsteps : catchUpSteps env desk k now w.tick.tick = (.error e, w'))
    (he : isWorkflowError e = false) : ¬ Lands k (openTick env desk sessionDate now) w := by
  have herror : catchUpForTick env desk k now w.tick = (.error e, w') :=
    exceptWorkflow_of_error ((catchUp_eq h).trans hsteps) he
  rw [openTick_lands_iff h (Or.inr ⟨e, w', herror⟩)]
  exact not_lands_of_error herror

theorem tick_of_error_iff {n : Int} {m : Dict Json} {e : Fault}
    (h : FailedPrep env desk sessionDate now k run w)
    (hcaught : catchUpSteps env desk k now w.tick.tick = (.error e, w'))
    (hleft : isWorkflowError e → RunIs k (Unanalysed n m) w') :
    Lands k (openTick env desk sessionDate now) w ↔
      isWorkflowError e ∧ ¬ Demands desk.cfg m now (n + 1) := by
  by_cases he : isWorkflowError e
  · rw [and_iff_right he]
    cases e with
    | workflow message => exact tick_after_catchUp h hcaught (hleft he)
    | _ => cases he
  · have he' : isWorkflowError e = false := by simpa using he
    exact iff_of_false (not_tick_of_raises h hcaught he') fun hr => he hr.1

end

theorem raisesWorkflow_iff {p : Prog Unit} {e : Fault} (h : p w = (.error e, w')) :
    RaisesWorkflow p w ↔ isWorkflowError e := by
  constructor
  · rintro ⟨message, w'', hp⟩
    rw [h] at hp
    cases hp
    rfl
  · intro he
    cases e with
    | workflow message => exact ⟨message, w', h⟩
    | _ => cases he

/-- A run at revalidation lands exactly if the tick recovers it. -/
theorem tick_preopen_iff [Casing] (h : FailedPrep env desk sessionDate now k run w)
    (hstate : run.currentState = .preopenRevalidation) :
    Lands k (openTick env desk sessionDate now) w ↔ Recovers env desk now k run w := by
  obtain ⟨w₁, hmarked, hw₁, hbefore⟩ := marked_goes h
  rw [hstate] at hw₁
  have hsteps : catchUpSteps env desk k now _ = _ := catchUpSteps_preopen hmarked hw₁
  by_cases hd : Demands desk.cfg run.metadata now (run.revalidationCount + 1)
  · have hfailed := reanalysis_fails h.unhindered h.live h.fails w₁ hw₁
    have hagain := revalidate_retries h.unhindered h.live h.fails hd hw₁
    have hattempt : firstAttempt env desk k now w = reanalysis env desk k now w₁ := by
      obtain ⟨husable, run₁, hrun₁, hat⟩ := hw₁
      have hwhen := @whenIn_goes k .preopenRevalidation (toReanalysis env desk k now) run₁ w₁
        husable hrun₁
      rw [if_pos hat.state] at hwhen
      unfold firstAttempt
      rw [Eff.bind_of_ok hbefore]
      exact Eff.bind_of_eq hwhen
    cases hend : reanalysis env desk k now w₁ with
    | mk r w₂ =>
      rw [hend] at hfailed hagain hattempt
      cases r with
      | ok u => exact hfailed.elim
      | error e =>
        have hcaught := hsteps.trans (Eff.bind_of_error hagain)
        have hfirst := raisesWorkflow_iff hattempt
        have hiff : Recovers env desk now k run w ↔ isWorkflowError e ∧
            ¬ Demands desk.cfg run.metadata now (run.revalidationCount + 1 + 1) :=
          ⟨fun hr => ⟨hfirst.mp (hr.first fun _ => hd), hr.settles⟩,
            fun hr => ⟨hr.2, fun _ => hfirst.mpr hr.1, fun hne => absurd hstate hne⟩⟩
        rw [hiff]
        exact tick_of_error_iff h hcaught hfailed
  · refine iff_of_true (tick_of_caughtUp h ?_)
      ⟨fun hlater => hd hlater.earlier, fun hfirst => absurd (hfirst hstate) hd,
        fun hne => absurd hstate hne⟩
    rw [Lands, hsteps]
    exact lands_of_goes (Eff.Spec.bind (revalidate_enters h.unhindered h.live hd) fun _ =>
      Eff.Spec.bind (jobRows_runIs h.unhindered) fun _ => Eff.Spec.pure fun _ hw => hw) hw₁

theorem firstAttempt_eq [Casing] {w₁ : World} (hbefore : beforeAttempt env k now w = (.ok (), w₁))
    (hw₁ : RunIs k (Unanalysed n m) w₁) :
    firstAttempt env desk k now w = runAnalysis env desk k w₁ := by
  obtain ⟨husable, run₁, hrun₁, hq⟩ := hw₁
  have hwhen := @whenIn_goes k .preopenRevalidation (toReanalysis env desk k now) run₁ w₁
    husable hrun₁
  rw [if_neg (by rcases hq.state with hs | hs <;> rw [hs] <;> decide)] at hwhen
  unfold firstAttempt
  rw [Eff.bind_of_ok hbefore]
  exact Eff.bind_of_ok hwhen

theorem tick_caught_iff [Casing] (h : FailedPrep env desk sessionDate now k run w)
    (hstate : run.currentState ≠ .preopenRevalidation) {w₁ w₂ : World}
    (hmarked : markCatchUp env k now w.tick.tick = (.ok (), w₁))
    (hbefore : beforeAttempt env k now w = (.ok (), w₁))
    (hw₁ : RunIs k (Unanalysed run.revalidationCount run.metadata) w₁)
    (hfailed : runAnalysis env desk k w₁ = (.error (.workflow message), w₂)) :
    Lands k (openTick env desk sessionDate now) w ↔ Recovers env desk now k run w := by
  have hsteps := catchUpSteps_enters h.live hmarked hw₁ hfailed
  have hleft := runAnalysis_fails h.fails w₁ hw₁
  rw [hfailed] at hleft
  have hw₂ := hleft rfl
  have hfirst : RaisesWorkflow (firstAttempt env desk k now) w :=
    ⟨message, w₂, (firstAttempt_eq hbefore hw₁).trans hfailed⟩
  by_cases hd : Demands desk.cfg run.metadata now (run.revalidationCount + 1)
  · have hwalked := walkedAnalysis_fails h.unhindered h.live h.fails message w₂ hw₂
    have hentered := enter_retries h.unhindered h.live h.fails hd message hw₂
    have hsecond : secondAttempt env desk k now w = walkedAnalysis env desk k now message w₂ := by
      have hattempt : Eff.attempt (runAnalysis env desk k) w₁ =
          (.ok (.error (.workflow message)), w₂) := by simp [Eff.attempt, hfailed]
      unfold secondAttempt
      rw [Eff.bind_of_ok hbefore, Eff.bind_of_ok hattempt]
    cases hend : walkedAnalysis env desk k now message w₂ with
    | mk r w₃ =>
      rw [hend] at hwalked hentered hsecond
      cases r with
      | ok u => exact hwalked.elim
      | error e =>
        have hcaught := hsteps.trans (Eff.bind_of_error hentered)
        have hraises := raisesWorkflow_iff hsecond
        have hiff : Recovers env desk now k run w ↔ isWorkflowError e ∧
            ¬ Demands desk.cfg run.metadata now (run.revalidationCount + 1 + 1) :=
          ⟨fun hr => ⟨hraises.mp (hr.second hstate hd), hr.settles⟩,
            fun hr => ⟨hr.2, fun _ => hfirst, fun _ _ => hraises.mpr hr.1⟩⟩
        rw [hiff]
        exact tick_of_error_iff h hcaught hwalked
  · refine iff_of_true (tick_of_caughtUp h ?_)
      ⟨fun hlater => hd hlater.earlier, fun _ => hfirst, fun _ hdemands => absurd hdemands hd⟩
    rw [Lands, hsteps]
    exact lands_of_goes (Eff.Spec.bind (enter_enters h.unhindered h.live hd message) fun _ =>
      Eff.Spec.bind (jobRows_runIs h.unhindered) fun _ => Eff.Spec.pure fun _ hw => hw) hw₂

/-- A run not analysed yet lands exactly if the tick recovers it. -/
theorem tick_unanalysed_iff [Casing] (h : FailedPrep env desk sessionDate now k run w)
    (hstate : run.currentState = .premarketPreparation ∨
      run.currentState = .premarketAnalysis) :
    Lands k (openTick env desk sessionDate now) w ↔ Recovers env desk now k run w := by
  have hne : run.currentState ≠ .preopenRevalidation := by
    rcases hstate with hs | hs <;> rw [hs] <;> decide
  obtain ⟨w₁, hmarked, hat, hbefore⟩ := marked_goes h
  have hw₁ : RunIs k (Unanalysed run.revalidationCount run.metadata) w₁ :=
    hat.mono fun r hr => ⟨hr.toPrepared, by rw [hr.state]; exact hstate⟩
  obtain ⟨e, w₂, hfailed⟩ := h.fails w₁
  by_cases he : isWorkflowError e
  · cases e with
    | workflow message => exact tick_caught_iff h hne hmarked hbefore hw₁ hfailed
    | _ => cases he
  · have he' : isWorkflowError e = false := by simpa using he
    refine iff_of_false (not_tick_of_raises h (catchUpSteps_raises hmarked hw₁ hfailed he') he') ?_
    intro hr
    have hfirst := hr.first fun hs => absurd hs hne
    rw [raisesWorkflow_iff ((firstAttempt_eq hbefore hw₁).trans hfailed)] at hfirst
    exact he hfirst

/-- **The first tick of a live tape brings a failed preparation onto it exactly where its second
    revalidation demands no analysis any more and each analysis it makes ends in a
    `DailyWorkflowError`.** -/
theorem tick_lands_iff [Casing] (h : FailedPrep env desk sessionDate now k run w) :
    Lands k (openTick env desk sessionDate now) w ↔ Recovers env desk now k run w := by
  cases hstate : run.currentState with
  | premarketPreparation => exact tick_unanalysed_iff h (Or.inl hstate)
  | premarketAnalysis => exact tick_unanalysed_iff h (Or.inr hstate)
  | preopenRevalidation => exact tick_preopen_iff h hstate
  | _ =>
    have hpre := h.premarket
    rw [hstate] at hpre
    cases hpre

end FirstTick

/-! ## Services that fail every analysis -/

theorem callService_fails {answer : Nat → ServiceAnswer α}
    (h : ∀ n, ∃ e, (answer n).reply = .error e) :
    Eff.Spec (fun _ => True) (callService env answer) (fun _ _ => False) (fun _ _ => True) := by
  have hcalm : Calm fun _ => True := ⟨fun _ h => h, fun _ h => h⟩
  refine (callService_spec hcalm).weaken (fun _ h => h) (fun x _ hx => ?_) fun _ _ h => h
  obtain ⟨-, n, hreply⟩ := hx
  obtain ⟨e, herror⟩ := h n
  rw [herror] at hreply
  cases hreply

theorem analysisFails_of_decide [Casing] (h : ∀ runId, Eff.Spec (fun _ => True)
    (decideAndTrade env desk k runId) (fun _ _ => False) (fun _ _ => True)) :
    AnalysisFails env desk k := by
  have hbody : ∀ runId, Eff.Spec (fun _ => True) (do
      let d ← decideAndTrade env desk k runId
      closeAnalysis env desk k d) (fun _ _ => False) (fun _ _ => True) := fun runId =>
    Eff.Spec.bind (M := fun _ _ => False) (h runId) fun _ _ hw => hw.elim
  have hall : Eff.Spec (fun _ => True) (runAnalysis env desk k) (fun _ _ => False)
      (fun _ _ => True) := by
    refine Eff.Spec.bind Eff.Spec.any fun run => Eff.Spec.bind Eff.Spec.any fun _ =>
      Eff.Spec.bind Eff.Spec.any fun _ => Eff.Spec.bind (M := fun ended _ =>
        ended ≠ .ok ()) (Eff.Spec.attempt ((hbody run.id).weaken (fun _ h => h)
          (fun _ _ h => h.elim) fun _ _ _ h => nomatch h)) fun ended => ?_
    cases ended with
    | ok u => exact fun w hw => absurd rfl hw
    | error e => exact Eff.Spec.bind Eff.Spec.any fun _ => Eff.Spec.throw fun _ h => h
  intro w
  have hend := hall w trivial
  cases hrun : runAnalysis env desk k w with
  | mk r w' =>
    rw [hrun] at hend
    cases r with
    | ok u => exact hend.elim
    | error e => exact ⟨e, w', rfl⟩

theorem analysisFails_of_portfolio [Casing] (h : ∀ n, ∃ e, (desk.portfolio n).reply = .error e) :
    AnalysisFails env desk k := by
  refine analysisFails_of_decide fun runId => Eff.Spec.bind Eff.Spec.any fun _ =>
    Eff.Spec.ite (fun _ => Eff.Spec.throw fun _ h => h) fun _ =>
      Eff.Spec.bind (M := fun _ _ => False) ?_ fun _ _ hw => hw.elim
  exact Eff.Spec.tryCatch (callService_fails h) fun e => Eff.Spec.ite
    (fun _ => Eff.Spec.throw fun _ h => h) fun _ => Eff.Spec.throw fun _ h => h

theorem analysisFails_of_committee [Casing] (h : ∀ n, ∃ e, (desk.committee n).reply = .error e) :
    AnalysisFails env desk k := by
  refine analysisFails_of_decide fun runId => Eff.Spec.bind Eff.Spec.any fun _ =>
    Eff.Spec.ite (fun _ => Eff.Spec.throw fun _ h => h) fun _ =>
      Eff.Spec.bind Eff.Spec.any fun _ => Eff.Spec.bind Eff.Spec.any fun _ =>
      Eff.Spec.bind Eff.Spec.any fun _ => Eff.Spec.bind Eff.Spec.any fun _ =>
      Eff.Spec.bind (M := fun _ _ => False) (callService_fails h) fun _ _ hw => hw.elim

end Recovery

/-! ## A session prepared late -/

section LateSession

attribute [local instance] asciiCasing

instance (p : Prog Unit) (w : World) : Decidable (RaisesWorkflow p w) :=
  decidable_of_iff ((match p w with
    | (.error e, _) => isWorkflowError e
    | _ => false) = true) (by
      cases hp : p w with
      | mk r w' =>
        cases r with
        | ok u => exact iff_of_false (by simp) fun ⟨_, _, h⟩ => by rw [hp] at h; cases h
        | error e => exact (raisesWorkflow_iff hp).symm)

def preparedWorld : World :=
  (prepare (acceptingEnv fun _ => false) (deskDeciding (decisionOf .hold [])) (some 0) 0
    emptyWorld).2

def deskWithoutPortfolio : Desk :=
  { deskDeciding (decisionOf .hold []) with portfolio := fun _ => raises (.other "IBKR down") }

def deskWithoutCommittee : Desk :=
  { deskDeciding (decisionOf .hold []) with committee := fun _ => raises (.other "LLM down") }

theorem failedPrep_prepared {desk : Desk} {run : DailyWorkflowRun}
    (hu : Unhindered (acceptingEnv fun _ => false) desk) (hname : desk.calendarName = "NYSE")
    (hlive : marketNeedsIntraday desk 0) (hfails : AnalysisFails (acceptingEnv fun _ => false) desk newYork)
    (hrun : preparedWorld.db.working.runs.find? newYork = some run) :
    FailedPrep (acceptingEnv fun _ => false) desk (some 0) 0 newYork run preparedWorld where
  unhindered := hu
  session := by rw [hname]; rfl
  usable := by decide +kernel
  found := hrun
  premarket := by
    have hstate : (preparedWorld.db.working.runs.find? newYork).map (·.currentState.isPremarket) =
        some true := by decide +kernel
    rw [hrun] at hstate
    exact Option.some.inj hstate
  live := hlive
  fails := hfails

/-- A committee that cannot be reached keeps the session off the tape. -/
theorem tick_raises_without_committee :
    ∃ run, FailedPrep (acceptingEnv fun _ => false) deskWithoutCommittee (some 0) 0 newYork run
        preparedWorld ∧
      ¬ Lands newYork (openTick (acceptingEnv fun _ => false) deskWithoutCommittee (some 0) 0)
        preparedWorld := by
  obtain ⟨run, hrun⟩ := Option.isSome_iff_exists.mp
    (by decide +kernel : (preparedWorld.db.working.runs.find? newYork).isSome = true)
  refine ⟨run, failedPrep_prepared ⟨fun _ => rfl, fun _ => rfl, fun _ => rfl, fun _ => rfl⟩ rfl
    (by decide) (analysisFails_of_committee fun _ => ⟨_, rfl⟩) hrun, ?_⟩
  rintro ⟨k, w', hopen, _⟩
  have hraises : (openTick (acceptingEnv fun _ => false) deskWithoutCommittee (some 0) 0
      preparedWorld).1.isOk = false := by decide +kernel
  rw [hopen] at hraises
  cases hraises

/-- Without the portfolio the session gets onto the tape. -/
theorem tick_lands_without_portfolio :
    Lands newYork (openTick (acceptingEnv fun _ => false) deskWithoutPortfolio (some 0) 0)
      preparedWorld := by
  obtain ⟨run, hrun⟩ := Option.isSome_iff_exists.mp
    (by decide +kernel : (preparedWorld.db.working.runs.find? newYork).isSome = true)
  have hasks : (preparedWorld.db.working.runs.find? newYork).map
      (fun r => Asks deskWithoutPortfolio.cfg r.metadata 0) = some false := by decide +kernel
  rw [hrun] at hasks
  have hasks : Asks deskWithoutPortfolio.cfg run.metadata 0 = false := Option.some.inj hasks
  have hno : ∀ attempt, ¬ Demands deskWithoutPortfolio.cfg run.metadata 0 attempt := by
    intro attempt hd
    have hasked := hd.1
    rw [hasks] at hasked
    cases hasked
  have h : FailedPrep _ deskWithoutPortfolio (some 0) 0 newYork run preparedWorld :=
    failedPrep_prepared ⟨fun _ => rfl, fun _ => rfl, fun _ => rfl, fun _ => rfl⟩ rfl (by decide)
      (analysisFails_of_portfolio fun _ => ⟨_, rfl⟩) hrun
  exact (tick_lands_iff h).mpr ⟨hno _, fun _ => by decide +kernel, fun _ hd => absurd hd (hno _)⟩

end LateSession

end Investor.Workflow
