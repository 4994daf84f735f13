import Investor.Workflow.SessionEnd

/-!
# What the operations keep

Every operation of the daily workflow is put together from few ways of touching the world: it
awaits, calls other services, hands a decision to the bridge, writes leases, creates a run, and
changes a run's columns or takes an allowed step with its row (`RunChange`). An assertion that
none of these breaks is `Steady` (`RunsFree`, where the bridge is not called), and a steady
assertion is kept by every operation however it ends, one lemma for each operation. The one change
outside of this is the recovery's.

Between the row of a step and the assignment of the new state there is a flush. Where it fails
the transaction is taken back, and the row with it; so the step is one change after all
(`transition_then`).
-/

namespace Investor.Workflow

open Lib Schema Market Risk Core Execution Intraday

def DailyWorkflowState.isEntered : DailyWorkflowState → Bool
  | .nonTradingDay | .premarketPreparation | .paused | .emergencyStop => false
  | _ => true

inductive RunChange (r r' : DailyWorkflowRun) : Prop
  | columns (hrows : r'.transitions = r.transitions) (hcreated : r'.createdAs = r.createdAs)
      (hstate : r'.currentState = r.currentState)
  | moves (trigger reason : String) (hallowed : Allowed r.currentState r'.currentState)
      (hentered : r'.currentState.isEntered)
      (hrows : r'.transitions = r.transitions ++
        [{ fromState := r.currentState, toState := r'.currentState, trigger, reason }])
      (hcreated : r'.createdAs = r.createdAs)

structure LeasesFree (I : World → Prop) : Prop extends Calm I where
  leases : ∀ {w : World} (f : Tables → Dict LeaseRow), I w →
    I { w with db := w.db.write fun t => { t with leases := f t } }

/-- An assertion no way of touching leases and runs breaks. -/
structure RunsFree (I : World → Prop) : Prop extends LeasesFree I where
  change : ∀ {w : World} {k : SessionKey} {f : DailyWorkflowRun → DailyWorkflowRun}
    (hf : ∀ r, (f r).session = r.session), w.db.broken = false →
    (∀ run, w.db.working.runs.find? k = some run → RunChange run (f run)) → I w →
    I { w with db := w.db.write (setRun k f hf) }
  create : ∀ {w : World} {run : DailyWorkflowRun} {runs : RunTable},
    w.db.working.runs.insert run = some runs → run.transitions = [] →
    run.currentState = run.createdAs → I w →
    I { w with db := w.db.write fun t => { t with runs } }

/-- **An assertion no way of touching the world breaks.** -/
structure Steady [Casing] (I : World → Prop) : Prop extends RunsFree I where
  intents : IntentsFree I
  submits : ∀ {env : Env} {cfg : Settings} (controls : TradingControlState)
    (validation : ExecutionValidationResult) (decisionId : Option String),
    Eff.Keeps I (submitValidatedIntents env cfg controls validation decisionId)

/-! ## Rows of the run -/

variable {k : SessionKey} {f g : DailyWorkflowRun → DailyWorkflowRun} {t : Tables}

theorem setRun_congr {hf : ∀ r, (f r).session = r.session} {hg : ∀ r, (g r).session = r.session}
    {run : DailyWorkflowRun} (hrun : t.runs.find? k = some run) (h : f run = g run) :
    setRun k f hf t = setRun k g hg t := by
  obtain ⟨hmem, hkey⟩ := KeyedTable.find?_eq_some_iff.mp hrun
  unfold setRun
  congr 1
  refine KeyedTable.ext_rows ?_
  rw [KeyedTable.rows_update, KeyedTable.rows_update]
  refine List.map_congr_left fun r hr => ?_
  by_cases hrk : r.session = k
  · rw [if_pos hrk, if_pos hrk, KeyedTable.eq_of_key_eq hr hmem (hrk.trans hkey.symm)]
    exact h
  · rw [if_neg hrk, if_neg hrk]

theorem setRun_setRun (hf : ∀ r, (f r).session = r.session) (hg : ∀ r, (g r).session = r.session) :
    setRun k g hg (setRun k f hf t) =
      setRun k (fun r => g (f r)) (fun r => (hg (f r)).trans (hf r)) t := by
  unfold setRun
  congr 1
  refine KeyedTable.ext_rows ?_
  rw [KeyedTable.rows_update, KeyedTable.rows_update, KeyedTable.rows_update, List.map_map]
  refine List.map_congr_left fun r _ => ?_
  by_cases hrk : r.session = k
  · simp [hrk, hf]
  · simp [hrk]

theorem write_setRun (hf : ∀ r, (f r).session = r.session) (hg : ∀ r, (g r).session = r.session)
    {s : Session Tables} :
    (s.write (setRun k f hf)).write (setRun k g hg) =
      s.write (setRun k (fun r => g (f r)) fun r => (hg (f r)).trans (hf r)) :=
  congrArg (fun t : Tables => ({ s with working := t } : Session Tables)) (setRun_setRun hf hg)

theorem find?_setRun {k' : SessionKey} {hf : ∀ r, (f r).session = r.session} :
    (setRun k f hf t).runs.find? k' =
      (t.runs.find? k').map fun r => if k' = k then f r else r := by
  unfold setRun KeyedTable.find?
  rw [KeyedTable.rows_update, List.find?_map]
  have hpred : ((fun r : DailyWorkflowRun => decide (r.session = k')) ∘
      fun r => if r.session = k then f r else r) = fun r => decide (r.session = k') := by
    funext r
    show decide ((if r.session = k then f r else r).session = k') = _
    split <;> simp [hf]
  rw [hpred]
  cases hfound : t.runs.rows.find? fun r => decide (r.session = k') with
  | none => rfl
  | some r =>
    have hkey : r.session = k' := by simpa using List.find?_some hfound
    simp [hkey]

theorem found_setRun {k : SessionKey} {f : DailyWorkflowRun → DailyWorkflowRun}
    (hf : ∀ r, (f r).session = r.session) {t : Tables} {run : DailyWorkflowRun}
    (hrun : t.runs.find? k = some run) : (setRun k f hf t).runs.find? k = some (f run) := by
  rw [find?_setRun, hrun, Option.map_some, if_pos rfl]

/-! ## The ways of touching the world -/

section Programs

variable {env : Env} {I : World → Prop}

theorem flushWith_spec {f : Tables → Tables} (hI : Calm I) :
    Eff.Spec I (flushWith env f)
      (fun _ w' => ∃ w, I w ∧ w.db.broken = false ∧ w' = { w with db := w.db.write f })
      (fun _ => I) := by
  refine Eff.Spec.bind (M := fun w₀ w => I w ∧ w₀ = w) (Eff.Spec.read fun w hw => ⟨hw, rfl⟩)
    fun w₀ => Eff.Spec.ite (fun _ => Eff.Spec.throw fun w hw => hw.1) fun husable => ?_
  have husable : w₀.db.broken = false := by simpa using husable
  -- the await changes nothing the session holds
  have hJ : Calm fun w => I w ∧ (w.db.broken = false → w₀.db.broken = false) :=
    ⟨fun w h => ⟨hI.tick w h.1, h.2⟩, fun w h => ⟨hI.abort w h.1, fun _ => husable⟩⟩
  have hawait : Eff.Spec (fun w => I w ∧ w₀ = w) (Eff.attempt (suspend env))
      (fun _ w => I w ∧ w.db.broken = false) (fun _ => I) := by
    refine Eff.Spec.attempt ?_
    intro w hw
    obtain ⟨hw, rfl⟩ := hw
    have hbroken : ∀ w', w' = w₀.tick → I w' ∧ w'.db.broken = false := by
      rintro _ rfl
      exact ⟨hI.tick w₀ hw, husable⟩
    unfold suspend
    by_cases hcut : w₀.timed && env.cut w₀.ticks
    · rw [if_pos hcut]
      exact hbroken _ rfl
    · rw [if_neg hcut]
      exact hbroken _ rfl
  refine Eff.Spec.bind hawait fun ended => ?_
  refine Eff.Spec.bind (M := fun _ w => I w ∧ w.db.broken = false)
    (Eff.Spec.read fun w hw => hw) fun w₁ => ?_
  have habort : ∀ e : Fault, Eff.Spec (fun w => I w ∧ w.db.broken = false)
      (do abort; throw e : Prog Unit)
      (fun _ w' => ∃ w, I w ∧ w.db.broken = false ∧ w' = { w with db := w.db.write f })
      (fun _ => I) := fun e =>
    Eff.Spec.bind (M := fun _ => I) (Eff.Spec.edit fun w hw => hI.abort w hw.1)
      fun _ => Eff.Spec.throw fun w hw => hw
  cases ended with
  | error e => exact habort e
  | ok _ =>
    refine Eff.Spec.ite (fun _ => habort _) fun _ => ?_
    exact Eff.Spec.edit fun w hw => ⟨w, hw.1, hw.2, rfl⟩

theorem keeps_flushWith {f : Tables → Tables} (hI : Calm I)
    (hf : ∀ w, w.db.broken = false → I w → I { w with db := w.db.write f }) :
    Eff.Keeps I (flushWith env f) :=
  (flushWith_spec hI).weaken (fun _ h => h)
    (by rintro _ _ ⟨w, hw, husable, rfl⟩; exact hf w husable hw) fun _ _ h => h

theorem keeps_sync (hI : Calm I) : Eff.Keeps I (flushWith env id) :=
  keeps_flushWith hI fun _ _ hw => hw

theorem loadedRun_spec :
    Eff.Spec I (loadedRun k)
      (fun run w => I w ∧ w.db.broken = false ∧ w.db.working.runs.find? k = some run)
      (fun _ => I) := by
  refine Eff.Spec.bind (M := fun w₀ w => I w ∧ w₀ = w) (Eff.Spec.read fun w hw => ⟨hw, rfl⟩)
    fun w₀ => Eff.Spec.ite (fun _ => Eff.Spec.throw fun w hw => hw.1) fun husable => ?_
  cases hfound : w₀.db.working.runs.find? k with
  | none => exact Eff.Spec.throw fun w hw => hw.1
  | some run =>
    refine Eff.Spec.pure fun w hw => ?_
    obtain ⟨hw, rfl⟩ := hw
    exact ⟨hw, by simpa using husable, hfound⟩

theorem keeps_loadedRun : Eff.Keeps I (loadedRun k) :=
  loadedRun_spec.weaken (fun _ h => h) (fun _ _ h => h.1) fun _ _ h => h

theorem keeps_getCurrent (hI : Calm I) : Eff.Keeps I (getCurrent env k) :=
  keeps_query hI

theorem keeps_requireRun (hI : Calm I) : Eff.Keeps I (requireRun env k) := by
  refine Eff.Keeps.bind (keeps_getCurrent hI) fun found => ?_
  cases found with
  | none => exact Eff.keeps_throw
  | some run => exact Eff.keeps_pure

/-- The run of the session, if the session can be used, stands in the state. -/
def Stands (k : SessionKey) (state : DailyWorkflowState) (w : World) : Prop :=
  w.db.broken = false →
    ∃ run, w.db.working.runs.find? k = some run ∧ run.currentState = state

theorem calm_stands (k : SessionKey) (state : DailyWorkflowState) : Calm (Stands k state) where
  tick := fun _ h => h
  abort := fun _ _ hb => absurd hb (by simp)

theorem calm_and {J : World → Prop} (hI : Calm I) (hJ : Calm J) : Calm fun w => I w ∧ J w where
  tick := fun w h => ⟨hI.tick w h.1, hJ.tick w h.2⟩
  abort := fun w h => ⟨hI.abort w h.1, hJ.abort w h.2⟩

theorem submitFree_stands (k : SessionKey) (state : DailyWorkflowState) :
    SubmitFree (Stands k state) where
  tick := (calm_stands k state).tick
  abort := (calm_stands k state).abort
  set := fun _ h => h
  insert := fun _ h => h
  accept := fun _ h => h
  send := fun _ h => h

variable {state : DailyWorkflowState}

theorem Stands.setRun {state' : DailyWorkflowState} {hf : ∀ r, (f r).session = r.session}
    {w : World} (h : Stands k state w) (hstate : ∀ r : DailyWorkflowRun, r.currentState = state →
      (f r).currentState = state') :
    Stands k state' { w with db := w.db.write (setRun k f hf) } := by
  intro husable
  obtain ⟨run, hrun, hs⟩ := h husable
  exact ⟨f run, found_setRun hf hrun, hstate run hs⟩

theorem keeps_assignRun_stands {hf : ∀ r, (f r).session = r.session}
    (hstate : ∀ r, (f r).currentState = r.currentState) :
    Eff.Keeps (Stands k state) (assignRun k f hf) :=
  Eff.Spec.bind loadedRun_spec fun _ => Eff.Spec.edit fun _ hw =>
    hw.1.setRun fun r hr => (hstate r).trans hr

variable {toState : DailyWorkflowState} {trigger reason : String}

theorem setState_spec :
    Eff.Spec (Stands k state) (setState env k toState trigger reason)
      (fun _ w => Allowed state toState ∧ Stands k toState w) (fun _ _ => True) := by
  have hcalm : Calm fun w => Allowed state toState ∧ Stands k toState w :=
    ⟨fun w h => h, fun w h => ⟨h.1, (calm_stands k toState).abort w h.2⟩⟩
  refine Eff.Spec.bind (loadedRun_spec.weaken (fun _ h => h) (fun _ _ h => h)
    fun _ _ _ => trivial) fun run => Eff.Spec.ite (fun hallowed => ?_) fun _ =>
      Eff.Spec.throw fun _ _ => trivial
  have hrow : Eff.Spec (fun w => Stands k state w ∧ w.db.broken = false ∧
      w.db.working.runs.find? k = some run) (transition env k run.currentState toState trigger reason)
      (fun _ w => Allowed state toState ∧ Stands k state w) (fun _ _ => True) := by
    have hkeeps : Calm fun w => Allowed state toState ∧ Stands k state w :=
      ⟨fun w h => h, fun w h => ⟨h.1, (calm_stands k state).abort w h.2⟩⟩
    have hflush : Eff.Keeps (fun w => Allowed state toState ∧ Stands k state w)
        (transition env k run.currentState toState trigger reason) := by
      refine keeps_flushWith hkeeps ?_
      intro w _ hw
      exact ⟨hw.1, hw.2.setRun fun r hr => hr⟩
    refine hflush.weaken (fun w hw => ⟨?_, hw.1⟩) (fun _ _ h => h) fun _ _ _ => trivial
    obtain ⟨run', hrun', hs⟩ := hw.1 hw.2.1
    rw [hw.2.2] at hrun'
    rw [← hs, ← Option.some.inj hrun']
    exact hallowed
  refine Eff.Spec.bind hrow fun _ => Eff.Spec.bind (M := fun _ w =>
    Allowed state toState ∧ Stands k toState w) (Eff.Spec.edit fun w hw => ?_) fun _ => ?_
  · exact ⟨hw.1, hw.2.setRun fun _ _ => rfl⟩
  · exact (keeps_sync hcalm).weaken (fun _ h => h) (fun _ _ h => h) fun _ _ _ => trivial

variable {α : Type}

theorem transition_then (hI : RunsFree I) {fromState : DailyWorkflowState} {rest : Prog α}
    (g : DailyWorkflowRun → DailyWorkflowRun) (hg : ∀ r, (g r).session = r.session)
    (hallowed : Allowed fromState toState) (hentered : toState.isEntered)
    (hrows : ∀ r, (g r).transitions = r.transitions ∧ (g r).createdAs = r.createdAs ∧
      (g r).currentState = toState) (hrest : Eff.Keeps I rest) :
    Eff.Spec (fun w => I w ∧ Stands k fromState w)
      (do
        transition env k fromState toState trigger reason
        write (setRun k g hg)
        rest) (fun _ => I) (fun _ => I) := by
  refine Eff.Spec.bind ((flushWith_spec (calm_and hI.toCalm (calm_stands k fromState))).weaken
    (fun _ h => h) (fun _ _ h => h) fun _ _ h => h.1) fun _ =>
    Eff.Spec.bind (M := fun _ => I) (Eff.Spec.edit ?_) fun _ => hrest
  rintro _ ⟨w, ⟨hw, hstands⟩, husable, rfl⟩
  obtain ⟨run, hrun, rfl⟩ := hstands husable
  let row : WorkflowStateTransition :=
    { fromState := run.currentState, toState, trigger, reason }
  -- the two rewrites are one
  have hone : (w.db.write (setRun k (·.record row) fun _ => rfl)).write (setRun k g hg) =
      w.db.write (setRun k (fun r => g (r.record row)) fun r => hg (r.record row)) :=
    write_setRun _ _
  show I { w with db := (w.db.write (setRun k (·.record row) fun _ => rfl)).write (setRun k g hg) }
  rw [hone]
  refine hI.change _ husable (fun r hr => ?_) hw
  rw [hrun] at hr
  obtain rfl := Option.some.inj hr
  obtain ⟨htrans, hcreated, hstate⟩ := hrows (run.record row)
  refine RunChange.moves trigger reason ?_ ?_ ?_ hcreated
  · rw [hstate]; exact hallowed
  · rw [hstate]; exact hentered
  · rw [htrans, hstate]; rfl

theorem keeps_setState (hI : RunsFree I) (hentered : toState.isEntered) :
    Eff.Keeps I (setState env k toState trigger reason) := by
  refine Eff.Spec.bind loadedRun_spec fun run => Eff.Spec.ite (fun hallowed => ?_) fun _ =>
    Eff.Spec.throw fun w hw => hw.1
  exact (transition_then hI (fun r => r.assign toState reason) (fun _ => rfl) hallowed hentered
    (fun r => ⟨rfl, rfl, rfl⟩) (keeps_sync hI.toCalm)).pre
    fun w hw => ⟨hw.1, fun _ => ⟨run, hw.2.2, rfl⟩⟩

theorem keeps_assignRun (hI : RunsFree I) {hf : ∀ r, (f r).session = r.session}
    (hcolumns : ∀ r, (f r).transitions = r.transitions ∧ (f r).createdAs = r.createdAs ∧
      (f r).currentState = r.currentState) : Eff.Keeps I (assignRun k f hf) := by
  refine Eff.Spec.bind loadedRun_spec fun run => Eff.Spec.edit fun w hw => ?_
  refine hI.change hf hw.2.1 (fun r _ => ?_) hw.1
  exact RunChange.columns (hcolumns r).1 (hcolumns r).2.1 (hcolumns r).2.2

theorem keeps_editMeta (hI : RunsFree I) {f : Dict Json → Dict Json} : Eff.Keeps I (editMeta k f) :=
  keeps_assignRun hI fun _ => ⟨rfl, rfl, rfl⟩

theorem keeps_whenIn {p : Prog Unit} (hp : Eff.Keeps I p) : Eff.Keeps I (whenIn k state p) :=
  Eff.Keeps.bind keeps_loadedRun fun _ => Eff.Keeps.ite hp Eff.keeps_pure

theorem keeps_finallyDo {p : Prog α} {after : Prog Unit} (hp : Eff.Keeps I p)
    (hafter : Eff.Keeps I after) : Eff.Keeps I (finallyDo p after) := by
  refine Eff.Keeps.bind (Eff.Keeps.attempt hp) fun ended => Eff.Keeps.bind hafter fun _ => ?_
  cases ended with
  | ok a => exact Eff.keeps_pure
  | error e => exact Eff.keeps_throw

variable {desk : Desk} {key : String}

theorem keeps_acquireLease (hI : LeasesFree I) : Eff.Keeps I (acquireLease env desk key) := by
  refine Eff.Keeps.bind Eff.keeps_read fun start => ?_
  refine Eff.Keeps.bind (keeps_query hI.toCalm) fun seen => Eff.Keeps.bind Eff.keeps_read fun w => ?_
  have hgrant : ∀ row, Eff.Keeps I
      (flushWith env fun t => { t with leases := Dict.set t.leases key row }) := fun row =>
    keeps_flushWith hI.toCalm fun w _ hw => hI.leases (fun t => Dict.set t.leases key row) hw
  dsimp only
  split
  · exact Eff.keeps_throw
  · exact hgrant _
  · exact hgrant _

theorem keeps_releaseQuietly (hI : LeasesFree I) : Eff.Keeps I (releaseQuietly env desk key) := by
  refine Eff.Keeps.tryCatch ?_ fun e => Eff.Keeps.ite Eff.keeps_pure Eff.keeps_throw
  refine Eff.Keeps.bind (keeps_query hI.toCalm) fun seen => ?_
  cases seen with
  | none => exact Eff.keeps_pure
  | some row =>
    refine Eff.Keeps.ite Eff.keeps_throw (keeps_flushWith hI.toCalm fun w _ hw => ?_)
    exact hI.leases (fun t => Dict.erase t.leases key) hw

theorem keeps_underLease (hI : LeasesFree I) {p : Prog α} (hp : Eff.Keeps I p) :
    Eff.Keeps I (underLease env desk key p) :=
  Eff.Keeps.bind (keeps_acquireLease hI) fun _ => keeps_finallyDo hp (keeps_releaseQuietly hI)

theorem keeps_assertNotBlocked {run : DailyWorkflowRun} : Eff.Keeps I (assertNotBlocked desk run) :=
  Eff.Keeps.bind Eff.keeps_read fun _ =>
    Eff.Keeps.ite Eff.keeps_throw (Eff.Keeps.ite Eff.keeps_throw Eff.keeps_pure)

end Programs

end Investor.Workflow
