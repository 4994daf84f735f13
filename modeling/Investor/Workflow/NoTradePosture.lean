import Investor.Workflow.TickRecords
import Investor.Workflow.Transitions
import Investor.Execution.ExitBatch
import Investor.Execution.Sending

/-!
# A session entered in a no-trade posture

Where a revalidation settles on `NO_TRADE` or on a reanalysis that is not made any more, and
where the preparation failed, the run enters the tape with a `no_trade_reason` in its metadata.
Nothing in `evaluate_intraday` reads it. What keeps a later tick from buying is then only what
keeps any tick from it: the phase, the mode, the automation, and a committee that wants nothing
new (`BringsEntry`).

A run that has entered the tape does not come back before the open (`OpenedStays`), so a later
tick of its session never analyses it on the premarket path.
-/

namespace Investor.Workflow

open Lib Schema Market Risk Universe Core Execution Intraday

/-! ## Runs that have entered the tape -/

def DailyWorkflowState.isOpened : DailyWorkflowState → Bool
  | .marketOpen | .intraday | .closingWindow | .marketClosed | .postmarketReview | .completed
  | .failed => true
  | _ => false

/-- A row of the run's transitions leads into `INTRADAY`. -/
def DailyWorkflowRun.HasEntered (r : DailyWorkflowRun) : Prop :=
  ∃ t ∈ r.transitions, t.toState = .intraday

def DailyWorkflowRun.StaysOpened (r : DailyWorkflowRun) : Prop :=
  r.HasEntered → r.currentState.isOpened

theorem isOpened_of_allowed {s s' : DailyWorkflowState} (h : s.isOpened) (hallowed : Allowed s s')
    (hentered : s'.isEntered) : s'.isOpened := by
  revert h hallowed hentered
  cases s <;> cases s' <;> decide

theorem RunChange.isOpened {r r' : DailyWorkflowRun} (h : RunChange r r')
    (hr : r.currentState.isOpened) : r'.currentState.isOpened := by
  cases h with
  | columns hrows hcreated hstate => rwa [hstate]
  | moves trigger reason hallowed hentered hrows hcreated =>
    exact isOpened_of_allowed hr hallowed hentered

theorem RunChange.staysOpened {r r' : DailyWorkflowRun} (h : RunChange r r')
    (hr : r.StaysOpened) : r'.StaysOpened := by
  rintro ⟨t, ht, hto⟩
  cases h with
  | columns hrows hcreated hstate =>
    rw [hstate]
    exact hr ⟨t, hrows ▸ ht, hto⟩
  | moves trigger reason hallowed hentered hrows hcreated =>
    rw [hrows] at ht
    rcases List.mem_append.mp ht with ht | ht
    · exact isOpened_of_allowed (hr ⟨t, ht, hto⟩) hallowed hentered
    · -- the row of this very step
      rw [List.mem_singleton.mp ht] at hto
      rw [show r'.currentState = .intraday from hto]
      rfl

abbrev OpenedStays (w : World) : Prop := RunsAll DailyWorkflowRun.StaysOpened w

theorem steady_openedStays [Casing] : Steady OpenedStays :=
  steady_runsAll RunChange.staysOpened fun hrows _ h => by
    obtain ⟨t, ht, _⟩ := h
    rw [hrows] at ht
    cases ht

theorem staysOpened_recoverRun {rec : RecoveryDesk} {now : Int} {r : DailyWorkflowRun}
    (h : r.StaysOpened) : (rec.recoverRun now r).StaysOpened := by
  by_cases hstale : rec.isStale now r = true
  · intro _
    have hopen : r.isOpen = true ∧ r.currentState ≠ .emergencyStop := by
      simp only [RecoveryDesk.isStale, Bool.and_eq_true, decide_eq_true_eq] at hstale
      exact hstale.1
    unfold RecoveryDesk.recoverRun
    rw [if_neg (by simp [hopen]), if_pos hstale]
    rfl
  · exact (recoverRun_columns (by simpa using hstale)).staysOpened h

/-! ## The session of a call -/

section Posture

variable {env : Env} {desk : Desk} {k : SessionKey} {w₀ : World}

/-- The run of the session stands at the open or after it, where the session can be used. -/
def Opened (k : SessionKey) (w : World) : Prop :=
  w.db.broken = false → ∃ run, w.db.working.runs.find? k = some run ∧ run.currentState.isOpened

theorem runsFree_opened (k : SessionKey) : RunsFree (Opened k) where
  tick := fun _ h => h
  abort := fun _ _ hb => absurd hb (by simp)
  leases := fun _ h => h
  change := by
    intro w k' f hf husable hstep h _
    obtain ⟨run, hrun, hopened⟩ := h husable
    by_cases hk : k = k'
    · subst hk
      exact ⟨f run, found_setRun hf hrun, (hstep run hrun).isOpened hopened⟩
    · refine ⟨run, ?_, hopened⟩
      have hfound : (setRun k' f hf w.db.working).runs.find? k = _ := find?_setRun
      rw [hrun, Option.map_some, if_neg hk] at hfound
      exact hfound
  create := by
    intro w run runs hinsert _ _ h husable
    obtain ⟨run', hrun', hopened⟩ := h husable
    obtain ⟨hin, hkey⟩ := KeyedTable.find?_eq_some_iff.mp hrun'
    refine ⟨run', KeyedTable.find?_eq_some_iff.mpr ⟨?_, hkey⟩, hopened⟩
    show run' ∈ runs.rows
    rw [(KeyedTable.insert_eq_some hinsert).2]
    exact List.mem_append_left _ hin

theorem runsFree_and {I J : World → Prop} (hI : RunsFree I) (hJ : RunsFree J) :
    RunsFree fun w => I w ∧ J w where
  tick := fun w h => ⟨hI.tick w h.1, hJ.tick w h.2⟩
  abort := fun w h => ⟨hI.abort w h.1, hJ.abort w h.2⟩
  leases := fun f h => ⟨hI.leases f h.1, hJ.leases f h.2⟩
  change := fun hf hu hs h => ⟨hI.change hf hu hs h.1, hJ.change hf hu hs h.2⟩
  create := fun hi ht hc h => ⟨hI.create hi ht hc h.1, hJ.create hi ht hc h.2⟩

/-! ## A tick brings no opened run back -/

section Opened

variable {I : World → Prop} {now : Int}

def OpenedRun (I : World → Prop) (k : SessionKey) (run : DailyWorkflowRun) (w : World) : Prop :=
  (I w ∧ Opened k w) ∧ run.session = k ∧ run.currentState.isOpened

theorem loadedRun_opened :
    Eff.Spec (fun w => I w ∧ Opened k w) (loadedRun k) (OpenedRun I k)
      (fun _ w => I w ∧ Opened k w) := by
  refine loadedRun_spec.weaken (fun _ h => h) (fun run w h => ?_) fun _ _ h => h
  obtain ⟨hw, husable, hfound⟩ := h
  obtain ⟨run', hrun', hopened⟩ := hw.2 husable
  rw [hfound] at hrun'
  obtain rfl := Option.some.inj hrun'
  exact ⟨hw, (KeyedTable.find?_eq_some_iff.mp hfound).2, hopened⟩

theorem getCurrent_opened (hI : RunsFree I) :
    Eff.Spec (fun w => I w ∧ Opened k w) (getCurrent env k)
      (fun found w => ∃ run, found = some run ∧ OpenedRun I k run w)
      (fun _ w => I w ∧ Opened k w) := by
  refine (query_spec (runsFree_and hI (runsFree_opened k)).toCalm).weaken (fun _ h => h)
    (fun found w h => ?_) fun _ _ h => h
  obtain ⟨hw, husable, rfl⟩ := h
  obtain ⟨run, hrun, hopened⟩ := hw.2 husable
  exact ⟨run, hrun, hw, (KeyedTable.find?_eq_some_iff.mp hrun).2, hopened⟩

theorem requireRun_opened (hI : RunsFree I) :
    Eff.Spec (fun w => I w ∧ Opened k w) (requireRun env k) (OpenedRun I k)
      (fun _ w => I w ∧ Opened k w) := by
  refine Eff.Spec.bind (getCurrent_opened hI) fun found => ?_
  intro w hw
  obtain ⟨run, rfl, hrun⟩ := hw
  exact hrun

theorem keeps_whenIn_opened {state : DailyWorkflowState} {p : Prog Unit}
    (hstate : state.isOpened = false) :
    Eff.Keeps (fun w => I w ∧ Opened k w) (whenIn k state p) := by
  refine Eff.Spec.bind loadedRun_opened fun run => Eff.Spec.ite (fun heq => ?_)
    fun _ => Eff.Spec.pure fun w hw => hw.1
  intro w hw
  have hopened := hw.2.2
  rw [heq, hstate] at hopened
  cases hopened

theorem keeps_enterAfterFailedPrep_opened [Casing] (hI : RunsFree I) {reason : String} :
    Eff.Keeps (fun w => I w ∧ Opened k w) (enterIntradayAfterFailedPrep env desk k now reason) := by
  have hboth := runsFree_and hI (runsFree_opened k)
  refine Eff.Keeps.bind keeps_loadedRun fun run => Eff.Keeps.ite Eff.keeps_pure ?_
  refine Eff.Keeps.bind (keeps_editMeta hboth) fun _ => ?_
  refine Eff.Keeps.bind (keeps_sync hboth.toCalm) fun _ => ?_
  refine Eff.Keeps.bind (keeps_whenIn_opened rfl) fun _ => ?_
  refine Eff.Keeps.bind (keeps_whenIn_opened rfl) fun _ => ?_
  refine Eff.Keeps.bind (keeps_whenIn_opened rfl) fun _ => ?_
  exact Eff.Keeps.bind (keeps_requireRun hboth.toCalm) fun _ => Eff.keeps_pure

theorem keeps_catchUpRevalidate_opened [Casing] (hI : RunsFree I) :
    Eff.Keeps (fun w => I w ∧ Opened k w) (catchUpRevalidate env desk k now) := by
  have hboth := runsFree_and hI (runsFree_opened k)
  refine Eff.Spec.bind loadedRun_opened fun run => Eff.Spec.ite (fun heq => ?_) fun _ => ?_
  · intro w hw
    have hopened := hw.2.2
    rw [heq] at hopened
    cases hopened
  · refine Eff.Spec.pre ?_ fun w hw => hw.1
    refine Eff.Keeps.bind (keeps_requireRun hboth.toCalm) fun _ => ?_
    exact Eff.Keeps.bind (keeps_callService hboth.toCalm) fun _ => Eff.keeps_pure

theorem keeps_catchUpSteps_opened [Casing] (hI : RunsFree I) :
    Eff.Keeps (fun w => I w ∧ Opened k w) (catchUpSteps env desk k now) := by
  have hboth := runsFree_and hI (runsFree_opened k)
  refine Eff.Keeps.bind (keeps_editMeta hboth) fun _ => ?_
  refine Eff.Keeps.bind (keeps_sync hboth.toCalm) fun _ => ?_
  refine Eff.Spec.bind loadedRun_opened fun run => Eff.Spec.ite (fun heq => ?_) fun _ => ?_
  · intro w hw
    have hopened := hw.2.2
    rcases heq with heq | heq
    · rw [heq] at hopened
      cases hopened
    · rw [heq] at hopened
      cases hopened
  · exact (keeps_catchUpRevalidate_opened hI).pre fun w hw => hw.1

theorem keeps_catchUpToIntraday_opened [Casing] (hI : RunsFree I) (hk : k.calendarName = desk.calendarName)
    {force : Bool} : Eff.Keeps (fun w => I w ∧ Opened k w)
      (catchUpToIntraday env desk (some k.sessionDate) now force) := by
  have hboth := runsFree_and hI (runsFree_opened k)
  have hfound : Eff.Spec (fun w => I w ∧ Opened k w)
      (currentOrPrepared env desk (some k.sessionDate) now) (OpenedRun I k)
      (fun _ w => I w ∧ Opened k w) := by
    refine Eff.Spec.bind (M := fun k' w => k' = k ∧ I w ∧ Opened k w) ?_ fun k' => ?_
    · refine Eff.Spec.bind (M := fun _ w => I w ∧ Opened k w) (Eff.Spec.read fun _ hw => hw)
        fun w₁ => Eff.Spec.pure fun w hw => ⟨?_, hw⟩
      rw [← hk]
      rfl
    · intro w hw
      obtain ⟨rfl, hw⟩ := hw
      refine (Eff.Spec.bind (getCurrent_opened hI) fun found => ?_ :
        Eff.Spec (fun w => I w ∧ Opened k' w) _ _ _) w hw
      intro w hw
      obtain ⟨run, rfl, hrun⟩ := hw
      exact hrun
  refine Eff.Spec.bind hfound fun run => ?_
  intro w hw
  obtain ⟨hw, rfl, _⟩ := hw
  refine (Eff.Keeps.bind keeps_assertNotBlocked fun _ => ?_ :
    Eff.Keeps (fun w => I w ∧ Opened run.session w) _) w hw
  refine Eff.Keeps.ite (Eff.Keeps.bind (keeps_callService hboth.toCalm) fun _ =>
    Eff.keeps_pure) ?_
  exact Eff.Keeps.ite Eff.keeps_pure (Eff.Keeps.ite Eff.keeps_pure (keeps_catchUpSteps_opened hI))

theorem keeps_reachIntraday_opened [Casing] (hI : RunsFree I) (hk : k.calendarName = desk.calendarName) :
    Eff.Keeps (fun w => I w ∧ Opened k w) (reachIntraday env desk k now) := by
  have hboth := runsFree_and hI (runsFree_opened k)
  refine Eff.Keeps.bind (keeps_exceptWorkflow (keeps_catchUpToIntraday_opened hI hk)
    fun message => ?_) fun reason => ?_
  · refine Eff.Keeps.ite Eff.keeps_throw ?_
    exact Eff.Keeps.bind (keeps_enterAfterFailedPrep_opened hI) fun _ => Eff.keeps_pure
  · refine Eff.Keeps.bind (keeps_requireRun hboth.toCalm) fun run =>
      Eff.Keeps.ite Eff.keeps_pure ?_
    refine Eff.Keeps.ite ?_ Eff.keeps_throw
    refine Eff.Keeps.bind (keeps_enterAfterFailedPrep_opened hI) fun _ => ?_
    refine Eff.Keeps.bind (keeps_requireRun hboth.toCalm) fun run => ?_
    exact Eff.Keeps.ite Eff.keeps_pure Eff.keeps_throw

end Opened

/-! ## What a tick may send -/

def IsEntryPlan (plan : String) : Prop := ENTRY_ACTIONS.any fun act => endsWithPart plan act.value

abbrev NoEntrySent (w₀ w : World) : Prop :=
  SentOnly World.sent (fun plan => ¬ IsEntryPlan plan) w₀ w

theorem runsFree_sentOnly (plans : String → Prop) (w₀ : World) :
    RunsFree (SentOnly World.sent plans w₀) where
  tick := fun _ h => h
  abort := fun _ h => h
  leases := fun _ h => h
  change := fun _ _ _ h => h
  create := fun _ _ _ h => h

def ListsEntry (d : CIODecision) : Prop :=
  ¬ d.portfolioAction.isAnalysisOnly ∧ ∃ plan ∈ d.symbolActions, plan.action.isEntry

variable [Casing]

theorem entry_of_intent {v : ExecutionValidator} {d : CIODecision} {a : ValidateArgs}
    {r : ExecutionValidationResult} (h : validate v d a = .ok r) {x : ValidatedOrderIntent}
    (hx : x ∈ r.intents) (hentry : IsEntryPlan x.idempotencyKey) :
    d.riskApproval = true ∧ ListsEntry d := by
  obtain ⟨plan, hplan, _, seen, _, hissued⟩ := issued_of_validate h hx
  have hact : plan.action.isEntry := hissued.isEntryIntent_iff.mp hentry
  have hskip : (planScope v d a plan).skipEntries = false := by
    by_contra hskip
    exact (entryGate_skip hact).2 (by simpa using hskip) hissued.gate
  refine ⟨?_, fun hposture => ?_, plan, hplan, hact⟩
  · by_contra hrisk
    have hgate := hissued.gate
    unfold entryGate at hgate
    simp only [hact, hskip] at hgate
    split_ifs at hgate <;> simp_all
  · have hskips : skipEntries d a = true := by
      unfold skipEntries
      rw [hposture, Bool.or_true]
    rw [show skipEntries d a = false from hskip] at hskips
    cases hskips

/-- The tick can come to an entry: it is one of the regular session, the committee is called
    during the session, its decisions are submitted, and it wants something new. -/
structure BringsEntry (desk : Desk) (now : Int) : Prop where
  phase : committeeAllowed (desk.calendar.status now)
  agents : desk.cfg.enableIntradayAgentReanalysis
  mode : ∃ n, modeAt desk n = .paperAutomated
  auto : paperAutoSubmitAllowed desk.cfg.toSettings
  decision : ∃ n a m pnls, (desk.committee n).reply = .ok a ∧
    (desk.feed.closePnls m).reply = .ok pnls ∧ a.cio.riskApproval ∧
    ListsEntry (closedTradeFilter pnls a.cio)

theorem keeps_evaluate_noEntry {now : Int} {bypass : Bool}
    (hphase : committeeAllowed (desk.calendar.status now)) (hnone : ¬ BringsEntry desk now) :
    Eff.Keeps (NoEntrySent w₀) (evaluate env desk k bypass) := by
  have hfree := runsFree_sentOnly (fun plan => ¬ IsEntryPlan plan) w₀
  refine keeps_evaluate_of hfree fun henabled m n a runId portfolio u c ha => ?_
  refine Eff.Keeps.ite (Eff.Spec.map ?_) Eff.keeps_pure
  refine keeps_materialize_of hfree.toCalm (fun w f h => h)
    fun controls validation decisionId hbridged =>
      keeps_submitValidated_only submitLog_sent fun x hx hentry => ?_
  obtain ⟨m', pnls, n', args, hpnls, hvalid⟩ := hbridged.validated
  obtain ⟨hrisk, hlists⟩ := entry_of_intent hvalid hx hentry
  have hallowed := hbridged.allowed
  simp only [intradayArgs, Bool.and_eq_true, decide_eq_true_eq] at hallowed
  exact hnone ⟨hphase, henabled, ⟨m, hallowed.1.2⟩, hallowed.2, n, a, m', pnls, ha, hpnls,
    riskApproval_closedTradeFilter.symm.trans hrisk, hlists⟩

theorem keeps_tick_noEntry {trigger : String} {now : Int} (hnone : ¬ BringsEntry desk now) :
    Eff.Keeps (NoEntrySent w₀) (tick env desk k trigger now) := by
  have hfree := runsFree_sentOnly (fun plan => ¬ IsEntryPlan plan) w₀
  have hstations : Eff.Spec (NoEntrySent w₀) (stations env desk k trigger now)
      (fun found w => NoEntrySent w₀ w ∧ ∀ t, found = some t → CommitteeTick desk now t)
      (fun _ => NoEntrySent w₀) :=
    ((keeps_stations hfree.toCalm).and stations_spec).weaken (fun _ h => ⟨h, trivial⟩)
      (fun _ _ h => h) fun _ _ h => h.1
  refine Eff.Spec.bind hstations fun found => Eff.Spec.assume fun hcommittee => ?_
  cases found with
  | none => exact Eff.keeps_pure
  | some t =>
    refine Eff.Keeps.bind (Eff.Spec.ite (fun hcalled => Eff.Spec.map ?_) fun _ => Eff.keeps_pure)
      fun outcome => keeps_closeTick hfree
    simp only [Bool.and_eq_true, decide_eq_true_eq] at hcalled
    exact keeps_evaluate_noEntry (hcommittee t rfl hcalled.1) hnone

def sessionAt (env : Env) (desk : Desk) (sessionDate : Option Int) (w : World) : SessionKey :=
  { sessionDate := sessionDate.getD (desk.calendar.marketDay (env.now w.ticks))
    calendarName := desk.calendarName }

theorem evaluateIntraday_noEntry {sessionDate : Option Int} {trigger : String} {now : Int}
    {w : World} (hopened : Opened (sessionAt env desk sessionDate w) w)
    (hnone : ¬ BringsEntry desk now) :
    NoEntrySent w (evaluateIntraday env desk sessionDate trigger now w).2 := by
  have hfree := runsFree_sentOnly (fun plan => ¬ IsEntryPlan plan) w
  let k := sessionAt env desk sessionDate w
  have hboth := runsFree_and hfree (runsFree_opened k)
  have hopen : Eff.Spec (· = w) (openTick env desk sessionDate now) (fun _ => NoEntrySent w)
      (fun _ => NoEntrySent w) := by
    refine Eff.Spec.bind (M := fun k' w' => k' = k ∧ NoEntrySent w w' ∧ Opened k w') ?_
      fun k' => ?_
    · rintro _ rfl
      exact ⟨rfl, Grown.refl, hopened⟩
    · intro w' hw'
      obtain ⟨rfl, hw'⟩ := hw'
      refine (Eff.Spec.weaken (?_ : Eff.Keeps (fun w' => NoEntrySent w w' ∧ Opened k w') _)
        (fun _ h => h) (fun _ _ h => h.1) fun _ _ h => h.1) w' hw'
      refine Eff.Spec.bind (requireRun_opened hfree) fun run => ?_
      intro w' hw'
      obtain ⟨hw', hsession, _⟩ := hw'
      rw [hsession]
      refine (Eff.Keeps.bind keeps_assertNotBlocked fun _ => ?_ :
        Eff.Keeps (fun w' => NoEntrySent w w' ∧ Opened k w') _) w' hw'
      refine Eff.Keeps.ite Eff.keeps_throw (Eff.Keeps.ite Eff.keeps_pure ?_)
      exact Eff.Keeps.bind (keeps_reachIntraday_opened hfree rfl) fun _ => Eff.keeps_pure
  exact (Eff.Spec.bind hopen fun k' => keeps_tick_noEntry hnone).at_end rfl

/-! ## Runs of calls -/

def DailyWorkflowRun.NoTradeStands (r : DailyWorkflowRun) : Prop :=
  (Dict.get? r.metadata "no_trade_reason").isSome

/-- The call is a tick of a session that has entered the tape and on whose run a reason not to
    trade stands. -/
def TicksNoTrade (env : Env) (w : World) (c : DailyCall) (now : Int) : Prop :=
  ∃ sessionDate trigger, c.op = .evaluateIntraday sessionDate trigger now ∧ ∃ run,
    w.db.working.runs.find? (sessionAt env c.desk sessionDate w) = some run ∧
    run.HasEntered ∧ run.NoTradeStands

/-- No order for an entry is handed to the broker, accepted or not. -/
def KeepsPosture (env : Env) (w : World) (c : DailyCall) : Prop :=
  ∀ now, TicksNoTrade env w c now → ∀ o ∈ sentSince w (c.step env w), ¬ IsEntryPlan o.plan

def BringsNone (env : Env) (w : World) (c : DailyCall) : Prop :=
  ∀ now, TicksNoTrade env w c now → ¬ BringsEntry c.desk now

/-- A daily call whose committee brings no entry keeps the posture. -/
theorem DailyCall.step_keepsPosture {w : World} {c : DailyCall} (hw : OpenedStays w)
    (hc : BringsNone env w c) : KeepsPosture env w c := by
  intro now htick
  have hnone := hc now htick
  obtain ⟨desk, rec, op⟩ := c
  obtain ⟨sessionDate, trigger, rfl, run, hrun, hentered, _⟩ := htick
  have hstays := hw.working run (KeyedTable.find?_eq_some_iff.mp hrun).1
  have hsent : NoEntrySent w (evaluateIntraday env desk sessionDate trigger now w).2 :=
    evaluateIntraday_noEntry (fun _ => ⟨run, hrun, hstays hentered⟩) hnone
  have hend : (DailyCall.step env w ⟨desk, rec, .evaluateIntraday sessionDate trigger now⟩).sent =
      (evaluateIntraday env desk sessionDate trigger now w).2.sent := by
    show ((evaluateIntraday env desk sessionDate trigger now >>= fun _ => pure ()) w).2.sent = _
    cases hend : evaluateIntraday env desk sessionDate trigger now w with
    | mk r w' =>
      cases r with
      | ok a => rw [Eff.bind_of_ok hend]; rfl
      | error e => rw [Eff.bind_of_error hend]
  intro o ho
  refine hsent.new o ?_
  unfold sentSince at ho
  rwa [← hend]

theorem DailyCall.step_openedStays {w : World} {c : DailyCall} (hw : OpenedStays w) :
    OpenedStays (c.step env w) :=
  DailyCall.step_runsAll steady_openedStays hw fun _ _ _ _ h => staysOpened_recoverRun h

/-- **In a run of calls whose ticks of a session in a no-trade posture cannot come to an entry,
    none of them submits an order for one.** By induction on the calls: a run that has entered
    the tape stays opened. -/
theorem calls_keep_posture {calls : List DailyCall} (h₀ : OpenedStays w₀)
    (hcalls : StepsMeet (DailyCall.step env) (BringsNone env) w₀ calls) :
    StepsMeet (DailyCall.step env) (KeepsPosture env) w₀ calls := by
  induction calls generalizing w₀ with
  | nil => trivial
  | cons c calls ih =>
    exact ⟨DailyCall.step_keepsPosture h₀ hcalls.1,
      ih (DailyCall.step_openedStays h₀) hcalls.2⟩

end Posture

/-! ## A purchase in a no-trade session -/

section Purchase

attribute [local instance] asciiCasing

def callDeciding (d : CIODecision) (op : DailyOp) : DailyCall :=
  { callOf op with desk := deskDeciding d }

/-- The revalidation settles on `NO_TRADE` for a hard veto, and the session is entered. -/
def vetoedSession : List DailyCall :=
  [callOf (.prepare (some 0) 0), callOf (.runAnalysis (some 0)),
    callOf (.revalidate (some 0) 0 { noFixture with hardVeto := true })]

def vetoedWorld : World :=
  runFrom (DailyCall.step (acceptingEnv fun _ => false)) emptyWorld vetoedSession

def buyingTick : DailyCall :=
  callDeciding (decisionOf .buy [planOf "AAPL" .buy]) (.evaluateIntraday (some 0) "interval" 3600)

theorem openedStays_emptyWorld : OpenedStays emptyWorld where
  working := fun r hr => by cases hr
  committed := fun r hr => by cases hr

/-- A committee that holds brings no entry. -/
theorem calls_keep_posture_holding :
    StepsMeet (DailyCall.step (acceptingEnv fun _ => false))
      (KeepsPosture (acceptingEnv fun _ => false)) emptyWorld
      (vetoedSession ++ [callOf (.evaluateIntraday (some 0) "interval" 3600)]) := by
  refine calls_keep_posture openedStays_emptyWorld ⟨?_, ?_, ?_, ?_, trivial⟩
  · rintro now ⟨_, _, hop, _⟩
    cases hop
  · rintro now ⟨_, _, hop, _⟩
    cases hop
  · rintro now ⟨_, _, hop, _⟩
    cases hop
  · intro now _ hbrings
    obtain ⟨n, a, m, pnls, ha, hpnls, _, _, plan, hplan, _⟩ := hbrings.decision
    cases ha
    cases hpnls
    cases hplan

/-- The broker is handed an order for an entry, with the reason not to trade on the run. -/
theorem vetoed_session_buys :
    OpenedStays emptyWorld ∧ ¬ StepsMeet (DailyCall.step (acceptingEnv fun _ => false))
      (KeepsPosture (acceptingEnv fun _ => false)) emptyWorld (vetoedSession ++ [buyingTick]) := by
  refine ⟨openedStays_emptyWorld, fun hcalls => ?_⟩
  have hkeeps : KeepsPosture (acceptingEnv fun _ => false) vetoedWorld buyingTick :=
    (StepsMeet.append_iff.mp hcalls).2.1
  have hrun : (vetoedWorld.db.working.runs.find? newYork).any (fun run =>
      run.transitions.any (fun t => t.toState = .intraday) &&
        (Dict.get? run.metadata "no_trade_reason").isSome) = true := by
    decide +kernel
  have hsent : (sentSince vetoedWorld (buyingTick.step (acceptingEnv fun _ => false)
      vetoedWorld)).any (fun o => ENTRY_ACTIONS.any fun act => endsWithPart o.plan act.value) =
        true := by
    decide +kernel
  obtain ⟨o, ho, hentry⟩ := List.any_eq_true.mp hsent
  refine hkeeps 3600 ⟨some 0, "interval", rfl, ?_⟩ o ho hentry
  cases hfound : vetoedWorld.db.working.runs.find? newYork with
  | none => rw [hfound] at hrun; cases hrun
  | some run =>
    rw [hfound, Option.any_some, Bool.and_eq_true] at hrun
    obtain ⟨t, ht, hto⟩ := List.any_eq_true.mp hrun.1
    exact ⟨run, hfound, ⟨t, ht, by simpa using hto⟩, hrun.2⟩

end Purchase

end Investor.Workflow
