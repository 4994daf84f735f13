import Investor.Workflow.Steady

/-!
# Every operation is steady

One lemma for each operation of the daily workflow, in the order they are defined: an assertion
that is `Steady` holds after the operation if it held before, however the operation ended. The
changes of state are all to states that are entered, and each lemma is the program of its
operation read from top to bottom.
-/

namespace Investor.Workflow

open Lib Schema Market Risk Core Execution Intraday

section Kept

variable {env : Env} {desk : Desk} {I : World → Prop}

theorem keeps_bridge [Casing] (hI : Steady I) {d : CIODecision} {a : MaterializeArgs} :
    Eff.Keeps I (materializeCioDecision env desk.cfg.toSettings desk.feed d a) :=
  keeps_materialize hI.toCalm hI.intents hI.submits

theorem keeps_exceptWorkflow {α : Type} {p : Prog α} {handler : String → Prog α}
    (hp : Eff.Keeps I p) (hh : ∀ message, Eff.Keeps I (handler message)) :
    Eff.Keeps I (exceptWorkflow p handler) := by
  refine Eff.Keeps.tryCatch hp fun e => ?_
  cases e with
  | workflow message => exact hh message
  | cancelled => exact Eff.keeps_throw
  | timeout => exact Eff.keeps_throw
  | broker message => exact Eff.keeps_throw
  | other message => exact Eff.keeps_throw

/-! ## Preparation -/

variable {day : Option Int}

theorem keeps_sessionOf : Eff.Keeps I (sessionOf env desk day) :=
  Eff.Keeps.bind Eff.keeps_read fun _ => Eff.keeps_pure

variable {k : SessionKey}

theorem keeps_planSession (hI : RunsFree I) : Eff.Keeps I (planSession env desk k) :=
  Eff.Keeps.bind (keeps_callService hI.toCalm) fun _ =>
    Eff.Keeps.bind (keeps_editMeta hI) fun _ => keeps_sync hI.toCalm

theorem addRun_spec (hI : RunsFree I) {run : DailyWorkflowRun} (hrows : run.transitions = [])
    (hstate : run.currentState = run.createdAs) :
    Eff.Spec I (addRun env run)
      (fun _ w => I w ∧ Stands run.session run.currentState w) (fun _ => I) := by
  refine Eff.Spec.bind (M := fun w₀ w => I w ∧ w₀ = w) (Eff.Spec.read fun w hw => ⟨hw, rfl⟩)
    fun w₀ => ?_
  cases hinsert : w₀.db.working.runs.insert run with
  | none =>
    exact Eff.Spec.bind (M := fun _ => I) (Eff.Spec.edit fun w hw => hI.abort w hw.1)
      fun _ => Eff.Spec.throw fun w hw => hw
  | some runs =>
    -- the table the run is inserted in is the one that was read
    have hcalm : Calm fun w => I w ∧ (w.db.broken = false → w.db = w₀.db) :=
      ⟨fun w h => ⟨hI.tick w h.1, h.2⟩,
        fun w h => ⟨hI.abort w h.1, fun hb => absurd hb (by simp)⟩⟩
    refine (flushWith_spec hcalm).weaken ?_ ?_ fun _ _ h => h.1
    · intro w hw
      obtain ⟨hw, rfl⟩ := hw
      exact ⟨hw, fun _ => rfl⟩
    · intro _ w' hw'
      obtain ⟨w, ⟨hw, hsame⟩, husable, rfl⟩ := hw'
      refine ⟨hI.create ?_ hrows hstate hw, fun _ => ⟨run, ?_, rfl⟩⟩
      · rw [hsame husable]
        exact hinsert
      · refine KeyedTable.find?_eq_some_iff.mpr ⟨?_, rfl⟩
        show run ∈ runs.rows
        rw [(KeyedTable.insert_eq_some hinsert).2]
        exact List.mem_append_right _ (List.mem_singleton.mpr rfl)

theorem keeps_createRun (hI : RunsFree I) : Eff.Keeps I (createRun env desk k) := by
  refine Eff.Keeps.bind Eff.keeps_read fun w => Eff.Spec.ite (fun _ => ?_) fun _ => ?_
  · exact Eff.Spec.bind (addRun_spec hI rfl rfl) fun _ =>
      (keeps_planSession hI).pre fun w hw => hw.1
  · refine Eff.Spec.bind (addRun_spec hI rfl rfl) fun _ => ?_
    exact transition_then hI (fun r => { r with currentState := .completed }) (fun _ => rfl)
      (show Allowed .nonTradingDay .completed by decide) rfl (fun r => ⟨rfl, rfl, rfl⟩)
      Eff.keeps_pure

variable {now : Int}

theorem keeps_prepare (hI : RunsFree I) : Eff.Keeps I (prepare env desk day now) := by
  refine Eff.Keeps.bind (keeps_underLease hI.toLeasesFree ?_) fun _ => Eff.keeps_pure
  refine Eff.Keeps.bind Eff.keeps_read fun w => Eff.Keeps.ite Eff.keeps_throw ?_
  refine Eff.Keeps.bind (keeps_getCurrent hI.toCalm) fun existing => ?_
  cases existing with
  | none => exact keeps_createRun hI
  | some run => exact Eff.keeps_pure

/-! ## Analysis and revalidation -/

theorem keeps_startAnalysis (hI : RunsFree I) : Eff.Keeps I (startAnalysis env k) := by
  refine Eff.Keeps.bind keeps_loadedRun fun run => ?_
  cases run.currentState with
  | premarketPreparation => exact keeps_setState hI rfl
  | premarketAnalysis => exact Eff.keeps_pure
  | preopenRevalidation => exact Eff.keeps_pure
  | _ => exact Eff.keeps_throw

theorem keeps_decideAndTrade [Casing] (hI : Steady I) {runId : String} :
    Eff.Keeps I (decideAndTrade env desk k runId) := by
  refine Eff.Keeps.bind (keeps_startAnalysis hI.toRunsFree) fun _ => Eff.Keeps.ite Eff.keeps_throw ?_
  refine Eff.Keeps.bind (Keeps.exceptException (keeps_callService hI.toCalm)
    fun _ => Eff.keeps_throw) fun portfolio => ?_
  refine Eff.Keeps.bind (keeps_callService hI.toCalm) fun u => ?_
  refine Eff.Keeps.bind (keeps_callService hI.toCalm) fun c => ?_
  refine Eff.Keeps.bind (keeps_editMeta hI.toRunsFree) fun _ => ?_
  refine Eff.Keeps.bind (keeps_callService hI.toCalm) fun a => ?_
  refine Eff.Keeps.bind (keeps_callService hI.toCalm) fun _ => ?_
  exact Eff.Keeps.bind (keeps_bridge hI) fun r => Eff.keeps_pure

theorem keeps_closeAnalysis (hI : RunsFree I) {d : Decided} :
    Eff.Keeps I (closeAnalysis env desk k d) :=
  Eff.Keeps.bind (keeps_assignRun hI fun _ => ⟨rfl, rfl, rfl⟩) fun _ => keeps_setState hI rfl

theorem keeps_runAnalysis [Casing] (hI : Steady I) : Eff.Keeps I (runAnalysis env desk k) := by
  refine Eff.Keeps.bind (keeps_requireRun hI.toCalm) fun run => ?_
  refine Eff.Keeps.bind keeps_assertNotBlocked fun _ => keeps_underLease hI.toLeasesFree ?_
  exact Eff.Keeps.bind (keeps_decideAndTrade hI) fun d => keeps_closeAnalysis hI.toRunsFree

variable {trigger : String}

theorem keeps_enterTape (hI : RunsFree I) {opened entered : String} :
    Eff.Keeps I (enterTape env k trigger opened entered) :=
  Eff.Keeps.bind (keeps_setState hI rfl) fun _ => keeps_setState hI rfl

theorem keeps_enterUnresolved (hI : RunsFree I) {report : RevalidationReport} :
    Eff.Keeps I (enterUnresolved env k report) :=
  Eff.Keeps.bind (keeps_editMeta hI) fun _ => keeps_enterTape hI

theorem keeps_settleReport (hI : RunsFree I) {report : RevalidationReport} :
    Eff.Keeps I (settleReport env k report) := by
  unfold settleReport
  cases report.result with
  | valid => exact keeps_enterTape hI
  | validWithRestrictions => exact keeps_enterTape hI
  | noTrade => exact Eff.Keeps.bind (keeps_editMeta hI) fun _ => keeps_enterTape hI
  | reanalysisRequired => exact keeps_setState hI rfl
  | failed => exact keeps_setState hI rfl

theorem keeps_markReanalysisIncorporated (hI : RunsFree I) :
    Eff.Keeps I (markReanalysisIncorporated env k now) := by
  refine Eff.Keeps.bind keeps_loadedRun fun run => Eff.Keeps.ite ?_ Eff.keeps_pure
  exact Eff.Keeps.bind (keeps_editMeta hI) fun _ => keeps_sync hI.toCalm

theorem keeps_reportOf (hI : RunsFree I) {fixture : RevalidationFixture} :
    Eff.Keeps I (reportOf env desk k now fixture) := by
  refine Eff.Keeps.bind (keeps_requireRun hI.toCalm) fun run => ?_
  refine Eff.Keeps.bind keeps_assertNotBlocked fun _ => Eff.Keeps.ite Eff.keeps_throw ?_
  refine Eff.Keeps.bind (keeps_assignRun hI fun _ => ⟨rfl, rfl, rfl⟩) fun _ => ?_
  exact Eff.Keeps.bind (keeps_sync hI.toCalm) fun _ => Eff.keeps_pure

section

variable [Casing]

theorem keeps_revalidateFrom (hI : Steady I) :
    ∀ (left : ℕ) (fixture : RevalidationFixture),
      Eff.Keeps I (revalidateFrom env desk k now left fixture) := by
  intro left
  induction left with
  | zero =>
    intro fixture
    refine Eff.Keeps.bind (keeps_reportOf hI.toRunsFree) fun report => ?_
    exact Eff.Keeps.ite (keeps_enterUnresolved hI.toRunsFree) (keeps_settleReport hI.toRunsFree)
  | succ left ih =>
    intro fixture
    refine Eff.Keeps.bind (keeps_reportOf hI.toRunsFree) fun report => ?_
    refine Eff.Keeps.ite (Eff.Keeps.ite (keeps_enterUnresolved hI.toRunsFree) ?_) (keeps_settleReport hI.toRunsFree)
    refine Eff.Keeps.bind (keeps_setState hI.toRunsFree rfl) fun _ => ?_
    refine Eff.Keeps.bind (keeps_runAnalysis hI) fun _ => ?_
    exact Eff.Keeps.bind (keeps_markReanalysisIncorporated hI.toRunsFree) fun _ => ih noFixture

theorem keeps_revalidate (hI : Steady I) {fixture : RevalidationFixture} :
    Eff.Keeps I (revalidate env desk k now fixture) :=
  keeps_revalidateFrom hI 2 fixture

/-! ## Catching up -/

theorem keeps_enterIntradayAfterFailedPrep (hI : Steady I) {reason : String} :
    Eff.Keeps I (enterIntradayAfterFailedPrep env desk k now reason) := by
  refine Eff.Keeps.bind keeps_loadedRun fun run => Eff.Keeps.ite Eff.keeps_pure ?_
  refine Eff.Keeps.bind (keeps_editMeta hI.toRunsFree) fun _ => ?_
  refine Eff.Keeps.bind (keeps_sync hI.toCalm) fun _ => ?_
  refine Eff.Keeps.bind (keeps_whenIn (keeps_setState hI.toRunsFree rfl)) fun _ => ?_
  refine Eff.Keeps.bind (keeps_whenIn (keeps_setState hI.toRunsFree rfl)) fun _ => ?_
  refine Eff.Keeps.bind (keeps_whenIn (keeps_revalidate hI)) fun _ => ?_
  exact Eff.Keeps.bind (keeps_requireRun hI.toCalm) fun _ => Eff.keeps_pure

theorem keeps_catchUpRevalidate (hI : Steady I) :
    Eff.Keeps I (catchUpRevalidate env desk k now) := by
  refine Eff.Keeps.bind keeps_loadedRun fun run => Eff.Keeps.ite ?_ ?_
  · refine Eff.Keeps.bind (keeps_revalidate hI) fun _ => ?_
    exact Eff.Keeps.bind (keeps_callService hI.toCalm) fun _ => Eff.keeps_pure
  · refine Eff.Keeps.bind (keeps_requireRun hI.toCalm) fun _ => ?_
    exact Eff.Keeps.bind (keeps_callService hI.toCalm) fun _ => Eff.keeps_pure

theorem keeps_catchUpSteps (hI : Steady I) : Eff.Keeps I (catchUpSteps env desk k now) := by
  refine Eff.Keeps.bind (keeps_editMeta hI.toRunsFree) fun _ => ?_
  refine Eff.Keeps.bind (keeps_sync hI.toCalm) fun _ => ?_
  refine Eff.Keeps.bind keeps_loadedRun fun run => ?_
  refine Eff.Keeps.ite ?_ (keeps_catchUpRevalidate hI)
  refine Eff.Keeps.bind (keeps_exceptWorkflow ?_ fun message => ?_) fun failed =>
    Eff.Keeps.ite Eff.keeps_pure (keeps_catchUpRevalidate hI)
  · refine Eff.Keeps.bind (keeps_runAnalysis hI) fun _ => ?_
    exact Eff.Keeps.bind (keeps_requireRun hI.toCalm) fun _ => Eff.keeps_pure
  · refine Eff.Keeps.ite Eff.keeps_throw ?_
    refine Eff.Keeps.bind (keeps_enterIntradayAfterFailedPrep hI) fun _ => ?_
    exact Eff.Keeps.bind (keeps_callService hI.toCalm) fun _ => Eff.keeps_pure

theorem keeps_catchUpToIntraday (hI : Steady I) {force : Bool} :
    Eff.Keeps I (catchUpToIntraday env desk day now force) := by
  refine Eff.Keeps.bind ?_ fun run => ?_
  · refine Eff.Keeps.bind keeps_sessionOf fun k => ?_
    refine Eff.Keeps.bind (keeps_getCurrent hI.toCalm) fun found => ?_
    cases found with
    | some run => exact Eff.keeps_pure
    | none =>
      exact Eff.Keeps.bind (keeps_prepare hI.toRunsFree) fun k' => keeps_requireRun hI.toCalm
  · refine Eff.Keeps.bind keeps_assertNotBlocked fun _ => Eff.Keeps.ite ?_ ?_
    · exact Eff.Keeps.bind (keeps_callService hI.toCalm) fun _ => Eff.keeps_pure
    · exact Eff.Keeps.ite Eff.keeps_pure (Eff.Keeps.ite Eff.keeps_pure (keeps_catchUpSteps hI))

end

/-! ## The committee -/

theorem keeps_riskPortfolio (hI : Calm I) : Eff.Keeps I (riskPortfolio env desk) := by
  refine Eff.Keeps.bind (keeps_callService hI) fun port => ?_
  refine Eff.Keeps.bind Eff.keeps_read fun w => Eff.Keeps.ite ?_ Eff.keeps_pure
  refine Keeps.exceptException ?_ fun _ => Eff.keeps_pure
  refine Eff.Keeps.bind (keeps_callService hI) fun _ => ?_
  exact Eff.Keeps.bind (keeps_callService hI) fun _ => Eff.keeps_pure

section

variable [Casing]

theorem keeps_materializeIntraday (hI : Steady I) {mode : IntradayOperationMode}
    {cio : CIODecision} {a : MaterializeArgs} :
    Eff.Keeps I (materializeIntraday env desk mode cio a) :=
  Eff.Keeps.ite (Eff.Spec.map (keeps_bridge hI)) Eff.keeps_pure

theorem keeps_decideIntraday (hI : Calm I) {mode : IntradayOperationMode} {budget : ReanalysisState}
    {openSymbols : List String} {runId : String} {portfolio : PortfolioRiskView}
    (hmeta : ∀ f, Eff.Keeps I (editMeta k f))
    (hbridge : ∀ n a u c, (desk.committee n).reply = .ok a →
      Eff.Keeps I (materializeIntraday env desk mode a.cio
        (intradayArgs mode runId portfolio u c))) :
    Eff.Keeps I (decideIntraday env desk k mode budget openSymbols runId portfolio) := by
  refine Eff.Keeps.bind (keeps_callService hI) fun u => ?_
  refine Eff.Keeps.bind (keeps_callService hI) fun c => ?_
  refine Eff.Spec.bind (callService_spec hI) fun a => Eff.Spec.assume fun hanswer => ?_
  obtain ⟨n, hanswer⟩ := hanswer
  refine Eff.Keeps.bind (keeps_callService hI) fun _ => ?_
  refine Eff.Keeps.bind (hbridge n a u c hanswer) fun execution => ?_
  refine Eff.Keeps.bind Eff.keeps_read fun w => ?_
  refine Eff.Keeps.bind (hmeta _) fun _ => ?_
  exact Eff.Keeps.bind (keeps_sync hI) fun _ => Eff.keeps_pure

def modeAt (desk : Desk) (n : ℕ) : IntradayOperationMode :=
  resolveMode desk.cfg (desk.feed.controls n).state

variable {bypass : Bool}

theorem keeps_evaluate_calm (hI : Calm I) (hmeta : ∀ f, Eff.Keeps I (editMeta k f))
    (hbridge : desk.cfg.enableIntradayAgentReanalysis → ∀ m n a runId portfolio u c,
      (desk.committee n).reply = .ok a → Eff.Keeps I (materializeIntraday env desk
        (modeAt desk m) a.cio (intradayArgs (modeAt desk m) runId portfolio u c))) :
    Eff.Keeps I (evaluate env desk k bypass) := by
  refine Eff.Keeps.bind Eff.keeps_read fun w => Eff.Keeps.ite Eff.keeps_pure ?_
  refine Eff.Spec.ite (fun _ => Eff.keeps_pure) fun henabled => ?_
  have henabled : desk.cfg.enableIntradayAgentReanalysis := by simpa using henabled
  refine Eff.Keeps.bind keeps_loadedRun fun run => ?_
  refine Eff.Keeps.bind (keeps_callService hI) fun openSymbols => ?_
  refine Eff.Keeps.bind (Keeps.exceptException (keeps_callService hI)
    fun _ => Eff.keeps_pure) fun horizons => Eff.Keeps.bind Eff.keeps_read fun w => ?_
  split
  · exact Eff.keeps_pure
  · refine Eff.Keeps.bind (keeps_sync hI) fun _ => Keeps.exceptException ?_ fun e =>
      Eff.Keeps.bind (keeps_sync hI) fun _ => Eff.keeps_pure
    refine Eff.Keeps.bind (keeps_riskPortfolio hI) fun portfolio => ?_
    cases portfolio with
    | none => exact Eff.Keeps.bind (keeps_sync hI) fun _ => Eff.keeps_pure
    | some portfolio =>
      exact keeps_decideIntraday hI hmeta fun n a u c => hbridge henabled _ n a _ _ u c

theorem keeps_evaluate_of (hI : RunsFree I)
    (hbridge : desk.cfg.enableIntradayAgentReanalysis → ∀ m n a runId portfolio u c,
      (desk.committee n).reply = .ok a → Eff.Keeps I (materializeIntraday env desk
        (modeAt desk m) a.cio (intradayArgs (modeAt desk m) runId portfolio u c))) :
    Eff.Keeps I (evaluate env desk k bypass) :=
  keeps_evaluate_calm hI.toCalm (fun _ => keeps_editMeta hI) hbridge

theorem keeps_evaluate (hI : Steady I) : Eff.Keeps I (evaluate env desk k bypass) :=
  keeps_evaluate_of hI.toRunsFree fun _ _ _ _ _ _ _ _ _ => keeps_materializeIntraday hI

/-! ## The tick -/

theorem keeps_reachIntraday (hI : Steady I) : Eff.Keeps I (reachIntraday env desk k now) := by
  refine Eff.Keeps.bind (keeps_exceptWorkflow (keeps_catchUpToIntraday hI) fun message => ?_)
    fun reason => ?_
  · refine Eff.Keeps.ite Eff.keeps_throw ?_
    exact Eff.Keeps.bind (keeps_enterIntradayAfterFailedPrep hI) fun _ => Eff.keeps_pure
  · refine Eff.Keeps.bind (keeps_requireRun hI.toCalm) fun run => Eff.Keeps.ite Eff.keeps_pure ?_
    refine Eff.Keeps.ite ?_ Eff.keeps_throw
    refine Eff.Keeps.bind (keeps_enterIntradayAfterFailedPrep hI) fun _ => ?_
    refine Eff.Keeps.bind (keeps_requireRun hI.toCalm) fun run => ?_
    exact Eff.Keeps.ite Eff.keeps_pure Eff.keeps_throw

theorem keeps_openTick (hI : Steady I) : Eff.Keeps I (openTick env desk day now) := by
  refine Eff.Keeps.bind keeps_sessionOf fun k => ?_
  refine Eff.Keeps.bind (keeps_requireRun hI.toCalm) fun run => ?_
  refine Eff.Keeps.bind keeps_assertNotBlocked fun _ => Eff.Keeps.ite Eff.keeps_throw ?_
  refine Eff.Keeps.ite Eff.keeps_pure ?_
  exact Eff.Keeps.bind (keeps_reachIntraday hI) fun _ => Eff.keeps_pure

end

theorem keeps_noted (hI : Calm I) {α β : Type} {answer : Nat → ServiceAnswer α}
    {noted : α → Prog β} {handler : Fault → Prog β} (hnoted : ∀ a, Eff.Keeps I (noted a))
    (hh : ∀ e, Eff.Keeps I (handler e)) :
    Eff.Keeps I (exceptException (callService env answer >>= noted) handler) :=
  Keeps.exceptException (Eff.Keeps.bind (keeps_callService hI) hnoted) hh

theorem keeps_monitorStation (hI : Calm I) {m : Dict Json} :
    Eff.Keeps I (monitorStation env desk m) := by
  refine Eff.Keeps.ite ?_ (keeps_noted hI (fun _ => Eff.keeps_pure) fun _ => Eff.keeps_pure)
  refine Eff.Keeps.bind (keeps_noted hI (fun _ => Eff.keeps_pure) fun _ => Eff.keeps_pure)
    fun priced => ?_
  exact keeps_noted hI (fun _ => Eff.keeps_pure) fun _ => Eff.keeps_pure

theorem keeps_withinGap (hI : Calm I) {status : MarketStatus} {m : Dict Json} :
    Eff.Keeps I (withinGap env desk status now trigger m) := by
  unfold withinGap
  cases stamp? (Dict.at m "last_intraday_eval_at") with
  | none => exact Eff.keeps_pure
  | some last => exact Eff.Keeps.bind (keeps_callService hI) fun _ => Eff.keeps_pure

theorem keeps_stations (hI : Calm I) : Eff.Keeps I (stations env desk k trigger now) := by
  refine Eff.Keeps.bind keeps_loadedRun fun run => ?_
  refine Eff.Keeps.bind (keeps_noted hI (fun _ => Eff.keeps_pure) fun _ => Eff.keeps_pure)
    fun m => ?_
  refine Eff.Keeps.bind (keeps_noted hI (fun _ => Eff.keeps_pure) fun _ => Eff.keeps_pure)
    fun news => ?_
  refine Eff.Keeps.bind (keeps_monitorStation hI) fun mon => ?_
  refine Eff.Keeps.bind (Eff.Keeps.ite (keeps_noted hI (fun _ => Eff.keeps_pure)
    fun _ => Eff.keeps_pure) Eff.keeps_pure) fun m => ?_
  refine Eff.Keeps.bind (keeps_withinGap hI) fun early => Eff.Keeps.ite Eff.keeps_pure ?_
  exact Eff.Keeps.bind keeps_loadedRun fun run => Eff.keeps_pure

variable {t : TickNotes}

theorem keeps_committeeStation [Casing] (hI : Steady I) :
    Eff.Keeps I (committeeStation env desk k t) :=
  Eff.Keeps.ite (Eff.Spec.map (keeps_evaluate hI)) Eff.keeps_pure

theorem keeps_afterCommittee (hI : RunsFree I) {outcome : Option AgentOutcome} :
    Eff.Keeps I (afterCommittee env desk k t outcome) := by
  have hcount : ∀ o, Eff.Keeps I (countReanalysis env desk k t o) := fun o => by
    refine Eff.Keeps.bind (keeps_assignRun hI fun _ => ⟨rfl, rfl, rfl⟩) fun _ => ?_
    exact Eff.Keeps.bind (Keeps.exceptException (keeps_callService hI.toCalm)
      fun _ => Eff.keeps_pure) fun _ => Eff.keeps_pure
  unfold afterCommittee
  split
  · exact Eff.keeps_pure
  · exact Eff.keeps_pure
  · exact hcount _

theorem keeps_closeTick (hI : RunsFree I) {outcome : Option AgentOutcome} :
    Eff.Keeps I (closeTick env desk k now t outcome) := by
  refine Eff.Keeps.bind (keeps_afterCommittee hI) fun t => ?_
  refine Eff.Keeps.bind (Eff.Keeps.ite (keeps_noted hI.toCalm (fun _ => Eff.keeps_pure)
    fun _ => Eff.keeps_pure) Eff.keeps_pure) fun t => Eff.Keeps.bind ?_ fun _ => Eff.keeps_pure
  refine Eff.Keeps.bind (keeps_assignRun hI fun _ => ⟨rfl, rfl, rfl⟩) fun _ => ?_
  exact Eff.Keeps.bind (keeps_whenIn (keeps_setState hI rfl)) fun _ => keeps_sync hI.toCalm

theorem keeps_tick [Casing] (hI : Steady I) : Eff.Keeps I (tick env desk k trigger now) := by
  refine Eff.Keeps.bind (keeps_stations hI.toCalm) fun found => ?_
  cases found with
  | none => exact Eff.keeps_pure
  | some t => exact Eff.Keeps.bind (keeps_committeeStation hI) fun _ => keeps_closeTick hI.toRunsFree

theorem keeps_evaluateIntraday [Casing] (hI : Steady I) :
    Eff.Keeps I (evaluateIntraday env desk day trigger now) :=
  Eff.Keeps.bind (keeps_openTick hI) fun _ => keeps_tick hI

/-! ## The end of the session -/

theorem keeps_startClosing (hI : RunsFree I) : Eff.Keeps I (startClosing env desk day) := by
  refine Eff.Keeps.bind keeps_sessionOf fun k => ?_
  refine Eff.Keeps.bind (keeps_requireRun hI.toCalm) fun run => ?_
  refine Eff.Keeps.bind keeps_assertNotBlocked fun _ => Eff.Keeps.ite ?_ Eff.keeps_throw
  refine Eff.Keeps.bind (Eff.Keeps.bind keeps_loadedRun fun run =>
    Eff.Keeps.ite Eff.keeps_pure (keeps_setState hI rfl)) fun _ => ?_
  refine Eff.Keeps.bind (keeps_callService hI.toCalm) fun closed => ?_
  refine Eff.Keeps.bind (Keeps.exceptException (keeps_callService hI.toCalm)
    fun _ => Eff.keeps_pure) fun overnight => ?_
  exact Eff.Keeps.bind (keeps_editMeta hI) fun _ => keeps_sync hI.toCalm

theorem keeps_retryMissedSessionExits (hI : RunsFree I) :
    Eff.Keeps I (retryMissedSessionExits env desk now day) := by
  refine Eff.Keeps.bind (keeps_getCurrent hI.toCalm) fun found => ?_
  cases found with
  | none => exact Eff.keeps_pure
  | some run =>
    refine Eff.Keeps.ite Eff.keeps_pure (Eff.Keeps.ite Eff.keeps_pure
      (Eff.Keeps.ite Eff.keeps_pure ?_))
    refine Eff.Keeps.bind (keeps_callService hI.toCalm) fun held => Eff.Keeps.ite Eff.keeps_pure ?_
    refine Eff.Keeps.bind (keeps_callService hI.toCalm) fun _ => ?_
    refine Eff.Keeps.bind (keeps_callService hI.toCalm) fun closed => ?_
    exact Eff.Keeps.bind (keeps_assignRun hI fun _ => ⟨rfl, rfl, rfl⟩) fun _ =>
      keeps_sync hI.toCalm

theorem keeps_reviewSteps (hI : Calm I) :
    ∀ (keys : List String) (review : Dict Json), Eff.Keeps I (reviewSteps env desk keys review) := by
  intro keys
  induction keys with
  | nil => exact fun review => Eff.keeps_pure
  | cons key keys ih =>
    intro review
    exact Eff.Keeps.bind (keeps_noted hI (fun _ => Eff.keeps_pure) fun _ => Eff.keeps_pure)
      fun review => ih review

theorem keeps_postmarketOf (hI : RunsFree I) : Eff.Keeps I (postmarketOf env desk k now) := by
  refine Eff.Keeps.bind (keeps_requireRun hI.toCalm) fun run => ?_
  refine Eff.Keeps.bind keeps_assertNotBlocked fun _ => ?_
  refine Eff.Keeps.bind (Eff.Keeps.bind (keeps_whenIn (keeps_setState hI rfl)) fun _ =>
    keeps_whenIn (keeps_setState hI rfl)) fun _ => ?_
  refine Eff.Keeps.bind keeps_loadedRun fun run => Eff.Keeps.ite Eff.keeps_throw ?_
  refine Eff.Keeps.bind (keeps_reviewSteps hI.toCalm _ _) fun review => ?_
  refine Eff.Keeps.bind (keeps_editMeta hI) fun _ => ?_
  refine Eff.Keeps.bind (keeps_setState hI rfl) fun _ => ?_
  refine Eff.Keeps.bind (keeps_assignRun hI fun _ => ⟨rfl, rfl, rfl⟩) fun _ => ?_
  refine Eff.Keeps.bind (keeps_callService hI.toCalm) fun _ => ?_
  exact Eff.Keeps.bind (keeps_editMeta hI) fun _ => keeps_sync hI.toCalm

theorem keeps_retryPostmarketOne (hI : RunsFree I) {day : Int} :
    Eff.Keeps I (retryPostmarketOne env desk now day) := by
  refine Eff.Keeps.bind (keeps_getCurrent hI.toCalm) fun found => ?_
  cases found with
  | none => exact Eff.keeps_pure
  | some run =>
    refine Eff.Keeps.ite Eff.keeps_pure (Eff.Keeps.ite Eff.keeps_pure
      (Eff.Keeps.ite Eff.keeps_pure ?_))
    refine Eff.Keeps.bind (keeps_editMeta hI) fun _ => ?_
    refine Eff.Keeps.bind (keeps_sync hI.toCalm) fun _ => ?_
    refine Eff.Keeps.bind (keeps_postmarketOf hI) fun _ => ?_
    exact Eff.Keeps.bind (keeps_callService hI.toCalm) fun _ => Eff.keeps_pure

theorem keeps_retryIncompletePostmarket (hI : RunsFree I) :
    Eff.Keeps I (retryIncompletePostmarket env desk now day) := by
  cases day with
  | some day =>
    exact Eff.Keeps.bind (keeps_retryPostmarketOne hI) fun _ => Eff.keeps_pure
  | none =>
    refine Eff.Keeps.bind (keeps_retryPostmarketOne hI) fun done =>
      Eff.Keeps.ite Eff.keeps_pure ?_
    exact Eff.Keeps.bind (keeps_retryPostmarketOne hI) fun _ => Eff.keeps_pure

theorem keeps_runPostmarketEval (hI : RunsFree I) :
    Eff.Keeps I (runPostmarketEval env desk day now) := by
  refine Eff.Keeps.bind keeps_sessionOf fun k => ?_
  refine Eff.Keeps.bind (keeps_requireRun hI.toCalm) fun run => ?_
  refine Eff.Keeps.bind keeps_assertNotBlocked fun _ => Eff.Keeps.ite ?_ ?_
  · exact Eff.Keeps.bind (keeps_editMeta hI) fun _ => keeps_sync hI.toCalm
  · refine Eff.Keeps.bind (keeps_callService hI.toCalm) fun payload => ?_
    exact Eff.Keeps.bind (keeps_editMeta hI) fun _ => keeps_sync hI.toCalm

/-! ## The job plan -/

theorem keeps_replanRun (hI : RunsFree I) : Eff.Keeps I (replanRun env desk k now) := by
  refine Eff.Keeps.ite Eff.keeps_pure ?_
  refine Eff.Keeps.bind (keeps_callService hI.toCalm) fun _ => ?_
  refine Eff.Keeps.bind (keeps_planSession hI) fun _ => ?_
  exact Eff.Keeps.bind (keeps_editMeta hI) fun _ => keeps_sync hI.toCalm

theorem keeps_replanIntradayJobs (hI : RunsFree I) :
    Eff.Keeps I (replanIntradayJobs env desk day now) := by
  refine Eff.Keeps.bind keeps_sessionOf fun k => ?_
  refine Eff.Keeps.bind (keeps_getCurrent hI.toCalm) fun found => ?_
  cases found with
  | none => exact Eff.keeps_pure
  | some run => exact keeps_replanRun hI

theorem keeps_alignSession (hI : RunsFree I) {day : Int} :
    Eff.Keeps I (alignSession env desk day now) := by
  refine Eff.Keeps.bind (keeps_getCurrent hI.toCalm) fun found => ?_
  cases found with
  | none => exact Eff.keeps_pure
  | some run =>
    exact Eff.Keeps.bind (keeps_callService hI.toCalm) fun misaligned =>
      Eff.Keeps.ite (keeps_replanRun hI) Eff.keeps_pure

theorem keeps_alignIntradayCadence (hI : RunsFree I) {next : Int} :
    Eff.Keeps I (alignIntradayCadence env desk now next) :=
  Eff.Keeps.bind (keeps_alignSession hI) fun _ =>
    Eff.Keeps.ite (keeps_alignSession hI) Eff.keeps_pure

/-! ## All of them -/

/-- The operations that are not the recovery, nor the end of a transaction. -/
def DailyOp.isService : DailyOp → Bool
  | .recover _ | .commit | .rollback => false
  | _ => true

theorem keeps_service [Casing] (hI : Steady I) {rec : RecoveryDesk} {op : DailyOp}
    (hop : op.isService) : Eff.Keeps I (op.run env desk rec) := by
  cases op with
  | prepare day now => exact Eff.Keeps.bind (keeps_prepare hI.toRunsFree) fun _ => Eff.keeps_pure
  | runAnalysis day => exact Eff.Keeps.bind keeps_sessionOf fun _ => keeps_runAnalysis hI
  | revalidate day now fixture =>
    exact Eff.Keeps.bind keeps_sessionOf fun _ => keeps_revalidate hI
  | catchUpToIntraday day now force =>
    exact Eff.Keeps.bind (keeps_catchUpToIntraday hI) fun _ => Eff.keeps_pure
  | evaluateIntraday day trigger now =>
    exact Eff.Keeps.bind (keeps_evaluateIntraday hI) fun _ => Eff.keeps_pure
  | retryMissedSessionExits now day => exact keeps_retryMissedSessionExits hI.toRunsFree
  | retryIncompletePostmarket now day => exact keeps_retryIncompletePostmarket hI.toRunsFree
  | startClosing day => exact keeps_startClosing hI.toRunsFree
  | runPostmarket day now => exact Eff.Keeps.bind keeps_sessionOf fun _ => keeps_postmarketOf hI.toRunsFree
  | runPostmarketEval day now => exact keeps_runPostmarketEval hI.toRunsFree
  | replanIntradayJobs day now => exact keeps_replanIntradayJobs hI.toRunsFree
  | alignIntradayCadence now next => exact keeps_alignIntradayCadence hI.toRunsFree
  | recover now => cases hop
  | commit => cases hop
  | rollback => cases hop

end Kept

end Investor.Workflow
