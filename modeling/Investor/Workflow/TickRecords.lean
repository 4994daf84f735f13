import Investor.Workflow.Kept
import Investor.Workflow.Undisturbed

/-!
# What the committee records in a tick

`evaluate_intraday` reads the run's metadata before its stations and assigns that copy, with its
own notes, at the end. The committee is called in between, and what it recorded on the run by
then (the reanalysis history, the last briefing, the action and the verdict) is overwritten by
the copy. The record is still there after the call exactly where the copy happened to hold the
same values already, or where the copy is not written back.

A call is followed up to the committee's decision (`Decides`), and from there to its end.
-/

namespace Investor.Workflow

open Lib Schema Market Risk Core Execution Intraday

section TickRecords

variable {env : Env} {desk : Desk} {k : SessionKey}

/-! ## The committee's record -/

def Holds (k : SessionKey) (entries : Dict Json) (w : World) : Prop :=
  w.db.broken = false → ∃ run, w.db.working.runs.find? k = some run ∧
    ∀ e ∈ entries, Dict.get? run.metadata e.1 = some e.2

theorem calm_holds (k : SessionKey) (entries : Dict Json) : Calm (Holds k entries) where
  tick := fun _ h => h
  abort := fun _ _ hb => absurd hb (by simp)

def RECORD_KEYS : List String :=
  ["reanalysis", "last_briefing_workflow_id", "last_briefing_kind", "last_briefing_at",
    "cio_action", "risk_verdict", "intent_count"]

section

variable [Casing]

theorem keys_recordOf {cfg : WorkflowSettings} {runId : String} {now linkedAt : Int}
    {budget : ReanalysisState} {symbols : List String} {a : Analysis}
    {execution : Option MaterializeResult} :
    (recordOf cfg runId now linkedAt budget symbols a execution).map (·.1) = RECORD_KEYS := rfl

structure Reanalysis where
  instant : Int
  symbols : List String

def Reanalysis.AddedBy (x : Reanalysis) (recorded : Dict Json) : Prop :=
  ∃ cfg entry, Dict.get? recorded "reanalysis" = some (dumpReanalysisState cfg
    (recordReanalysis x.symbols x.instant (loadReanalysisState entry)))

/-- A stored history counts the reanalysis, for the day and for each of its symbols. -/
def Reanalysis.CountedIn (x : Reanalysis) (entry : Json) : Prop :=
  let s := loadReanalysisState entry
  x.instant ∈ s.times ∧
    ∀ sym ∈ x.symbols, x.instant ∈ (Dict.get? s.bySymbol (Casing.upper sym)).getD []

/-- Where the committee came to a decision, its record is on the run. -/
def RecordedOutcome (k : SessionKey) (outcome : AgentOutcome) (w : World) : Prop :=
  ∀ action mode execution recorded, outcome = .decided action mode execution recorded →
    w.db.broken = false ∧ Holds k recorded w ∧ recorded.map (·.1) = RECORD_KEYS ∧
      ∃ x : Reanalysis, x.AddedBy recorded

theorem decideIntraday_spec {mode : IntradayOperationMode} {entry : Json}
    {openSymbols : List String} {runId : String} {portfolio : PortfolioRiskView} :
    Eff.Spec (fun _ => True)
      (decideIntraday env desk k mode (loadReanalysisState entry) openSymbols runId portfolio)
      (fun outcome w => RecordedOutcome k outcome w ∧
        ∃ action mode execution recorded, outcome = .decided action mode execution recorded)
      (fun _ _ => True) := by
  refine Eff.Spec.bind Eff.Spec.any fun u => Eff.Spec.bind Eff.Spec.any fun c =>
    Eff.Spec.bind Eff.Spec.any fun a => Eff.Spec.bind Eff.Spec.any fun _ =>
    Eff.Spec.bind Eff.Spec.any fun execution => Eff.Spec.bind (M := fun _ _ => True) Eff.Spec.any
    fun w₀ => ?_
  let symbols := if openSymbols.isEmpty then ["PORTFOLIO"] else openSymbols
  let recorded := recordOf desk.cfg runId (env.now w₀.ticks) (env.now w₀.ticks)
    (loadReanalysisState entry) symbols a execution
  -- the keys of a record are apart, so the merge stores each of its entries
  have hnodup : (recorded.map (·.1)).Nodup := by
    rw [keys_recordOf]
    decide
  have hmeta : Eff.Spec (fun _ => True) (editMeta k fun m => Dict.merge m recorded)
      (fun _ => Holds k recorded) (fun _ _ => True) := by
    refine Eff.Spec.bind (loadedRun_spec.weaken (fun _ h => h) (fun _ _ h => h)
      fun _ _ h => h) fun run => Eff.Spec.edit fun w hw husable => ?_
    exact ⟨_, @found_setRun k (fun r => { r with metadata := Dict.merge r.metadata recorded })
      (fun _ => rfl) _ _ hw.2.2, fun e he => Dict.get?_merge_of_mem hnodup he⟩
  refine Eff.Spec.bind hmeta fun _ => ?_
  refine Eff.Spec.bind ((flushWith_spec (calm_holds k recorded)).weaken (fun _ h => h)
    (fun _ _ h => h) fun _ _ _ => trivial) fun _ => Eff.Spec.pure fun w hw => ?_
  obtain ⟨w', hw', husable, rfl⟩ := hw
  refine ⟨?_, _, _, _, _, rfl⟩
  intro action mode' execution' recorded' houtcome
  cases houtcome
  exact ⟨husable, hw', keys_recordOf, ⟨env.now w₀.ticks, symbols⟩, desk.cfg, entry, rfl⟩

/-- The committee's answer and the session it left: what it decided is recorded, and where it
    failed the session can still be used. -/
def SoundOutcome (k : SessionKey) (outcome : AgentOutcome) (w : World) : Prop :=
  RecordedOutcome k outcome w ∧ ∀ error, outcome = .failed error → w.db.broken = false

theorem evaluate_spec {bypass : Bool} :
    Eff.Spec (fun _ => True) (evaluate env desk k bypass) (SoundOutcome k) (fun _ _ => True) := by
  have hskipped : ∀ reason, Eff.Spec (fun _ => True) (pure (.skipped reason) : Prog AgentOutcome)
      (SoundOutcome k) (fun _ _ => True) := fun reason =>
    Eff.Spec.pure fun _ _ => ⟨fun _ _ _ _ h => (nomatch h), fun _ h => (nomatch h)⟩
  refine Eff.Spec.bind (M := fun _ _ => True) Eff.Spec.any fun w₀ => ?_
  refine Eff.Spec.ite (fun _ => hskipped _) fun _ => Eff.Spec.ite (fun _ => hskipped _) fun _ => ?_
  refine Eff.Spec.bind Eff.Spec.any fun run => Eff.Spec.bind Eff.Spec.any fun openSymbols =>
    Eff.Spec.bind Eff.Spec.any fun horizons => Eff.Spec.bind (M := fun _ _ => True) Eff.Spec.any
    fun w₁ => ?_
  split
  · exact hskipped _
  · refine Eff.Spec.bind Eff.Spec.any fun _ => Eff.Spec.tryCatch (X := fun _ _ => True) ?_ fun e =>
      Eff.Spec.ite (fun _ => ?_) fun _ => Eff.Spec.throw fun _ _ => trivial
    · refine Eff.Spec.bind Eff.Spec.any fun portfolio => ?_
      cases portfolio with
      | none => exact Eff.Spec.bind Eff.Spec.any fun _ => hskipped _
      | some portfolio =>
        refine decideIntraday_spec.weaken (fun _ h => h) (fun outcome w h => ⟨h.1, ?_⟩)
          fun _ _ h => h
        obtain ⟨action, mode, execution, recorded, rfl⟩ := h.2
        exact fun _ h => nomatch h
    · -- the flush of the failed analysis went through
      have hcalm : Calm fun _ : World => True := ⟨fun _ _ => trivial, fun _ _ => trivial⟩
      refine Eff.Spec.bind ((flushWith_spec hcalm).weaken (fun _ h => h) (fun _ _ h => h)
        fun _ _ _ => trivial) fun _ => Eff.Spec.pure fun w hw => ?_
      obtain ⟨x, -, husable, rfl⟩ := hw
      exact ⟨fun _ _ _ _ h => (nomatch h), fun _ _ => husable⟩

end

/-! ## Up to the decision -/

def CommitteeTick (desk : Desk) (now : Int) (t : TickNotes) : Prop :=
  t.result = .reanalyze → committeeAllowed (desk.calendar.status now)

theorem committeeAllowed_of_tickResult {status : MarketStatus} {count : Int} {trigger : String}
    (h : (tickResult desk status count trigger).1 = .reanalyze) : committeeAllowed status := by
  unfold tickResult at h
  by_contra hallowed
  have hallowed : committeeAllowed status = false := by simpa using hallowed
  by_cases hre : (triggerResult desk status count trigger).1 = .reanalyze
  · rw [if_pos (by simp [hre, hallowed])] at h
    cases h
  · rw [if_neg (by simp [hre])] at h
    exact hre h

theorem regular_of_committeeAllowed {status : MarketStatus} (h : committeeAllowed status) :
    status.inForceCloseWindow = false := by
  unfold committeeAllowed at h
  simp only [Bool.and_eq_true, Bool.not_eq_true'] at h
  exact h.1.2

theorem stations_spec {trigger : String} {now : Int} :
    Eff.Spec (fun _ => True) (stations env desk k trigger now)
      (fun found _ => ∀ t, found = some t → CommitteeTick desk now t) (fun _ _ => True) := by
  refine Eff.Spec.bind Eff.Spec.any fun run => Eff.Spec.bind Eff.Spec.any fun m =>
    Eff.Spec.bind Eff.Spec.any fun news => Eff.Spec.bind Eff.Spec.any fun mon =>
    Eff.Spec.bind Eff.Spec.any fun m => Eff.Spec.bind Eff.Spec.any fun early => ?_
  refine Eff.Spec.ite (fun _ => Eff.Spec.pure fun _ _ t ht => nomatch ht) fun _ => ?_
  refine Eff.Spec.bind Eff.Spec.any fun run => Eff.Spec.pure fun _ _ t ht => ?_
  cases ht
  exact committeeAllowed_of_tickResult

theorem committeeStation_spec [Casing] {t : TickNotes} :
    Eff.Spec (fun _ => True) (committeeStation env desk k t)
      (fun found w => ∀ outcome, found = some outcome →
        t.result = .reanalyze ∧ SoundOutcome k outcome w) (fun _ _ => True) := by
  refine Eff.Spec.ite (fun hcalled => Eff.Spec.map (evaluate_spec.weaken (fun _ h => h)
    (fun found w h outcome ho => ?_) fun _ _ h => h)) fun _ =>
      Eff.Spec.pure fun _ _ outcome ho => nomatch ho
  cases ho
  simp only [Bool.and_eq_true, decide_eq_true_eq] at hcalled
  exact ⟨hcalled.1, h⟩

/-- A call of `evaluate_intraday`. -/
structure TickCall where
  sessionDate : Option Int
  trigger : String
  now : Int

/-- The call came to a decision of the committee: the session it worked on, its notes by then,
    what the committee recorded, and the world it left. -/
def Decides [Casing] (env : Env) (desk : Desk) (c : TickCall) (w : World) (k : SessionKey) (t : TickNotes)
    (outcome : AgentOutcome) (recorded : Dict Json) (w₂ : World) : Prop :=
  (∃ action mode execution, outcome = .decided action mode execution recorded) ∧
  ∃ w₀ w₁, openTick env desk c.sessionDate c.now w = (.ok k, w₀) ∧
    stations env desk k c.trigger c.now w₀ = (.ok (some t), w₁) ∧
    committeeStation env desk k t w₁ = (.ok (some outcome), w₂)

section Decided

variable {c : TickCall} {w w₂ : World} {t : TickNotes} {outcome : AgentOutcome}
  {recorded : Dict Json}

theorem evaluateIntraday_of_decides [Casing] (h : Decides env desk c w k t outcome recorded w₂) :
    evaluateIntraday env desk c.sessionDate c.trigger c.now w =
      closeTick env desk k c.now t (some outcome) w₂ := by
  obtain ⟨-, w₀, w₁, hopen, hstations, hcommittee⟩ := h
  unfold evaluateIntraday tick
  rw [Eff.bind_of_ok hopen, Eff.bind_of_ok hstations]
  exact Eff.bind_of_ok hcommittee

structure DecidedWorld [Casing] (desk : Desk) (c : TickCall) (k : SessionKey) (recorded : Dict Json)
    (w₂ : World) : Prop where
  usable : w₂.db.broken = false
  holds : Holds k recorded w₂
  keys : recorded.map (·.1) = RECORD_KEYS
  adds : ∃ x : Reanalysis, x.AddedBy recorded
  regular : (desk.calendar.status c.now).inForceCloseWindow = false

theorem decidedWorld_of_decides [Casing] (h : Decides env desk c w k t outcome recorded w₂) :
    DecidedWorld desk c k recorded w₂ := by
  obtain ⟨⟨action, mode, execution, rfl⟩, w₀, w₁, -, hstations, hcommittee⟩ := h
  obtain ⟨hre, hrecorded⟩ := committeeStation_spec.of_ok trivial hcommittee _ rfl
  obtain ⟨husable, hholds, hkeys, hadds⟩ := hrecorded.1 _ _ _ _ rfl
  have hallowed := stations_spec.of_ok trivial hstations t rfl hre
  exact ⟨husable, hholds, hkeys, hadds, regular_of_committeeAllowed hallowed⟩

end Decided

/-! ## The end of the tick -/

section Ending

variable {w : World} {now : Int} {t : TickNotes}

/-- The events of the tick are marked, whatever the bus says of each. -/
structure Marks (env : Env) (desk : Desk) (w : World) : Prop where
  uncut : (w.timed && env.cut w.ticks) = false
  answered : (desk.intraday.markEvents (w.ticks + 1)).reply ≠ .error .cancelled
  unbroken : (desk.intraday.markEvents (w.ticks + 1)).breaks = false

abbrev marking (env : Env) (desk : Desk) : Prog Unit :=
  exceptException (callService env desk.intraday.markEvents) fun _ => pure ()

theorem marking_goes (h : Marks env desk w) : marking env desk w = (.ok (), w.tick) := by
  have hcall := @callService_eq env _ desk.intraday.markEvents w
  rw [if_neg (by simp [h.uncut]), if_neg (by simp [h.unbroken])] at hcall
  cases hreply : (desk.intraday.markEvents (w.ticks + 1)).reply with
  | ok u =>
    rw [hreply] at hcall
    exact exceptException_of_ok hcall
  | error e =>
    rw [hreply] at hcall
    have hexception : e.isException = true := by
      cases e with
      | cancelled => exact absurd hreply h.answered
      | _ => rfl
    exact exceptException_of_exception hcall hexception

theorem marking_stops (h : ¬ Marks env desk w) :
    ∃ r w', marking env desk w = (r, w') ∧
      ((∃ e, r = .error e) ∧ w'.db = w.db ∨ w'.db.broken = true) := by
  have hcall := @callService_eq env _ desk.intraday.markEvents w
  by_cases hcut : w.timed && env.cut w.ticks
  · rw [if_pos hcut] at hcall
    exact ⟨_, _, exceptException_of_cancelled hcall, Or.inl ⟨⟨_, rfl⟩, rfl⟩⟩
  · rw [if_neg hcut] at hcall
    cases hbreaks : (desk.intraday.markEvents (w.ticks + 1)).breaks with
    | true =>
      rw [hbreaks, if_pos rfl] at hcall
      -- the flush of the service broke the session, whatever the service answered
      have hbroken : Eff.Spec (· = w) (marking env desk) (fun _ w' => w'.db.broken = true)
          (fun _ w' => w'.db.broken = true) := by
        refine Eff.Spec.tryCatch (X := fun _ w' => w'.db.broken = true) ?_ fun e =>
          Eff.Spec.ite (fun _ => Eff.Spec.pure fun _ hw => hw)
            fun _ => Eff.Spec.throw fun _ hw => hw
        intro x hx
        rw [hx, hcall]
        cases (desk.intraday.markEvents (w.ticks + 1)).reply with
        | ok u => rfl
        | error e => rfl
      exact ⟨_, _, rfl, Or.inr (hbroken.at_end rfl)⟩
    | false =>
      rw [hbreaks, if_neg (by simp)] at hcall
      have hcancelled : (desk.intraday.markEvents (w.ticks + 1)).reply = .error .cancelled := by
        by_contra hne
        exact h ⟨by simpa using hcut, hne, hbreaks⟩
      rw [hcancelled] at hcall
      exact ⟨_, _, exceptException_of_cancelled hcall, Or.inl ⟨⟨_, rfl⟩, rfl⟩⟩

def withNotes (now : Int) (t : TickNotes) (r : DailyWorkflowRun) : DailyWorkflowRun :=
  { r with metadata := tickMeta now t }

def notedWorld (k : SessionKey) (now : Int) (t : TickNotes) (w : World) : World :=
  { w with db := w.db.write (setRun k (withNotes now t) fun _ => rfl) }

theorem found_notedWorld {run : DailyWorkflowRun} (hrun : w.db.working.runs.find? k = some run) :
    (notedWorld k now t w).db.working.runs.find? k = some (withNotes now t run) :=
  @found_setRun k (withNotes now t) (fun _ => rfl) _ _ hrun

abbrev entering (env : Env) (k : SessionKey) : Prog Unit :=
  setState env k .intraday "evaluate_intraday" "enter"

variable {run : DailyWorkflowRun}

theorem writeBack_of_open (husable : w.db.broken = false)
    (hrun : w.db.working.runs.find? k = some run) (hopen : run.currentState = .marketOpen) :
    writeBack env k now t w =
      (entering env k >>= fun _ => flushWith env id) (notedWorld k now t w) := by
  have hassign : assignRun k (withNotes now t) (fun _ => rfl) w =
      (.ok (), notedWorld k now t w) := assignRun_goes husable hrun
  have hwhen := @whenIn_goes k .marketOpen (entering env k) _ (notedWorld k now t w) husable
    (found_notedWorld hrun)
  rw [if_pos (show (withNotes now t run).currentState = .marketOpen from hopen)] at hwhen
  refine (Eff.bind_of_ok hassign).trans ?_
  cases hset : entering env k (notedWorld k now t w) with
  | mk r w' =>
    rw [hset] at hwhen
    cases r with
    | ok u => rw [Eff.bind_of_ok hwhen, Eff.bind_of_ok hset]
    | error e => rw [Eff.bind_of_error hwhen, Eff.bind_of_error hset]

theorem writeBack_of_entered (husable : w.db.broken = false)
    (hrun : w.db.working.runs.find? k = some run) (hopen : run.currentState ≠ .marketOpen) :
    writeBack env k now t w = flushWith env id (notedWorld k now t w) := by
  have hassign : assignRun k (withNotes now t) (fun _ => rfl) w =
      (.ok (), notedWorld k now t w) := assignRun_goes husable hrun
  have hwhen := @whenIn_goes k .marketOpen (entering env k) _ (notedWorld k now t w) husable
    (found_notedWorld hrun)
  rw [if_neg (show (withNotes now t run).currentState ≠ .marketOpen from hopen)] at hwhen
  exact (Eff.bind_of_ok hassign).trans (Eff.bind_of_ok hwhen)

/-- The flushes of the write-back: the last one, and before it the two of the change of state
    where the run stands in `MARKET_OPEN`. -/
structure WriteGoes (env : Env) (state : DailyWorkflowState) (w : World) : Prop where
  first : FlushGoes env w
  enters : state = .marketOpen → FlushGoes env w.tick ∧ FlushGoes env w.tick.tick

theorem allowed_intraday (hopen : run.currentState = .marketOpen) :
    Allowed (withNotes now t run).currentState .intraday := by
  show Allowed run.currentState _
  rw [hopen]
  exact List.mem_cons_self

/-- The run after the write-back: its metadata are the tick's notes, and it has entered the tape
    if it was about to. -/
structure NotedOn (now : Int) (t : TickNotes) (run run' : DailyWorkflowRun) : Prop where
  notes : run'.metadata = tickMeta now t
  counts : run'.intradayReanalysisCount = run.intradayReanalysisCount
  onTape : run.currentState.isOnTape → run'.currentState.isOnTape

theorem writeBack_goes {run : DailyWorkflowRun} (hrun : w.db.working.runs.find? k = some run)
    (h : WriteGoes env run.currentState w) :
    ∃ w', writeBack env k now t w = (.ok (), w') ∧ w'.db.broken = false ∧
      ∃ run', w'.db.working.runs.find? k = some run' ∧ NotedOn now t run run' := by
  have hfound := @found_notedWorld k w now t run hrun
  by_cases hopen : run.currentState = .marketOpen
  · obtain ⟨hsecond, hthird⟩ := h.enters hopen
    let w₂ : World := { (notedWorld k now t w).tick.tick with
      db := (notedWorld k now t w).db.write
        (setRun k (·.enter .intraday "evaluate_intraday" "enter") fun _ => rfl) }
    have hset : entering env k (notedWorld k now t w) = (.ok (), w₂) :=
      setState_goes hfound (allowed_intraday hopen) (h.first.of_same rfl rfl rfl)
        (hsecond.of_same rfl rfl rfl)
    have hlast := @flushWith_goes env id w₂ (hthird.of_same rfl rfl rfl)
    refine ⟨{ w₂.tick with db := w₂.db.write id }, ?_, h.first.usable,
      (withNotes now t run).enter .intraday "evaluate_intraday" "enter",
      @found_setRun k (·.enter .intraday "evaluate_intraday" "enter") (fun _ => rfl) _ _ hfound,
      rfl, rfl, fun _ => rfl⟩
    rw [writeBack_of_open h.first.usable hrun hopen, Eff.bind_of_ok hset]
    exact hlast
  · have hlast := @flushWith_goes env id (notedWorld k now t w) (h.first.of_same rfl rfl rfl)
    refine ⟨{ (notedWorld k now t w).tick with db := (notedWorld k now t w).db.write id }, ?_,
      h.first.usable, withNotes now t run, hfound, rfl, rfl, fun h => h⟩
    rw [writeBack_of_entered h.first.usable hrun hopen]
    exact hlast

theorem writeBack_stops {run : DailyWorkflowRun} (husable : w.db.broken = false)
    (hrun : w.db.working.runs.find? k = some run) (h : ¬ WriteGoes env run.currentState w) :
    ∃ e w', writeBack env k now t w = (.error e, w') ∧ w'.db.broken = true := by
  have hfound := @found_notedWorld k w now t run hrun
  by_cases hopen : run.currentState = .marketOpen
  · rw [writeBack_of_open husable hrun hopen]
    by_cases hset : FlushGoes env w ∧ FlushGoes env w.tick
    · have hgoes : entering env k (notedWorld k now t w) = _ :=
        setState_goes hfound (allowed_intraday hopen) (hset.1.of_same rfl rfl rfl)
          (hset.2.of_same rfl rfl rfl)
      rw [Eff.bind_of_ok hgoes]
      obtain ⟨e, w', hstop, _, hbroken⟩ := @flushWith_stops env id
        { (notedWorld k now t w).tick.tick with db := (notedWorld k now t w).db.write _ }
        fun hlast => h ⟨hset.1, fun _ => ⟨hset.2, hlast.of_same rfl rfl rfl⟩⟩
      exact ⟨e, w', hstop, hbroken⟩
    · obtain ⟨e, w', hstop, hbroken⟩ := @setState_stops env k .intraday "evaluate_intraday"
        "enter" _ _ hfound fun hgo =>
          hset ⟨hgo.2.1.of_same rfl rfl rfl, hgo.2.2.of_same rfl rfl rfl⟩
      exact ⟨e, w', Eff.bind_of_error hstop, hbroken (allowed_intraday hopen)⟩
  · rw [writeBack_of_entered husable hrun hopen]
    obtain ⟨e, w', hstop, _, hbroken⟩ := @flushWith_stops env id (notedWorld k now t w)
      fun hlast => h ⟨hlast.of_same rfl rfl rfl, fun hstate => absurd hstate hopen⟩
    exact ⟨e, w', hstop, hbroken⟩

/-- The copy of the metadata is written back after the committee: the events are marked, and
    the flushes of the write-back go through. -/
structure WritesBack (env : Env) (desk : Desk) (k : SessionKey) (w : World) : Prop where
  marks : Marks env desk w
  writes : ∀ run, w.db.working.runs.find? k = some run → WriteGoes env run.currentState w.tick

def notedAgent (t : TickNotes) (outcome : AgentOutcome) : TickNotes :=
  { t with notes := Dict.set t.notes "last_intraday_agent" (lastIntradayAgent t outcome) }

theorem get?_tickMeta {outcome : AgentOutcome} {key : String} (hkey : key ∈ RECORD_KEYS) :
    Dict.get? (tickMeta now (notedAgent t outcome)) key = Dict.get? t.notes key := by
  have hown : ∀ own, own ∉ RECORD_KEYS → ∀ (m : Dict Json) (v : Json),
      Dict.get? (Dict.set m own v) key = Dict.get? m key := fun own hnot m v =>
    Dict.get?_set_of_ne m v fun heq => hnot (heq ▸ hkey)
  unfold tickMeta notedAgent
  cases t.summary with
  | none =>
    dsimp only
    rw [hown _ (by decide), hown _ (by decide), hown _ (by decide)]
  | some summary =>
    dsimp only
    rw [hown _ (by decide), hown _ (by decide), hown _ (by decide), hown _ (by decide)]

theorem key_counted (r : DailyWorkflowRun) :
    ({ r with intradayReanalysisCount := r.intradayReanalysisCount + 1 } :
      DailyWorkflowRun).session = r.session := rfl

def countedWorld (k : SessionKey) (w : World) : World :=
  { w with db := w.db.write (setRun k (fun r =>
    { r with intradayReanalysisCount := r.intradayReanalysisCount + 1 }) key_counted) }

def IsCounted (outcome : AgentOutcome) : Prop := ∀ reason, outcome ≠ .skipped reason

theorem closeTick_eq {outcome : AgentOutcome} (husable : w.db.broken = false)
    (hregular : (desk.calendar.status now).inForceCloseWindow = false)
    (hcounted : IsCounted outcome) (hrun : w.db.working.runs.find? k = some run) :
    closeTick env desk k now t (some outcome) w =
      (do
        marking env desk
        writeBack env k now (notedAgent t outcome)
        return ((notedAgent t outcome).result, (notedAgent t outcome).reason) :
          Prog (IntradayEvalResult × String)) (countedWorld k w) := by
  have hassign : assignRun k (fun r =>
      { r with intradayReanalysisCount := r.intradayReanalysisCount + 1 }) (fun _ => rfl) w =
      (.ok (), countedWorld k w) := assignRun_goes husable hrun
  have hafter : afterCommittee env desk k t (some outcome) = countReanalysis env desk k t outcome := by
    cases outcome with
    | skipped reason => exact absurd rfl (hcounted reason)
    | failed error => rfl
    | decided action mode execution recorded => rfl
  unfold closeTick
  rw [hafter]
  unfold countReanalysis
  rw [Eff.bind_bind, Eff.bind_of_ok hassign, Eff.bind_bind]
  -- the force close has no part in the regular session
  have hforce : ∀ t', forceCloseStation env desk (desk.calendar.status now) t' = pure t' := by
    intro t'
    unfold forceCloseStation
    rw [if_neg (by simp [hregular])]
  refine congrFun (bind_congr fun _ => ?_) _
  show (do
    let t' ← forceCloseStation env desk (desk.calendar.status now) (notedAgent t _)
    writeBack env k now t'
    return (t'.result, t'.reason)) = _
  rw [hforce]
  rfl

/-- With the write-back the run has the count and the notes. -/
theorem closeTick_goes {outcome : AgentOutcome} {run : DailyWorkflowRun}
    (husable : w.db.broken = false)
    (hregular : (desk.calendar.status now).inForceCloseWindow = false)
    (hcounted : IsCounted outcome) (hrun : w.db.working.runs.find? k = some run)
    (h : WritesBack env desk k w) :
    ∃ r w', closeTick env desk k now t (some outcome) w = (.ok r, w') ∧ w'.db.broken = false ∧
      ∃ run', w'.db.working.runs.find? k = some run' ∧ NotedOn now (notedAgent t outcome)
        { run with intradayReanalysisCount := run.intradayReanalysisCount + 1 } run' := by
  have hwrites := h.writes run hrun
  have hmarked : marking env desk (countedWorld k w) = (.ok (), (countedWorld k w).tick) :=
    marking_goes ⟨h.marks.uncut, h.marks.answered, h.marks.unbroken⟩
  obtain ⟨w', hwrote, hsound⟩ := @writeBack_goes env k (countedWorld k w).tick now
    (notedAgent t outcome) _ (@found_setRun k _ key_counted _ _ hrun)
    ⟨hwrites.first.of_same rfl rfl rfl, fun hopen =>
      ⟨(hwrites.enters hopen).1.of_same rfl rfl rfl,
        (hwrites.enters hopen).2.of_same rfl rfl rfl⟩⟩
  refine ⟨((notedAgent t outcome).result, (notedAgent t outcome).reason), w', ?_, hsound⟩
  rw [closeTick_eq husable hregular hcounted hrun, Eff.bind_of_ok hmarked]
  exact Eff.bind_of_ok hwrote

/-- Without the write-back the tick raises, and leaves the count alone at most. -/
theorem closeTick_stops {outcome : AgentOutcome} {run : DailyWorkflowRun}
    (husable : w.db.broken = false)
    (hregular : (desk.calendar.status now).inForceCloseWindow = false)
    (hcounted : IsCounted outcome) (hrun : w.db.working.runs.find? k = some run)
    (h : ¬ WritesBack env desk k w) :
    ∃ e w', closeTick env desk k now t (some outcome) w = (.error e, w') ∧
      (w'.db = (countedWorld k w).db ∨ w'.db.broken = true) := by
  rw [closeTick_eq husable hregular hcounted hrun]
  by_cases hmarks : Marks env desk w
  · have hmarked : marking env desk (countedWorld k w) = (.ok (), (countedWorld k w).tick) :=
      marking_goes ⟨hmarks.uncut, hmarks.answered, hmarks.unbroken⟩
    have hwrites : ¬ WriteGoes env run.currentState w.tick := fun hwrites =>
      h ⟨hmarks, fun run' hrun' => by
        rw [hrun] at hrun'
        rw [← Option.some.inj hrun']
        exact hwrites⟩
    obtain ⟨e, w', hstop, hbroken⟩ := @writeBack_stops env k (countedWorld k w).tick now
      (notedAgent t outcome) _ husable (@found_setRun k _ key_counted _ _ hrun) fun hgo => hwrites
        ⟨hgo.first.of_same rfl rfl rfl, fun hopen =>
          ⟨(hgo.enters hopen).1.of_same rfl rfl rfl, (hgo.enters hopen).2.of_same rfl rfl rfl⟩⟩
    rw [Eff.bind_of_ok hmarked, Eff.bind_of_error hstop]
    exact ⟨e, w', rfl, Or.inr hbroken⟩
  · obtain ⟨r, w', hstop, hleft⟩ := @marking_stops env desk (countedWorld k w) fun hm =>
      hmarks ⟨hm.uncut, hm.answered, hm.unbroken⟩
    cases r with
    | error e =>
      rw [Eff.bind_of_error hstop]
      exact ⟨e, w', rfl, hleft.imp (fun hsame => hsame.2) id⟩
    | ok u =>
      -- the exception was handled, and the write-back finds the session broken
      have hbroken : w'.db.broken = true := by
        rcases hleft with ⟨⟨e, he⟩, -⟩ | hbroken
        · cases he
        · exact hbroken
      have hwrite : writeBack env k now (notedAgent t outcome) w' = (.error _, w') :=
        Eff.bind_of_error (Eff.bind_of_error (loadedRun_stops hbroken))
      rw [Eff.bind_of_ok hstop, Eff.bind_of_error hwrite]
      exact ⟨_, w', rfl, Or.inr hbroken⟩

/-- The committee's record is kept exactly if a write-back has it too. -/
theorem closeTick_holds_iff [Casing] {c : TickCall} {outcome : AgentOutcome} {recorded : Dict Json}
    (hw : DecidedWorld desk c k recorded w)
    (hdecided : ∃ action mode execution, outcome = .decided action mode execution recorded) :
    Holds k recorded (closeTick env desk k c.now t (some outcome) w).2 ↔
      (WritesBack env desk k w → ∀ e ∈ recorded, Dict.get? t.notes e.1 = some e.2) := by
  obtain ⟨run, hrun, hentries⟩ := hw.holds hw.usable
  have hcounted : IsCounted outcome := by
    obtain ⟨action, mode, execution, rfl⟩ := hdecided
    exact fun reason h => nomatch h
  by_cases hback : WritesBack env desk k w
  · obtain ⟨r, w', hclosed, husable, run', hrun', hnoted⟩ :=
      @closeTick_goes env desk k w c.now t _ _ hw.usable hw.regular hcounted hrun hback
    rw [hclosed]
    -- the metadata are the tick's copy, whose own keys are not the committee's
    have hread : ∀ e ∈ recorded, Dict.get? run'.metadata e.1 = Dict.get? t.notes e.1 := by
      intro e he
      rw [hnoted.notes]
      refine get?_tickMeta ?_
      rw [← hw.keys]
      exact List.mem_map_of_mem he
    constructor
    · intro hholds _ e he
      obtain ⟨run'', hrun'', hentry⟩ := hholds husable
      have hsame : some run'' = some run' := hrun''.symm.trans hrun'
      rw [← hread e he, ← Option.some.inj hsame]
      exact hentry e he
    · intro hnotes _
      exact ⟨run', hrun', fun e he => (hread e he).trans (hnotes hback e he)⟩
  · refine iff_of_true ?_ fun h => absurd h hback
    obtain ⟨e, w', hstop, hleft⟩ :=
      @closeTick_stops env desk k w c.now t _ _ hw.usable hw.regular hcounted hrun hback
    rw [hstop]
    rcases hleft with hsame | hbroken
    · intro _
      refine ⟨{ run with intradayReanalysisCount := run.intradayReanalysisCount + 1 }, ?_,
        hentries⟩
      show w'.db.working.runs.find? k = _
      rw [hsame]
      exact @found_setRun k _ key_counted _ _ hrun
    · exact fun hb => absurd hb (by simp [hbroken])

end Ending

/-! ## Ticks one after another -/

variable [Casing]

def Counted (k : SessionKey) (x : Reanalysis) (w : World) : Prop :=
  w.db.broken = false → ∃ run, w.db.working.runs.find? k = some run ∧
    x.CountedIn (Dict.at run.metadata "reanalysis")

theorem counted_of_holds {recorded : Dict Json} {x : Reanalysis} {w : World}
    (hadds : x.AddedBy recorded) (hholds : Holds k recorded w) : Counted k x w := by
  intro husable
  obtain ⟨run, hrun, hentries⟩ := hholds husable
  obtain ⟨cfg, entry, hadded⟩ := hadds
  refine ⟨run, hrun, ?_⟩
  have hstored := hentries _ (Dict.mem_of_get? hadded)
  rw [Dict.at, hstored]
  exact counted_of_recorded cfg entry x.symbols x.instant

structure DeskTick where
  desk : Desk
  call : TickCall

/-- One call of `evaluate_intraday`, however it ends. -/
def DeskTick.step (env : Env) (w : World) (c : DeskTick) : World :=
  (evaluateIntraday env c.desk c.call.sessionDate c.call.trigger c.call.now w).2

/-- **What the committee writes to the run in the call is there after it**, and the history on
    the run counts the reanalysis. -/
def KeepsRecord (env : Env) (w : World) (c : DeskTick) : Prop :=
  ∀ k t outcome recorded w₂, Decides env c.desk c.call w k t outcome recorded w₂ →
    Holds k recorded (c.step env w) ∧
      ∀ x : Reanalysis, x.AddedBy recorded → Counted k x (c.step env w)

/-- After a decision of the committee the call does not write its copy of the metadata back, or
    the copy held what the committee wrote already. -/
def LeavesRecord (env : Env) (w : World) (c : DeskTick) : Prop :=
  ∀ k t outcome recorded w₂, Decides env c.desk c.call w k t outcome recorded w₂ →
    WritesBack env c.desk k w₂ → ∀ e ∈ recorded, Dict.get? t.notes e.1 = some e.2

theorem keepsRecord_iff_leavesRecord {w : World} {c : DeskTick} :
    KeepsRecord env w c ↔ LeavesRecord env w c := by
  refine forall_congr' fun k => forall_congr' fun t => forall_congr' fun outcome =>
    forall_congr' fun recorded => forall_congr' fun w₂ => forall_congr' fun hdecides => ?_
  have hstep : c.step env w = (closeTick env c.desk k c.call.now t (some outcome) w₂).2 :=
    congrArg Prod.snd (evaluateIntraday_of_decides hdecides)
  have hholds := @closeTick_holds_iff env c.desk k w₂ t _ c.call outcome recorded
    (decidedWorld_of_decides hdecides) hdecides.1
  rw [hstep, ← hholds]
  exact ⟨fun h => h.1, fun h => ⟨h, fun x hadds => counted_of_holds hadds h⟩⟩

/-- **In a sequence of ticks every call keeps the committee's record if and only if none writes
    an older copy of the metadata over it.** -/
theorem ticks_keep_iff {w₀ : World} {calls : List DeskTick} :
    StepsMeet (DeskTick.step env) (KeepsRecord env) w₀ calls ↔
      StepsMeet (DeskTick.step env) (LeavesRecord env) w₀ calls := by
  induction calls generalizing w₀ with
  | nil => exact Iff.rfl
  | cons c calls ih =>
    rw [StepsMeet.cons_iff, StepsMeet.cons_iff, keepsRecord_iff_leavesRecord, ih]

end TickRecords

/-! ## A tick that loses its reanalysis -/

section LostRecord

attribute [local instance] asciiCasing

def revalidatedWorld : World :=
  (revalidate (acceptingEnv fun _ => false) (deskDeciding (decisionOf .hold [])) newYork 0
    noFixture analysedWorld).2

def firstTick : DeskTick :=
  { desk := deskDeciding (decisionOf .hold [])
    call := { sessionDate := some 0, trigger := "interval", now := 0 } }

def losesHistory (env : Env) (w : World) (c : DeskTick) : Bool :=
  match openTick env c.desk c.call.sessionDate c.call.now w with
  | (.ok k, w₀) =>
    match stations env c.desk k c.call.trigger c.call.now w₀ with
    | (.ok (some t), w₁) =>
      match committeeStation env c.desk k t w₁ with
      | (.ok (some (.decided _ _ _ _)), _) =>
        match (c.step env w).db.working.runs.find? k with
        | some run => !(c.step env w).db.broken && (Dict.get? run.metadata "reanalysis").isNone
        | none => false
      | _ => false
    | _ => false
  | _ => false

/-- **The first tick of a session loses its reanalysis.** -/
theorem first_tick_loses_record :
    ¬ KeepsRecord (acceptingEnv fun _ => false) revalidatedWorld firstTick := by
  intro hkeeps
  have hlost : losesHistory (acceptingEnv fun _ => false) revalidatedWorld firstTick = true := by
    decide +kernel
  unfold losesHistory at hlost
  split at hlost
  · rename_i k w₀ hopen
    split at hlost
    · rename_i t w₁ hstations
      split at hlost
      · rename_i action mode execution recorded w₂ hcommittee
        have hdecides : Decides _ firstTick.desk firstTick.call revalidatedWorld k t
            (.decided action mode execution recorded) recorded w₂ :=
          ⟨⟨action, mode, execution, rfl⟩, w₀, w₁, hopen, hstations, hcommittee⟩
        obtain ⟨x, cfg, entry, hadded⟩ := (decidedWorld_of_decides hdecides).adds
        split at hlost
        · rename_i run hrun
          simp only [Bool.and_eq_true, Bool.not_eq_true'] at hlost
          obtain ⟨husable, hnone⟩ := hlost
          obtain ⟨run', hrun', hentries⟩ := (hkeeps _ _ _ _ _ hdecides).1 husable
          rw [hrun] at hrun'
          have hstored := hentries _ (Dict.mem_of_get? hadded)
          rw [← Option.some.inj hrun'] at hstored
          rw [hstored] at hnone
          cases hnone
        · cases hlost
      · cases hlost
    · cases hlost
  · cases hlost

end LostRecord

end Investor.Workflow
