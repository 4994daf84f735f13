import Investor.Intraday.EventBus
import Investor.Workflow.TickScope

/-!
# The events of a tick

A tick that calls the committee marks the events it went by as `PROCESSED`, counts the reanalysis
and notes the committee's answer on the run. Before it does so it looks at one thing only, whether
the answer says that the committee was skipped. An analysis that failed is answered too, with its
exception swallowed, and the tick goes on as after a completed one: its events are no longer
pending, and nothing has looked at them.

Whether anything of that is stored is decided by what follows, the marking of the events and the
flushes of the write-back (`WritesBack`): a call that raises is rolled back by its caller.
-/

namespace Investor.Workflow

open Lib Schema Market Risk Core Execution Intraday

/-! ## The events and the answer -/

/-- `for eid in trigger_event_ids: bus.mark(_UUID(eid), "PROCESSED")`; an id that is none is passed
    over. -/
def markEach (uuid : String → Option ℕ) : List String → EventTable → EventTable
  | [], events => events
  | eid :: ids, events =>
    match uuid eid with
    | some id => markEach uuid ids (mark id "PROCESSED" events).1
    | none => markEach uuid ids events

/-- The rows of the bus after the committee's answer has been dealt with. -/
def markAfter (uuid : String → Option ℕ) (t : TickNotes) (events : EventTable) :
    AgentOutcome → EventTable
  | .skipped _ => events
  | _ => markEach uuid t.eventIds events

def Completed (outcome : AgentOutcome) : Prop :=
  ∃ action mode execution recorded, outcome = .decided action mode execution recorded

section TickEvents

variable [Casing] {env : Env} {uuid : String → Option ℕ} {w : World} {c : DeskTick}

/-- The committee was called and answered: the session the call works on, the world its stations
    started from, its notes by then, the answer, and the world it was given in. -/
def CommitteeAnswers (env : Env) (w : World) (c : DeskTick) (k : SessionKey) (w₀ : World)
    (t : TickNotes) (outcome : AgentOutcome) (w₂ : World) : Prop :=
  openTick env c.desk c.call.sessionDate c.call.now w = (.ok k, w₀) ∧
  ∃ w₁, stations env c.desk k c.call.trigger c.call.now w₀ = (.ok (some t), w₁) ∧
    committeeStation env c.desk k t w₁ = (.ok (some outcome), w₂)

/-- The tables a call leaves its caller to commit: none where it raised, or broke the session. -/
def DeskTick.leaves (env : Env) (w : World) (c : DeskTick) : Option Tables :=
  match evaluateIntraday env c.desk c.call.sessionDate c.call.trigger c.call.now w with
  | (.ok _, w') => if w'.db.broken then none else some w'.db.working
  | (.error _, _) => none

/-- **An analysis that did not complete uses nothing up**: with what the call leaves to be
    committed, every event of the bus is as it was, and so are the count of reanalyses and the
    note of the last one. -/
def SparesEvents (env : Env) (uuid : String → Option ℕ) (w : World) (c : DeskTick) : Prop :=
  ∀ k w₀ t outcome w₂, CommitteeAnswers env w c k w₀ t outcome w₂ → ¬ Completed outcome →
    ∀ tables, c.leaves env w = some tables →
      (∀ events, markAfter uuid t events outcome = events) ∧
      ∀ run₀ run, w₀.db.working.runs.find? k = some run₀ → tables.runs.find? k = some run →
        run.intradayReanalysisCount = run₀.intradayReanalysisCount ∧
          Dict.get? run.metadata "last_intraday_agent" =
            Dict.get? run₀.metadata "last_intraday_agent"

/-- Where the analysis failed, what follows it does not go through. -/
def FailureRolledBack (env : Env) (w : World) (c : DeskTick) : Prop :=
  ∀ k w₀ t error w₂, CommitteeAnswers env w c k w₀ t (.failed error) w₂ →
    ¬ WritesBack env c.desk k w₂

/-! ## A call from the committee's answer on -/

section Answered

variable {k : SessionKey} {w₀ w₂ : World} {t : TickNotes} {outcome : AgentOutcome}

theorem evaluateIntraday_of_answers (h : CommitteeAnswers env w c k w₀ t outcome w₂) :
    evaluateIntraday env c.desk c.call.sessionDate c.call.trigger c.call.now w =
      closeTick env c.desk k c.call.now t (some outcome) w₂ := by
  obtain ⟨hopen, w₁, hstations, hcommittee⟩ := h
  unfold evaluateIntraday tick
  rw [Eff.bind_of_ok hopen, Eff.bind_of_ok hstations]
  exact Eff.bind_of_ok hcommittee

theorem leaves_of_answers (h : CommitteeAnswers env w c k w₀ t outcome w₂) :
    c.leaves env w = match closeTick env c.desk k c.call.now t (some outcome) w₂ with
      | (.ok _, w') => if w'.db.broken then none else some w'.db.working
      | (.error _, _) => none := by
  unfold DeskTick.leaves
  rw [evaluateIntraday_of_answers h]

theorem regular_of_answers (h : CommitteeAnswers env w c k w₀ t outcome w₂) :
    (c.desk.calendar.status c.call.now).inForceCloseWindow = false := by
  obtain ⟨-, w₁, hstations, hcommittee⟩ := h
  have hcalled := (committeeStation_spec.of_ok trivial hcommittee outcome rfl).1
  exact regular_of_committeeAllowed (stations_spec.of_ok trivial hstations t rfl hcalled)

theorem usable_of_failed {error : String}
    (h : CommitteeAnswers env w c k w₀ t (.failed error) w₂) : w₂.db.broken = false := by
  obtain ⟨-, w₁, -, hcommittee⟩ := h
  exact (committeeStation_spec.of_ok trivial hcommittee _ rfl).2.2 error rfl

theorem found_of_answers (h : CommitteeAnswers env w c k w₀ t outcome w₂) :
    ∃ run₀, w₀.db.working.runs.find? k = some run₀ := by
  obtain ⟨hopen, w₁, hstations, -⟩ := h
  obtain ⟨run₀, hrun₀, -⟩ :=
    openTick_onTape.of_ok trivial hopen (usable_of_stations hstations)
  exact ⟨run₀, hrun₀⟩

theorem count_of_answers (h : CommitteeAnswers env w c k w₀ t outcome w₂)
    {run₀ : DailyWorkflowRun} (hrun₀ : w₀.db.working.runs.find? k = some run₀) :
    RunHas k (fun r => r.intradayReanalysisCount = run₀.intradayReanalysisCount) w₂ := by
  obtain ⟨-, w₁, hstations, hcommittee⟩ := h
  let Same : DailyWorkflowRun → Prop := fun r =>
    r.intradayReanalysisCount = run₀.intradayReanalysisCount
  have hfirst : RunHas k Same w₁ :=
    (keeps_stations (calm_runHas k Same)).of_end (fun _ => ⟨run₀, hrun₀, rfl⟩) hstations
  exact (keeps_committeeStation_runHas fun _ _ hr => hr).of_end hfirst hcommittee

theorem note_of_answers (h : CommitteeAnswers env w c k w₀ t outcome w₂)
    {run₀ : DailyWorkflowRun} (hrun₀ : w₀.db.working.runs.find? k = some run₀) :
    Dict.get? t.notes "last_intraday_agent" = Dict.get? run₀.metadata "last_intraday_agent" := by
  obtain ⟨-, w₁, hstations, -⟩ := h
  have hnotes := stations_notes.of_ok (fun _ => ⟨run₀, hrun₀, rfl⟩) hstations
  exact hnotes t rfl _ (by decide)

/-- A skipped committee changes neither the count nor its record. -/
theorem spares_of_skipped {reason : String}
    (h : CommitteeAnswers env w c k w₀ t (.skipped reason) w₂) {tables : Tables}
    (hleft : c.leaves env w = some tables) {run₀ run : DailyWorkflowRun}
    (hrun₀ : w₀.db.working.runs.find? k = some run₀) (hrun : tables.runs.find? k = some run) :
    run.intradayReanalysisCount = run₀.intradayReanalysisCount ∧
      Dict.get? run.metadata "last_intraday_agent" =
        Dict.get? run₀.metadata "last_intraday_agent" := by
  rw [leaves_of_answers h] at hleft
  let Same : DailyWorkflowRun → Prop := fun r =>
    r.intradayReanalysisCount = run₀.intradayReanalysisCount
  have hspec : Eff.Spec (RunHas k Same)
      (closeTick env c.desk k c.call.now t (some (.skipped reason)))
      (fun _ => LeftNoted k Same END_KEYS t.notes) fun _ _ => True :=
    @finish_leaves env c.desk k Same c.call.now { t with result := .noChange, reason }
  have hfinish := hspec w₂ (count_of_answers h hrun₀)
  cases hclosed : closeTick env c.desk k c.call.now t (some (.skipped reason)) w₂ with
  | mk r w' =>
    rw [hclosed] at hleft hfinish
    cases r with
    | error e => cases hleft
    | ok r =>
      dsimp only at hleft hfinish
      rw [if_neg (by simp [hfinish.usable])] at hleft
      obtain ⟨run₁, run', hcount, hrun', hnotes, hsame, -⟩ := hfinish.noted
      rw [Option.some.inj hleft, hrun] at hrun'
      obtain rfl := Option.some.inj hrun'
      exact ⟨hsame.trans hcount, (hnotes _ (by decide)).trans (note_of_answers h hrun₀)⟩

end Answered

/-- **A tick's events are used up by completed analyses only, if and only if what follows a failed
    one does not go through.** -/
theorem sparesEvents_iff :
    SparesEvents env uuid w c ↔ FailureRolledBack env w c := by
  constructor
  · intro hspares k w₀ t error w₂ hanswers hback
    have husable := usable_of_failed hanswers
    obtain ⟨run₀, hrun₀⟩ := found_of_answers hanswers
    obtain ⟨run, hrun, hcount⟩ := count_of_answers hanswers hrun₀ husable
    -- written back, the failed analysis would be counted
    have hcounted : IsCounted (.failed error) := fun _ h => nomatch h
    obtain ⟨r, w', hclosed, husable', run', hrun', hnoted⟩ :=
      @closeTick_goes env c.desk k w₂ c.call.now t _ run husable (regular_of_answers hanswers)
        hcounted hrun hback
    have hleft : c.leaves env w = some w'.db.working := by
      rw [leaves_of_answers hanswers, hclosed]
      exact if_neg (by simp [husable'])
    have hsame := (hspares k w₀ t _ w₂ hanswers
      (fun ⟨_, _, _, _, h⟩ => nomatch h) _ hleft).2 run₀ run' hrun₀ hrun'
    have hgrown : run'.intradayReanalysisCount = run.intradayReanalysisCount + 1 := hnoted.counts
    omega
  · intro hrolled k w₀ t outcome w₂ hanswers hincomplete tables hleft
    cases outcome with
    | skipped reason =>
      exact ⟨fun _ => rfl, fun run₀ run hrun₀ hrun => spares_of_skipped hanswers hleft hrun₀ hrun⟩
    | decided action mode execution recorded => exact absurd ⟨_, _, _, _, rfl⟩ hincomplete
    | failed error =>
      -- the tick raises after a failed analysis, and leaves nothing
      obtain ⟨run₀, hrun₀⟩ := found_of_answers hanswers
      have husable := usable_of_failed hanswers
      obtain ⟨run, hrun, -⟩ := count_of_answers hanswers hrun₀ husable
      obtain ⟨e, w', hstop, -⟩ := @closeTick_stops env c.desk k w₂ c.call.now t (.failed error) run
        husable (regular_of_answers hanswers) (fun _ h => nomatch h) hrun
        (hrolled k w₀ t error w₂ hanswers)
      rw [leaves_of_answers hanswers, hstop] at hleft
      cases hleft

end TickEvents

/-! ## A halt that a failed analysis uses up -/

section LostEvent

attribute [local instance] asciiCasing

def haltPublication : Publication :=
  { eventType := "TRADING_HALT", source := "exchange", symbols := ["AAPL"], importance := "high"
    deduplicationKey := "halt:AAPL", requiresAnalysis := true, requiresRiskReview := true
    requiresExecutionReview := false, payload := [], workflowRunId := none, decisionId := none
    intentId := none, orderId := none, positionId := none, sourceEventId := none
    bypassCooldown := false }

def haltedBus : EventTable := KeyedTable.empty.putNew (newEvent haltPublication 0 1)

def deskWithoutData : Desk :=
  { deskDeciding (decisionOf .hold []) with
    intraday := { quietIntraday with
      monitor := fun _ => answers
        { summary := .null, escalates := false
          pending := [{ id := "1", eventType := "TRADING_HALT" }] }
      collect := fun _ => raises (.other "no market data") } }

def haltTick : DeskTick :=
  { desk := deskWithoutData, call := { sessionDate := some 0, trigger := "interval", now := 0 } }

def rowId? (eid : String) : Option ℕ := if eid = "1" then some 1 else none

def usesUpHalt (env : Env) (w : World) (c : DeskTick) : Bool :=
  match openTick env c.desk c.call.sessionDate c.call.now w with
  | (.ok k, w₀) =>
    match stations env c.desk k c.call.trigger c.call.now w₀ with
    | (.ok (some t), w₁) =>
      match committeeStation env c.desk k t w₁ with
      | (.ok (some (.failed error)), _) =>
        (c.leaves env w).isSome && decide (((markAfter rowId? t haltedBus (.failed error)).rows.map
          (·.status)) = ["PROCESSED"])
      | _ => false
    | _ => false
  | _ => false

/-- **A trading halt is marked as processed by an analysis that failed.** -/
theorem halt_used_up : ¬ SparesEvents (acceptingEnv fun _ => false) rowId? revalidatedWorld
    haltTick := by
  intro hspares
  have hused : usesUpHalt (acceptingEnv fun _ => false) revalidatedWorld haltTick = true := by
    decide +kernel
  unfold usesUpHalt at hused
  split at hused
  · rename_i k w₀ hopen
    split at hused
    · rename_i t w₁ hstations
      split at hused
      · rename_i error w₂ hcommittee
        simp only [Bool.and_eq_true, decide_eq_true_eq, Option.isSome_iff_exists] at hused
        obtain ⟨⟨tables, hleft⟩, hmarked⟩ := hused
        have hsame := (hspares k w₀ t (.failed error) w₂ ⟨hopen, w₁, hstations, hcommittee⟩
          (fun ⟨_, _, _, _, h⟩ => nomatch h) tables hleft).1 haltedBus
        rw [hsame] at hmarked
        revert hmarked
        decide
      · cases hused
    · cases hused
  · cases hused

end LostEvent

end Investor.Workflow
