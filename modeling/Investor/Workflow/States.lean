import Investor.Lib.Json
import Investor.Lib.Table
import Investor.Lib.Trail

/-!
# The states of a trading day

One run of the daily workflow is a row of `daily_workflow_runs`; it stands in one of the
thirteen states, and `ALLOWED_TRANSITIONS` says where it may go from each. Every change of
state writes a row of `workflow_state_transitions`. The rows of a run are kept with it here, in
the order they were inserted, and so is the state it was created with, which no column holds.

A run is `Trailed` when the rows lead, step by allowed step, from the state it was created with
to the state it stands in. `enter` is the one way of changing a state that keeps it so
(`Trailed.enter`).
-/

namespace Investor.Workflow

open Lib

/-- `DailyWorkflowState`. -/
inductive DailyWorkflowState
  | nonTradingDay | premarketPreparation | premarketAnalysis | preopenRevalidation | marketOpen
  | intraday | closingWindow | marketClosed | postmarketReview | completed | paused
  | emergencyStop | failed
  deriving DecidableEq

def DailyWorkflowState.value : DailyWorkflowState → String
  | .nonTradingDay => "NON_TRADING_DAY"
  | .premarketPreparation => "PREMARKET_PREPARATION"
  | .premarketAnalysis => "PREMARKET_ANALYSIS"
  | .preopenRevalidation => "PREOPEN_REVALIDATION"
  | .marketOpen => "MARKET_OPEN"
  | .intraday => "INTRADAY"
  | .closingWindow => "CLOSING_WINDOW"
  | .marketClosed => "MARKET_CLOSED"
  | .postmarketReview => "POSTMARKET_REVIEW"
  | .completed => "COMPLETED"
  | .paused => "PAUSED"
  | .emergencyStop => "EMERGENCY_STOP"
  | .failed => "FAILED"

/-- `WorkflowRunStatus`. -/
inductive WorkflowRunStatus
  | pending | running | paused | completed | failed | aborted
  deriving DecidableEq

/-- `RevalidationResult`. -/
inductive RevalidationResult
  | valid | validWithRestrictions | reanalysisRequired | noTrade | failed
  deriving DecidableEq

def RevalidationResult.value : RevalidationResult → String
  | .valid => "VALID"
  | .validWithRestrictions => "VALID_WITH_RESTRICTIONS"
  | .reanalysisRequired => "REANALYSIS_REQUIRED"
  | .noTrade => "NO_TRADE"
  | .failed => "FAILED"

/-- `IntradayEvalResult`. -/
inductive IntradayEvalResult
  | noChange | reanalyze | riskReviewRequired | pauseTrading | emergencyStop
  deriving DecidableEq

def IntradayEvalResult.value : IntradayEvalResult → String
  | .noChange => "NO_CHANGE"
  | .reanalyze => "REANALYZE"
  | .riskReviewRequired => "RISK_REVIEW_REQUIRED"
  | .pauseTrading => "PAUSE_TRADING"
  | .emergencyStop => "EMERGENCY_STOP"

/-- `ALLOWED_TRANSITIONS`. -/
def ALLOWED_TRANSITIONS : DailyWorkflowState → List DailyWorkflowState
  | .nonTradingDay => [.completed, .failed, .paused]
  | .premarketPreparation =>
    [.premarketAnalysis, .nonTradingDay, .paused, .emergencyStop, .failed]
  | .premarketAnalysis => [.preopenRevalidation, .paused, .emergencyStop, .failed]
  | .preopenRevalidation =>
    [.marketOpen, .premarketAnalysis, .paused, .emergencyStop, .failed]
  | .marketOpen => [.intraday, .closingWindow, .paused, .emergencyStop, .failed]
  | .intraday => [.intraday, .closingWindow, .paused, .emergencyStop, .failed]
  | .closingWindow => [.marketClosed, .paused, .emergencyStop, .failed]
  | .marketClosed => [.postmarketReview, .paused, .emergencyStop, .failed]
  | .postmarketReview => [.completed, .paused, .emergencyStop, .failed]
  | .completed => []
  | .paused =>
    -- a resume returns to a caller-specified prior operational state
    [.premarketPreparation, .premarketAnalysis, .preopenRevalidation, .marketOpen, .intraday,
      .closingWindow, .marketClosed, .postmarketReview, .emergencyStop, .failed]
  | .emergencyStop => [.paused, .failed]
  | .failed => [.paused]

/-- `assert_transition_allowed` passes. -/
def Allowed (a b : DailyWorkflowState) : Prop := b ∈ ALLOWED_TRANSITIONS a

instance : DecidableRel Allowed := fun a b =>
  inferInstanceAs (Decidable (b ∈ ALLOWED_TRANSITIONS a))

/-- `WorkflowStateTransition`; all rows are written as successful. -/
structure WorkflowStateTransition where
  fromState : DailyWorkflowState
  toState : DailyWorkflowState
  trigger : String
  reason : String
  deriving DecidableEq

/-- What names a run (`uq_daily_wf_session`); the date is a number of days. -/
structure SessionKey where
  sessionDate : Int
  calendarName : String
  deriving DecidableEq

/-- `DailyWorkflowRun`, with the rows of its transitions. -/
structure DailyWorkflowRun where
  id : String
  session : SessionKey
  /-- The state given at creation. -/
  createdAs : DailyWorkflowState
  transitions : List WorkflowStateTransition
  currentState : DailyWorkflowState
  status : WorkflowRunStatus
  failureReason : Option String
  version : Int
  metadata : Dict Json
  intradayReanalysisCount : Int
  revalidationCount : Int
  latestDecisionId : Option String

/-- The `daily_workflow_runs` table. -/
abbrev RunTable := KeyedTable DailyWorkflowRun.session

namespace DailyWorkflowRun

def steps (r : DailyWorkflowRun) : List (DailyWorkflowState × DailyWorkflowState) :=
  r.transitions.map fun t => (t.fromState, t.toState)

/-- **The rows are a path through the allowed transitions, and the run stands at its end.** -/
structure Trailed (r : DailyWorkflowRun) : Prop where
  path : IsTrail Allowed r.createdAs r.steps
  stands : r.currentState = trailEnd r.createdAs r.steps

/-- What `_transition` adds. -/
def record (r : DailyWorkflowRun) (t : WorkflowStateTransition) : DailyWorkflowRun :=
  { r with transitions := r.transitions ++ [t] }

/-- What `_set_state` assigns. -/
def assign (r : DailyWorkflowRun) (toState : DailyWorkflowState) (reason : String) :
    DailyWorkflowRun :=
  { r with
    currentState := toState
    version := r.version + 1
    status := if toState = .failed then .failed else r.status
    failureReason := if toState = .failed then some reason else r.failureReason }

/-- `_set_state`, once the transition is allowed. -/
def enter (r : DailyWorkflowRun) (toState : DailyWorkflowState) (trigger reason : String) :
    DailyWorkflowRun :=
  (r.record { fromState := r.currentState, toState, trigger, reason }).assign toState reason

theorem steps_enter (r : DailyWorkflowRun) (toState : DailyWorkflowState)
    (trigger reason : String) :
    (r.enter toState trigger reason).steps = r.steps ++ [(r.currentState, toState)] := by
  simp [enter, record, assign, steps]

theorem Trailed.enter {r : DailyWorkflowRun} (h : r.Trailed) {toState : DailyWorkflowState}
    (hallowed : Allowed r.currentState toState) (trigger reason : String) :
    (r.enter toState trigger reason).Trailed where
  path := by
    rw [steps_enter]
    exact IsTrail.snoc_iff.mpr ⟨h.path, h.stands, hallowed⟩
  stands := by
    rw [steps_enter]
    exact (trailEnd_snoc _ _ _ _).symm

theorem Trailed.of_new {r : DailyWorkflowRun} (hrows : r.transitions = [])
    (hstands : r.currentState = r.createdAs) : r.Trailed where
  path := by simp [steps, hrows]
  stands := by simp [steps, hrows, hstands]

theorem Trailed.of_same {r r' : DailyWorkflowRun} (h : r.Trailed)
    (hrows : r'.transitions = r.transitions) (hcreated : r'.createdAs = r.createdAs)
    (hstate : r'.currentState = r.currentState) : r'.Trailed where
  path := by
    rw [steps, hrows, hcreated]
    exact h.path
  stands := by
    rw [steps, hrows, hcreated, hstate]
    exact h.stands

end DailyWorkflowRun

end Investor.Workflow
