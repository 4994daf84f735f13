import Investor.Workflow.Intraday

/-!
# The end of the session, the job plan, and recovery

`start_closing` leaves the tape, `run_postmarket` settles the session and completes the run, and
the `retry_` operations do after hours what was missed. Planning and replanning the intraday jobs
touches only the run's metadata. `RecoveryService.run` looks at every open run once at startup;
a run of an earlier day it fails by assigning the columns (`recoverRun`).

An operation is a call of one of the public methods, by whoever holds the session, or the commit
or rollback of that holder (`DailyOp`).
-/

namespace Investor.Workflow

open Lib Schema Market Risk Core Execution Intraday

section Operations

variable (env : Env) (desk : Desk)

/-! ## Closing -/

def leaveTape (k : SessionKey) : Prog Unit := do
  let run ← loadedRun k
  if run.currentState = .closingWindow then return ()
  else setState env k .closingWindow "start_closing" "enter"

/-- `start_closing`. -/
def startClosing (sessionDate : Option Int) : Prog Unit := do
  let k ← sessionOf env desk sessionDate
  let run ← requireRun env k
  assertNotBlocked desk run
  if run.currentState.isOnTape || run.currentState = .closingWindow then do
    leaveTape env k
    let closed ← callService env (desk.intraday.runClosing true)
    let overnight ← exceptException (callService env desk.report) fun e =>
      pure (.obj [("error", .str (takeChars 240 e.text)), ("reviews", .arr [])])
    editMeta k fun m => Dict.merge m
      [("closing_decision", .obj [("closing", closed), ("overnight_review", overnight)]),
        ("last_force_close", closed)]
    flushWith env id
  else throw (.workflow s!"closing_not_allowed_from:{run.currentState.value}")

def afterHours (status : MarketStatus) : Bool :=
  ["POSTMARKET", "AFTER_HOURS", "FORCE_CLOSE_WINDOW", "CLOSING_WINDOW"].contains status.phase

def youngerThan (seconds now : Int) (m : Dict Json) (key : String) : Bool :=
  match stamp? (Dict.at m key) with
  | some t => decide (now - t < seconds)
  | none => false

/-- `retry_missed_session_exits`. -/
def retryMissedSessionExits (now : Int) (sessionDate : Option Int) : Prog Unit := do
  let k : SessionKey := { sessionDate := sessionDate.getD (desk.calendar.marketDay now)
                          calendarName := desk.calendarName }
  let found ← getCurrent env k
  match found with
  | none => return ()
  | some run =>
    if !(run.currentState = .closingWindow || run.currentState = .marketClosed ||
        run.currentState.isOnTape) then return ()
    else if !afterHours (desk.calendar.status now) then return ()
    else if youngerThan (15 * 60) now run.metadata "after_hours_flatten_at" then return ()
    else do
      let held ← callService env desk.intraday.openSymbols
      if held.isEmpty then return ()
      else do
        let _ ← callService env desk.intraday.monitor
        let closed ← callService env (desk.intraday.runClosing false)
        assignRun k (fun r => { r with
          metadata := Dict.set (Dict.set run.metadata "after_hours_flatten_at" (stamp now))
            "last_force_close" closed }) fun _ => rfl
        flushWith env id

/-! ## After the close -/

def reviewStep (key : String) (review : Dict Json) : Prog (Dict Json) :=
  exceptException (do
    let reported ← callService env desk.report
    return Dict.set review key reported)
    fun e => pure (Dict.set review (key ++ "_error") (.str (takeChars 240 e.text)))

def reviewSteps : List String → Dict Json → Prog (Dict Json)
  | [], review => return review
  | key :: keys, review => do
    let review ← reviewStep env desk key review
    reviewSteps keys review

def sessionReview (run : DailyWorkflowRun) (now : Int) : Dict Json :=
  [("session_date", .num run.session.sessionDate),
    ("states", .arr (run.transitions.map fun t => .str t.toState.value)),
    ("revalidation_count", .num run.revalidationCount),
    ("intraday_reanalysis_count", .num run.intradayReanalysisCount),
    ("no_trade_reason", Dict.at run.metadata "no_trade_reason"),
    ("cio_action", Dict.at run.metadata "cio_action"), ("broker_orders_submitted", .bool false),
    ("reviewed_at", stamp now)]

/-- The changes of state before the review: closing, closed, postmarket. -/
def enterPostmarket (k : SessionKey) : Prog Unit := do
  whenIn k .closingWindow (setState env k .marketClosed "postmarket" "session_ended")
  whenIn k .marketClosed (setState env k .postmarketReview "postmarket" "start_review")

def completeSession (k : SessionKey) (now : Int) : Prog Unit := do
  let run ← loadedRun k
  if run.currentState ≠ .postmarketReview then
    throw (.workflow s!"postmarket_not_allowed_from:{run.currentState.value}")
  else do
    let review ← reviewSteps env desk
      ["overnight_review", "settlement", "posttrade", "force_close", "session_fold"]
      (sessionReview run now)
    editMeta k fun m => Dict.set m "postmarket_review" (.obj review)
    setState env k .completed "postmarket" "review_done"
    assignRun k (fun r => { r with status := .completed }) fun _ => rfl
    callService env desk.jobRows
    editMeta k fun m => Dict.set m "postmarket_review" (.obj review)
    flushWith env id

/-- `run_postmarket` of a session. -/
def postmarketOf (k : SessionKey) (now : Int) : Prog Unit := do
  let run ← requireRun env k
  assertNotBlocked desk run
  enterPostmarket env k
  completeSession env desk k now

/-- `run_postmarket`. -/
def runPostmarket (sessionDate : Option Int) (now : Int) : Prog Unit := do
  let k ← sessionOf env desk sessionDate
  postmarketOf env desk k now

/-- `POSTMARKET_EVAL_PHASES`. -/
def POSTMARKET_EVAL_PHASES : List String :=
  ["POSTMARKET", "AFTER_HOURS", "NON_TRADING_DAY", "BEFORE_PREMARKET"]

/-- `_retry_incomplete_postmarket_one`: whether it went on to the review. -/
def retryPostmarketOne (now day : Int) : Prog Bool := do
  let k : SessionKey := { sessionDate := day, calendarName := desk.calendarName }
  let found ← getCurrent env k
  match found with
  | none => return false
  | some run =>
    if !(run.currentState = .closingWindow || run.currentState = .marketClosed ||
        run.currentState = .postmarketReview) then return false
    else if desk.calendar.marketDay now ≤ day &&
        !POSTMARKET_EVAL_PHASES.contains (desk.calendar.status now).phase then return false
    else if youngerThan (5 * 60) now run.metadata "last_postmarket_retry_at" then return false
    else do
      editMeta k fun m => Dict.set m "last_postmarket_retry_at" (stamp now)
      flushWith env id
      postmarketOf env desk k now
      callService env desk.jobRows
      return true

/-- `retry_incomplete_postmarket`: today, then yesterday. -/
def retryIncompletePostmarket (now : Int) (sessionDate : Option Int) : Prog Unit := do
  match sessionDate with
  | some day =>
    let _ ← retryPostmarketOne env desk now day
    return ()
  | none =>
    let today := desk.calendar.marketDay now
    let done ← retryPostmarketOne env desk now today
    if done then return ()
    else do
      let _ ← retryPostmarketOne env desk now (today - 1)
      return ()

def evalMeta (payload : Json) (m : Dict Json) : Dict Json :=
  let history := match Dict.at m "postmarket_evals" with
    | .arr items => items ++ [payload]
    | _ => [payload]
  Dict.set (Dict.set m "postmarket_evals" (.arr (history.drop (history.length - 20))))
    "postmarket_eval" payload

/-- `run_postmarket_eval`; its chunks are one call. -/
def runPostmarketEval (sessionDate : Option Int) (now : Int) : Prog Unit := do
  let k ← sessionOf env desk sessionDate
  let run ← requireRun env k
  assertNotBlocked desk run
  let phase := (desk.calendar.status now).phase
  if !POSTMARKET_EVAL_PHASES.contains phase then do
    editMeta k fun m => Dict.set m "postmarket_eval"
      (.obj [("phase", .str phase), ("skipped", .str s!"session_phase:{phase}"),
        ("reschedule", .bool true), ("delay_s", .num 60)])
    flushWith env id
  else do
    let payload ← callService env desk.report
    editMeta k (evalMeta payload)
    flushWith env id

/-! ## The job plan -/

/-- `replan_intraday_jobs` of a run. -/
def replanRun (k : SessionKey) (now : Int) : Prog Unit :=
  if !desk.calendar.isTradingDay k.sessionDate then return ()
  else do
    callService env desk.jobRows
    planSession env desk k
    editMeta k fun m => Dict.set m "last_intraday_replan" (.obj [("at", stamp now)])
    flushWith env id

/-- `replan_intraday_jobs`. -/
def replanIntradayJobs (sessionDate : Option Int) (now : Int) : Prog Unit := do
  let k ← sessionOf env desk sessionDate
  let found ← getCurrent env k
  match found with
  | none => return ()
  | some run => replanRun env desk run.session now

/-- `_align_intraday_session`. -/
def alignSession (day now : Int) : Prog Unit := do
  let k : SessionKey := { sessionDate := day, calendarName := desk.calendarName }
  let found ← getCurrent env k
  match found with
  | none => return ()
  | some run => do
    let misaligned ← callService env desk.misaligned
    if misaligned then replanRun env desk run.session now else return ()

/-- `align_intraday_cadence`, of today and the next trading day. -/
def alignIntradayCadence (now next : Int) : Prog Unit := do
  let today := desk.calendar.marketDay now
  alignSession env desk today now
  if next ≠ today then alignSession env desk next now else return ()

/-! ## Recovery -/

/-- `RecoveryService`, with the calendars of the runs and the restore of the controls. -/
structure RecoveryDesk where
  calendarOf : String → Calendar
  restore : Nat → ServiceAnswer Unit

variable (rec : RecoveryDesk)

def DailyWorkflowRun.isOpen (r : DailyWorkflowRun) : Bool :=
  r.status = .pending || r.status = .running || r.status = .paused

/-- The recovery fails the run: it is of an earlier day, and not in an emergency stop. -/
def RecoveryDesk.isStale (now : Int) (r : DailyWorkflowRun) : Bool :=
  r.isOpen && r.currentState ≠ .emergencyStop &&
    decide (r.session.sessionDate < (rec.calendarOf r.session.calendarName).marketDay now)

def RecoveryDesk.noteFor (now : Int) (r : DailyWorkflowRun) : Option String :=
  let phase := ((rec.calendarOf r.session.calendarName).status now).phase
  match r.currentState with
  | .premarketPreparation | .premarketAnalysis =>
    if phase ∈ ["PREMARKET", "BEFORE_PREMARKET"] then none else some "resume_after_restart"
  | .closingWindow =>
    if phase ∈ ["POSTMARKET", "AFTER_HOURS"] then some "missed_closing_window" else none
  | _ => none

def RecoveryDesk.recoverRun (now : Int) (r : DailyWorkflowRun) : DailyWorkflowRun :=
  if !r.isOpen || r.currentState = .emergencyStop then r
  else if rec.isStale now r then
    -- Stale prior day — mark failed for operator review (no late orders)
    { r with
      status := .failed
      failureReason := some "stale_incomplete_run_after_session"
      currentState := .failed }
  else
    match rec.noteFor now r with
    | some note => { r with metadata := Dict.set r.metadata "recovery_note" (.str note) }
    | none => r

@[simp] theorem RecoveryDesk.session_recoverRun (now : Int) (r : DailyWorkflowRun) :
    (rec.recoverRun now r).session = r.session := by
  unfold RecoveryDesk.recoverRun
  split
  · rfl
  · split
    · rfl
    · split <;> rfl

/-- `LeaseService.reclaim_expired`. -/
def reclaimExpired : Prog Unit := do
  let start ← Eff.read
  let now := env.now start.ticks
  let _ ← query env fun t => t.leases
  flushWith env fun t => { t with leases := t.leases.filter fun e => now < e.2.expiresAt }

/-- `RecoveryService.run`. -/
def recoveryRun (now : Int) : Prog Unit := do
  callService env rec.restore
  reclaimExpired env
  let _ ← query env fun t => t.runs.rows.filter (·.isOpen)
  write fun t => { t with
    runs := t.runs.update (rec.recoverRun now) (RecoveryDesk.session_recoverRun rec now) }
  flushWith env id

end Operations

/-! ## Operations -/

/-- A call of a public method, or the commit or rollback of the session's holder. -/
inductive DailyOp
  | prepare (sessionDate : Option Int) (now : Int)
  | runAnalysis (sessionDate : Option Int)
  | revalidate (sessionDate : Option Int) (now : Int) (fixture : RevalidationFixture)
  | catchUpToIntraday (sessionDate : Option Int) (now : Int) (force : Bool)
  | evaluateIntraday (sessionDate : Option Int) (trigger : String) (now : Int)
  | retryMissedSessionExits (now : Int) (sessionDate : Option Int)
  | retryIncompletePostmarket (now : Int) (sessionDate : Option Int)
  | startClosing (sessionDate : Option Int)
  | runPostmarket (sessionDate : Option Int) (now : Int)
  | runPostmarketEval (sessionDate : Option Int) (now : Int)
  | replanIntradayJobs (sessionDate : Option Int) (now : Int)
  | alignIntradayCadence (now next : Int)
  | recover (now : Int)
  | commit
  | rollback
  deriving DecidableEq

section Step

variable [Casing] (env : Env) (desk : Desk) (rec : RecoveryDesk)

def DailyOp.run : DailyOp → Prog Unit
  | .prepare sessionDate now => do
    let _ ← Workflow.prepare env desk sessionDate now
    return ()
  | .runAnalysis sessionDate => do
    let k ← sessionOf env desk sessionDate
    Workflow.runAnalysis env desk k
  | .revalidate sessionDate now fixture => do
    let k ← sessionOf env desk sessionDate
    Workflow.revalidate env desk k now fixture
  | .catchUpToIntraday sessionDate now force => do
    let _ ← Workflow.catchUpToIntraday env desk sessionDate now force
    return ()
  | .evaluateIntraday sessionDate trigger now => do
    let _ ← Workflow.evaluateIntraday env desk sessionDate trigger now
    return ()
  | .retryMissedSessionExits now sessionDate =>
    Workflow.retryMissedSessionExits env desk now sessionDate
  | .retryIncompletePostmarket now sessionDate =>
    Workflow.retryIncompletePostmarket env desk now sessionDate
  | .startClosing sessionDate => Workflow.startClosing env desk sessionDate
  | .runPostmarket sessionDate now => Workflow.runPostmarket env desk sessionDate now
  | .runPostmarketEval sessionDate now => Workflow.runPostmarketEval env desk sessionDate now
  | .replanIntradayJobs sessionDate now => Workflow.replanIntradayJobs env desk sessionDate now
  | .alignIntradayCadence now next => Workflow.alignIntradayCadence env desk now next
  | .recover now => recoveryRun env rec now
  | .commit => Core.commit env
  | .rollback => Core.rollback

def dailyStep (w : World) (op : DailyOp) : World := (op.run env desk rec w).2

end Step

end Investor.Workflow
