import Investor.Intraday.Agents
import Investor.Workflow.Daily

/-!
# The intraday tick

`evaluate_intraday` brings a late session into the tape, then works through its stations: it
folds what yesterday left, takes in the news, has the monitor look at the positions, flattens
leftovers, decides whether the committee is called, calls it, closes positions near the end of
the session, and writes what it noted to the metadata of the run.

The metadata are read once, at the beginning of the stations, and written back as a whole at
their end (`writeBack`). The stations in between note their results in that copy.
-/

namespace Investor.Workflow

open Lib Schema Market Risk Core Execution Intraday

section Tick

variable [Casing] (env : Env) (desk : Desk)

/-! ## Into the tape -/

def catchUpForTick (k : SessionKey) (now : Int) : Prog String :=
  exceptWorkflow
    (catchUpToIntraday env desk (some k.sessionDate) now (marketNeedsIntraday desk now))
    fun message => do
      if !marketNeedsIntraday desk now then throw (.workflow message)
      else do
        enterIntradayAfterFailedPrep env desk k now message
        return "analysis_failed_enter"

/-- Late start / stuck preopen: finish prep then continue as intraday. -/
def reachIntraday (k : SessionKey) (now : Int) : Prog Unit := do
  let reason ← catchUpForTick env desk k now
  let run ← requireRun env k
  if run.currentState.isOnTape then return ()
  else if marketNeedsIntraday desk now then do
    enterIntradayAfterFailedPrep env desk k now reason
    let run ← requireRun env k
    if run.currentState.isOnTape then return ()
    else throw (.workflow s!"intraday_not_allowed_from:{run.currentState.value}:catch_up={reason}")
  else throw (.workflow s!"intraday_not_allowed_from:{run.currentState.value}:catch_up={reason}")

def DailyWorkflowState.isPastTape : DailyWorkflowState → Bool
  | .closingWindow | .marketClosed | .postmarketReview | .completed => true
  | _ => false

/-- The beginning of `evaluate_intraday`: a run on the tape. -/
def openTick (sessionDate : Option Int) (now : Int) : Prog SessionKey := do
  let k ← sessionOf env desk sessionDate
  let run ← requireRun env k
  assertNotBlocked desk run
  if run.currentState.isPastTape then
    -- leftover interval evals must skip, not catch-up
    throw (.workflow s!"intraday_not_allowed_from:{run.currentState.value}")
  else if run.currentState.isOnTape then return run.session
  else do
    reachIntraday env desk run.session now
    return run.session

/-! ## The stations -/

def note (meta₀ : Dict Json) (p : Prog (Dict Json)) (errorKey : String) : Prog (Dict Json) :=
  exceptException p fun e => pure (Dict.set meta₀ errorKey (.str (takeChars 200 e.text)))

/-- `fold_session_residue`. -/
def foldStation (m : Dict Json) : Prog (Dict Json) :=
  note m (do
    let fold ← callService env desk.intraday.foldResidue
    return match fold with
      | some marked => Dict.set m "last_session_fold" marked
      | none => m) "last_session_fold_error"

def newsStation (m : Dict Json) : Prog (Option NewsIngest × Dict Json) :=
  exceptException (do
    let news ← callService env desk.intraday.newsIngest
    return (some news, Dict.set m "last_news_ingest"
      (.obj [("published", news.published), ("scanned", news.scanned)])))
    fun e => pure (none, Dict.set m "last_news_ingest_error" (.str (takeChars 200 e.text)))

def clearDataGate (prices : Dict ℚ) (m : Dict Json) : Dict Json :=
  let reasons := match Dict.at m "data_fail_closed_reasons" with
    | .arr items => items.filter Json.truthy
    | _ => []
  let soft := match reasons with
    | [] => true
    | [.str reason] => reason = "missing_core_index_data"
    | _ => false
  if !prices.isEmpty && desk.cfg.paperRelaxedDataGates &&
      (Dict.at m "data_fail_closed").truthy && soft then
    Dict.merge m [("data_fail_closed", .bool false), ("data_fail_closed_reasons", .arr []),
      ("data_fail_closed_cleared", .str "paper_live_quotes")]
  else m

def monitorPrices (m : Dict Json) : Prog (Dict ℚ × Dict Json) :=
  exceptException (do
    let prices ← callService env desk.intraday.monitorPrices
    return (prices, m))
    fun e => pure ([], Dict.set m "last_monitor_price_error" (.str (takeChars 200 e.text)))

/-- `MONITOR_EXECUTED_EVENT_TYPES`: the monitor has acted on these already. -/
def MONITOR_EXECUTED_EVENT_TYPES : List String :=
  ["STOP_TRIGGERED", "MAX_HOLDING_TIME_REACHED", "TAKE_PROFIT_TRIGGERED", "RISK_LIMIT_BREACH"]

/-- What the monitor found: whether it escalates, the pending events, its summary. -/
structure Monitored where
  escalates : Bool
  pending : List BusEvent
  summary : Option Json

def monitorPositions (m : Dict Json) : Prog (Monitored × Dict Json) :=
  exceptException (do
    let mon ← callService env desk.intraday.monitor
    return ({ escalates := mon.escalates
              pending := mon.pending.filter fun e =>
                e.eventType ∉ MONITOR_EXECUTED_EVENT_TYPES
              summary := some mon.summary },
      Dict.set m "last_monitor" mon.summary))
    fun e => pure ({ escalates := false, pending := [],
                     summary := some (.obj [("error", .str (takeChars 200 e.text))]) },
      Dict.set m "last_monitor_error" (.str (takeChars 200 e.text)))

/-- Position monitor ticks on every unattended eval; events are drained without it too. -/
def monitorStation (m : Dict Json) : Prog (Monitored × Dict Json) :=
  if desk.cfg.enableIntradayMonitoring then do
    let priced ← monitorPrices env desk m
    monitorPositions env desk (clearDataGate desk priced.1 priced.2)
  else
    exceptException (do
      let pending ← callService env desk.intraday.drainEvents
      return ({ escalates := false, pending, summary := none }, m))
      fun e => pure ({ escalates := false, pending := [], summary := none },
        Dict.set m "last_event_drain_error" (.str (takeChars 200 e.text)))

def leftoversDue (status : MarketStatus) (m : Dict Json) : Bool :=
  ((status.phase = "REGULAR" && !status.inForceCloseWindow) ||
    ["POSTMARKET", "AFTER_HOURS", "FORCE_CLOSE_WINDOW", "CLOSING_WINDOW"].contains status.phase) &&
    !(Dict.at m "leftover_intraday_flatten_at").truthy

def flattenStation (status : MarketStatus) (now : Int) (m : Dict Json) : Prog (Dict Json) :=
  if leftoversDue status m then
    exceptException (do
      let flattened ← callService env (desk.intraday.runClosing false)
      return Dict.set (Dict.set m "leftover_intraday_flatten_at" (stamp now))
        "leftover_intraday_flatten" flattened)
      fun e => pure (Dict.set m "leftover_intraday_flatten_error" (.str (takeChars 240 e.text)))
  else return m

/-! ## Whether the committee is called -/

/-- `effective_trigger`, and the events it goes by. -/
def effectiveTrigger (trigger : String) (mon : Monitored) (news : Option NewsIngest) :
    String × List String :=
  let ids := mon.pending.map (·.id)
  if mon.escalates then ("risk_change", ids)
  else if !mon.pending.isEmpty then
    if mon.pending.all fun e =>
        ["HIGH_IMPORTANCE_NEWS", "EARNINGS_RELEASE", "SEC_MATERIAL_FILING"].contains e.eventType
    then ("news_high_importance", ids)
    else ("risk_change", ids)
  else
    match news with
    | some n => if n.published.truthy then ("news_high_importance", n.eventIds) else (trigger, ids)
    | none => (trigger, ids)

def withinGap (status : MarketStatus) (now : Int) (trigger : String) (m : Dict Json) :
    Prog Bool :=
  match stamp? (Dict.at m "last_intraday_eval_at") with
  | none => return false
  | some last => do
    let needGap ← callService env desk.intraday.needGapMinutes
    return decide ((now - last : ℚ) / 60 < needGap) && trigger = "interval" &&
      !status.inForceCloseWindow

def triggerResult (status : MarketStatus) (count : Int) (trigger : String) :
    IntradayEvalResult × String :=
  if status.inForceCloseWindow || status.inClosingWindow then
    (.noChange, "closing_window_limit_new_analysis")
  else if effectiveMaxIntradayReanalyses desk.cfg ≤ count then
    -- Risk escalations still reanalyze even at the soft cap.
    if trigger = "risk_change" then (.reanalyze, "event:risk_change_over_cap")
    else (.pauseTrading, "max_intraday_reanalyses")
  else if ["volatility", "news_high_importance", "risk_change"].contains trigger then
    (.reanalyze, s!"event:{trigger}")
  else if trigger = "stale_data" then (.riskReviewRequired, "stale_data")
  else if trigger = "interval" && desk.cfg.enableIntradayAgentReanalysis then
    (.reanalyze, "interval_agent_reeval")
  else (.noChange, "ok")

/-- `committee_allowed_for_phase`. -/
def committeeAllowed (status : MarketStatus) : Bool :=
  status.phase = "REGULAR" && !status.inForceCloseWindow && !status.inClosingWindow

def tickResult (status : MarketStatus) (count : Int) (trigger : String) :
    IntradayEvalResult × String :=
  let r := triggerResult desk status count trigger
  if r.1 = .reanalyze && !committeeAllowed status then
    (.noChange, s!"committee_skipped_phase:{status.phase}")
  else r

/-! ## The committee and the end of the tick -/

/-- What the stations before the committee leave to the rest of the tick. -/
structure TickNotes where
  notes : Dict Json
  trigger : String
  eventIds : List String
  summary : Option Json
  result : IntradayEvalResult
  reason : String

/-- A tick up to the committee: its notes, or none where it ends with `min_gap`. -/
def stations (k : SessionKey) (trigger : String) (now : Int) : Prog (Option TickNotes) := do
  let status := desk.calendar.status now
  let run ← loadedRun k
  let m ← foldStation env desk run.metadata
  let news ← newsStation env desk m
  let mon ← monitorStation env desk news.2
  let m ← flattenStation env desk status now mon.2
  let effective := effectiveTrigger trigger mon.1 news.1
  let early ← withinGap env desk status now effective.1 m
  if early then return none
  else do
    let run ← loadedRun k
    let r := tickResult desk status run.intradayReanalysisCount effective.1
    return some { notes := m, trigger := effective.1, eventIds := effective.2,
                  summary := mon.1.summary, result := r.1, reason := r.2 }

def committeeStation (k : SessionKey) (t : TickNotes) : Prog (Option AgentOutcome) :=
  if t.result = .reanalyze && desk.cfg.enableIntradayAgentReanalysis then
    some <$> evaluate env desk k (t.trigger ≠ "interval")
  else return none

def lastIntradayAgent (t : TickNotes) (outcome : AgentOutcome) : Json :=
  let eventIds : Json := .arr (t.eventIds.map .str)
  match outcome with
  | .decided action mode execution _ =>
    .obj [("portfolio_action", .str action), ("intent_count", .num (intentCount execution)),
      ("broker_orders_submitted", .bool outcome.brokerOrdersSubmitted), ("mode", .str mode.value),
      ("trigger", .str t.trigger), ("trigger_event_ids", eventIds)]
  | _ =>
    .obj [("portfolio_action", .null), ("intent_count", .num 0),
      ("broker_orders_submitted", .bool false), ("mode", .null), ("trigger", .str t.trigger),
      ("trigger_event_ids", eventIds)]

/-- The tick once the committee has been called: the count, the note and the events. -/
def countReanalysis (k : SessionKey) (t : TickNotes) (outcome : AgentOutcome) :
    Prog TickNotes := do
  assignRun k (fun r => { r with intradayReanalysisCount := r.intradayReanalysisCount + 1 })
    fun _ => rfl
  exceptException (callService env desk.intraday.markEvents) fun _ => pure ()
  return { t with notes := Dict.set t.notes "last_intraday_agent" (lastIntradayAgent t outcome) }

def afterCommittee (k : SessionKey) (t : TickNotes) : Option AgentOutcome → Prog TickNotes
  | none => return t
  | some (.skipped reason) => return { t with result := .noChange, reason }
  | some outcome => countReanalysis env desk k t outcome

def forceCloseStation (status : MarketStatus) (t : TickNotes) : Prog TickNotes :=
  if status.inForceCloseWindow then
    exceptException (do
      let closed ← callService env (desk.intraday.runClosing true)
      return { t with notes := Dict.set t.notes "last_force_close" closed,
                      reason := "force_close_run" })
      fun e => pure { t with notes := Dict.set t.notes "last_force_close_error" (.str e.text),
                             reason := "force_close_failed:" ++ e.text }
  else return t

def tickMeta (now : Int) (t : TickNotes) : Dict Json :=
  let m := Dict.set (Dict.set t.notes "last_intraday_eval_at" (stamp now))
    "last_intraday_result" (.str t.result.value)
  match t.summary with
  | some summary => Dict.set m "last_monitor" summary
  | none => m

def writeBack (k : SessionKey) (now : Int) (t : TickNotes) : Prog Unit := do
  assignRun k (fun r => { r with metadata := tickMeta now t }) fun _ => rfl
  whenIn k .marketOpen (setState env k .intraday "evaluate_intraday" "enter")
  flushWith env id

def closeTick (k : SessionKey) (now : Int) (t : TickNotes) (outcome : Option AgentOutcome) :
    Prog (IntradayEvalResult × String) := do
  let t ← afterCommittee env desk k t outcome
  let t ← forceCloseStation env desk (desk.calendar.status now) t
  writeBack env k now t
  return (t.result, t.reason)

def tick (k : SessionKey) (trigger : String) (now : Int) : Prog (IntradayEvalResult × String) := do
  let found ← stations env desk k trigger now
  match found with
  | none => return (.noChange, "min_gap")
  | some t => do
    let outcome ← committeeStation env desk k t
    closeTick env desk k now t outcome

/-- `evaluate_intraday`: the result and its reason. -/
def evaluateIntraday (sessionDate : Option Int) (trigger : String) (now : Int) :
    Prog (IntradayEvalResult × String) := do
  let k ← openTick env desk sessionDate now
  tick env desk k trigger now

end Tick

end Investor.Workflow
