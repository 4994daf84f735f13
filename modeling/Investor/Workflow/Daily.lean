import Investor.Workflow.Desk

/-!
# The session from preparation to the open

`DailyWorkflowService` up to the first intraday tick: `prepare` creates the run, `run_analysis`
has the committee decide and sends the orders, `revalidate` looks at the decision once more
before the open and enters the tape, and `catch_up_to_intraday` does what a late session has
missed. All of them change the state through `setState`, except where `prepare` finds a day
without trading.

`revalidate` calls itself after a fresh analysis, at most twice; the recursion is on what is
left of that.
-/

namespace Investor.Workflow

open Lib Schema Market Risk Core Execution

/-! ## Revalidation -/

/-- The `fixture` of a revalidation. -/
structure RevalidationFixture where
  forceHoliday : Bool
  hardVeto : Bool
  materialConflict : Bool
  highImportanceNews : Bool
  staleData : Bool
  restrict : Bool
  deriving DecidableEq

def noFixture : RevalidationFixture :=
  { forceHoliday := false, hardVeto := false, materialConflict := false,
    highImportanceNews := false, staleData := false, restrict := false }

/-- `RevalidationReport`, without its details. -/
structure RevalidationReport where
  result : RevalidationResult
  reason : String
  attempt : Int
  deriving DecidableEq

/-- `run.metadata_json["market_events"]`, a list of objects. -/
def marketEvents (m : Dict Json) : List Json :=
  match Dict.at m "market_events" with
  | .arr events => events
  | _ => []

/-- `e.get("requires_reanalysis") and _is_new_event(e)`, an analysis having been completed at
    the cutoff. -/
def demandsReanalysis (cutoff : Option Int) : Json → Bool
  | .obj ev =>
    (Dict.at ev "requires_reanalysis").truthy && !(Dict.at ev "incorporated_at").truthy &&
      match cutoff with
      | none => true
      | some t =>
        match stamp? ((Dict.at ev "detected_at").orElse (Dict.at ev "effective_at")) with
        | some detected => decide (t < detected)
        | none => false
  | _ => false

section Revalidation

variable (cfg : WorkflowSettings)

def completedAnalysis (m : Dict Json) : Option Int := stamp? (Dict.at m "analysis_completed_at")

def analysisExpired (m : Dict Json) (now : Int) : Bool :=
  match completedAnalysis m with
  | some t => decide (cfg.analysisDecisionTtlMinutes * 60 < now - t)
  | none => false

def newsSinceAnalysis (m : Dict Json) : Bool :=
  (marketEvents m).any (demandsReanalysis (completedAnalysis m))

/-- `data_fail_closed:` and the reasons. -/
def failClosedReason (m : Dict Json) : String :=
  "data_fail_closed:" ++ match Dict.at m "data_fail_closed_reasons" with
    | .arr reasons => String.intercalate "," (reasons.filterMap fun
        | .str s => some s
        | _ => none)
    | _ => ""

def metadataReport (m : Dict Json) (now attempt : Int) (restrict : Bool) :
    RevalidationResult × String :=
  if analysisExpired cfg m now then
    if attempt ≤ cfg.maxRevalidationRetries + 1 then (.reanalysisRequired, "analysis_expired")
    else (.noTrade, "revalidation_retries_exhausted")
  else if newsSinceAnalysis m && attempt ≤ cfg.maxRevalidationRetries then
    (.reanalysisRequired, "market_event_requires_reanalysis")
  else if (Dict.at m "data_fail_closed").truthy then (.noTrade, failClosedReason m)
  else if restrict && (match Dict.at m "cio_action" with
      | .str action => action ∈ ["NO_TRADE", "STAY_CASH"]
      | _ => false) then
    (.validWithRestrictions, "prior_no_trade_with_restrictions")
  else (.valid, "ok")

/-- `RevalidationService.revalidate`: operator fixtures first, then the metadata. -/
def revalidationReport (status : MarketStatus) (run : DailyWorkflowRun) (now : Int)
    (fixture : RevalidationFixture) : RevalidationReport :=
  let attempt := run.revalidationCount + 1
  let verdict : RevalidationResult × String :=
    if fixture.forceHoliday then (.noTrade, "fixture_force_holiday")
    else if !status.isTradingDay then (.noTrade, "non_trading_day")
    else if fixture.hardVeto then (.noTrade, "hard_veto_fixture")
    else if fixture.materialConflict then (.noTrade, "material_data_conflict")
    else if fixture.highImportanceNews then (.reanalysisRequired, "high_importance_news")
    else if fixture.staleData then
      (if attempt ≤ cfg.maxRevalidationRetries + 1 then .reanalysisRequired else .noTrade,
        "stale_data_fixture")
    else metadataReport cfg run.metadata now attempt fixture.restrict
  { result := verdict.1, reason := verdict.2, attempt }

end Revalidation

/-! ## The operations -/

section Operations

variable [Casing] (env : Env) (desk : Desk)

def sessionOf (sessionDate : Option Int) : Prog SessionKey := do
  let w ← Eff.read
  return { sessionDate := sessionDate.getD (desk.calendar.marketDay (env.now w.ticks))
           calendarName := desk.calendarName }

/-- `_plan_intraday_jobs` and the rest of `_plan_jobs` on a trading day. -/
def planSession (k : SessionKey) : Prog Unit := do
  let interval ← callService env desk.planJobs
  editMeta k fun m => Dict.set m "intraday_cadence"
    (.obj [("llm_local", .bool desk.cfg.llmIsLocal), ("interval_minutes", .num interval)])
  flushWith env id

def newRun (id : String) (k : SessionKey) (state : DailyWorkflowState)
    (status : WorkflowRunStatus) (metadata : Dict Json) : DailyWorkflowRun :=
  { id, session := k, createdAs := state, transitions := [], currentState := state, status,
    failureReason := none, version := 1, metadata, intradayReanalysisCount := 0,
    revalidationCount := 0, latestDecisionId := none }

/-- `session.add(run)` and its flush; the database may refuse the session. -/
def addRun (run : DailyWorkflowRun) : Prog Unit := do
  let w ← Eff.read
  match w.db.working.runs.insert run with
  | some runs => flushWith env fun t => { t with runs }
  | none =>
    abort
    throw (.other "IntegrityError")

/-- What `prepare` does for a session that has no run yet. -/
def createRun (k : SessionKey) : Prog Unit := do
  let w ← Eff.read
  let id := desk.newId w.ticks
  if desk.calendar.isTradingDay k.sessionDate then do
    addRun env (newRun id k .premarketPreparation .running [("venue", .str desk.venue.value)])
    planSession env desk k
  else do
    addRun env (newRun id k .nonTradingDay .completed
      [("note", .str "non_trading_day"), ("venue", .str desk.venue.value)])
    transition env k .nonTradingDay .completed "prepare" "weekend_or_holiday"
    -- Stay on NON_TRADING then mark completed via direct set for audit simplicity
    write (setRun k (fun r => { r with currentState := .completed }) fun _ => rfl)

/-- The body of `prepare`, under its lease. -/
def prepareSession (k : SessionKey) : Prog Unit := do
  let w ← Eff.read
  if (desk.feed.controls w.ticks).state = .emergencyStop then
    throw (.workflow "emergency_stop_active")
  else do
    let existing ← getCurrent env k
    match existing with
    | some _ => return ()
    | none => createRun env desk k

/-- `prepare`: the session it prepared. -/
def prepare (sessionDate : Option Int) (now : Int) : Prog SessionKey := do
  let k : SessionKey := { sessionDate := sessionDate.getD (desk.calendar.marketDay now)
                          calendarName := desk.calendarName }
  underLease env desk s!"daily:{desk.calendarName}:{k.sessionDate}:prepare"
    (prepareSession env desk k)
  return k

/-! ### Analysis -/

/-- The first change of state of `run_analysis`. -/
def startAnalysis (k : SessionKey) : Prog Unit := do
  let run ← loadedRun k
  match run.currentState with
  | .premarketPreparation => setState env k .premarketAnalysis "run_analysis" "start_analysis"
  | .premarketAnalysis => return ()
  | .preopenRevalidation => return ()
  | state => throw (.workflow s!"analysis_not_allowed_from:{state.value}")

/-- `use_fixtures` while orders could be sent. -/
def externalDataMissing : Bool :=
  !desk.cfg.enableExternalData &&
    (desk.cfg.enableBrokerOrders || desk.cfg.enableAutomatedExecution)

/-- `load_for_risk`. -/
def loadPortfolio : Prog PortfolioRiskView :=
  exceptException (callService env desk.portfolio) fun e =>
    throw (.workflow s!"portfolio_sync_failed:{e.text}")

def Collected.closes (c : Collected) : Bool := c.failClosed || c.collectionFailClosed

def collectionMeta (c : Collected) (u : SessionUniverse) (m : Dict Json) : Dict Json :=
  Dict.merge m
    [("data_fail_closed", .bool c.failClosed),
      ("data_fail_closed_reasons",
        .arr (if c.failClosed then c.failClosedReasons.map .str else [])),
      ("collection_run_id", .str c.collectionRunId),
      ("collection_symbols", .arr (u.collectSymbols.map .str)),
      ("venue", .str desk.venue.value)]

def analysisArgs (runId : String) (portfolio : PortfolioRiskView) (u : SessionUniverse)
    (c : Collected) : MaterializeArgs :=
  { portfolio, latestPrices := c.prices, dataQualityScore := c.quality,
    workflowId := some runId, createIntents := !c.closes, allowSubmit := !c.closes,
    entryUniverse := some u.entryUniverse, horizonBySymbol := u.horizons,
    blockNewEntries := false, marketSessionClear := !c.closes }

def analysisMeta (portfolio : PortfolioRiskView) (c : Collected) (a : Analysis)
    (r : MaterializeResult) (m : Dict Json) : Dict Json :=
  let m := Dict.merge m
    [("analysis_completed_at", stamp a.completedAt),
      ("cio_action", .str a.cio.portfolioAction.value), ("risk_verdict", .str a.riskVerdict),
      ("broker_orders_submitted", .bool r.brokerOrdersSubmitted),
      ("intent_count", .num r.intentIds.length),
      ("intent_ids", .arr (r.intentIds.map fun (id : Nat) => .num id)),
      ("portfolio_equity", .num portfolio.equity), ("portfolio_cash", .num portfolio.cash),
      ("portfolio_positions", .num portfolio.positions.length),
      ("collection_fixture_mode", .bool !desk.cfg.enableExternalData),
      ("trading_actor", .str "cio_bottom_up"), ("collection_run_id", .str c.collectionRunId),
      ("data_quality_summary", c.qualitySummary),
      ("market_events", .arr (c.marketEvents.take 20))]
  if c.closes then
    Dict.set m "no_trade_reason" (.str
      (let reasons := String.intercalate "," c.failClosedReasons
       if reasons = "" then "collection_fail_closed" else reasons))
  else m

/-- What `run_analysis` has in hand once the decision is materialized. -/
structure Decided where
  portfolio : PortfolioRiskView
  collected : Collected
  analysis : Analysis
  execution : MaterializeResult

/-- `run_analysis` up to the orders: the state, the data, the committee and the bridge. -/
def decideAndTrade (k : SessionKey) (runId : String) : Prog Decided := do
  startAnalysis env k
  if externalDataMissing desk then
    throw (.workflow "external_data_required_when_execution_armed")
  else do
    let portfolio ← loadPortfolio env desk
    let u ← callService env desk.sessionUniverse
    let c ← callService env desk.collect
    editMeta k (collectionMeta desk c u)
    let a ← callService env desk.committee
    callService env desk.audit
    let r ← materializeCioDecision env desk.cfg.toSettings desk.feed a.cio
      (analysisArgs runId portfolio u c)
    return { portfolio, collected := c, analysis := a, execution := r }

def closeAnalysis (k : SessionKey) (d : Decided) : Prog Unit := do
  assignRun k (fun r => { r with
    metadata := analysisMeta desk d.portfolio d.collected d.analysis d.execution r.metadata
    latestDecisionId := some d.analysis.cio.decisionId }) fun _ => rfl
  setState env k .preopenRevalidation "run_analysis" "analysis_complete"

def analysisLease (k : SessionKey) : String := s!"daily:{desk.venue.value}:{k.sessionDate}:analysis"

/-- `run_analysis`. -/
def runAnalysis (k : SessionKey) : Prog Unit := do
  let run ← requireRun env k
  assertNotBlocked desk run
  underLease env desk (analysisLease desk k) (do
    let d ← decideAndTrade env desk k run.id
    closeAnalysis env desk k d)

/-! ### Before the open -/

/-- Into the tape: `MARKET_OPEN`, then `INTRADAY`. -/
def enterTape (k : SessionKey) (trigger openReason enterReason : String) : Prog Unit := do
  setState env k .marketOpen trigger openReason
  setState env k .intraday trigger enterReason

def setNoTrade (k : SessionKey) (reason : String) : Prog Unit :=
  editMeta k fun m => Dict.set m "no_trade_reason" (.str reason)

def incorporated (now : Int) : Json → Json
  | .obj ev =>
    if (Dict.at ev "requires_reanalysis").truthy then
      .obj (Dict.set (Dict.set ev "requires_reanalysis" (.bool false)) "incorporated_at"
        (stamp now))
    else .obj ev
  | ev => ev

/-- `_mark_reanalysis_incorporated`. -/
def markReanalysisIncorporated (k : SessionKey) (now : Int) : Prog Unit := do
  let run ← loadedRun k
  if (marketEvents run.metadata).any fun
      | .obj ev => (Dict.at ev "requires_reanalysis").truthy
      | _ => false then do
    editMeta k fun m =>
      Dict.set m "market_events" (.arr ((marketEvents m).map (incorporated now)))
    flushWith env id
  else return ()

/-- `RevalidationService.revalidate` and its `_persist`. -/
def revalidationRun (run : DailyWorkflowRun) (now : Int) (fixture : RevalidationFixture) :
    Prog RevalidationReport := do
  assignRun run.session (fun r => { r with revalidationCount := r.revalidationCount + 1 })
    fun _ => rfl
  flushWith env id
  return revalidationReport desk.cfg (desk.calendar.status now) run now fixture

def enterUnresolved (k : SessionKey) (report : RevalidationReport) : Prog Unit := do
  setNoTrade k s!"reanalysis_unresolved:{report.reason}"
  enterTape env k "revalidate" "reanalysis_unresolved_enter" "enter_intraday_after_reanalysis_limit"

/-- What `revalidate` does with a report that asks for no reanalysis. -/
def settleReport (k : SessionKey) (report : RevalidationReport) : Prog Unit :=
  match report.result with
  | .valid => enterTape env k "revalidate" report.result.value "enter_intraday"
  | .validWithRestrictions => enterTape env k "revalidate" report.result.value "enter_intraday"
  | .noTrade => do
    setNoTrade k report.reason
    enterTape env k "revalidate" "no_trade_carry" "enter_intraday_no_trade"
  | _ => setState env k .failed "revalidate" report.reason

def reportOf (k : SessionKey) (now : Int) (fixture : RevalidationFixture) :
    Prog RevalidationReport := do
  let run ← requireRun env k
  assertNotBlocked desk run
  if run.currentState ≠ .preopenRevalidation then
    throw (.workflow s!"revalidate_not_allowed_from:{run.currentState.value}")
  else revalidationRun env desk run now fixture

/-- `revalidate`, with `left` calls of itself to go. -/
def revalidateFrom (k : SessionKey) (now : Int) : ℕ → RevalidationFixture → Prog Unit
  | 0, fixture => do
    let report ← reportOf env desk k now fixture
    if report.result = .reanalysisRequired then enterUnresolved env k report
    else settleReport env k report
  | left + 1, fixture => do
    let report ← reportOf env desk k now fixture
    if report.result = .reanalysisRequired then
      if desk.cfg.maxRevalidationRetries < report.attempt then enterUnresolved env k report
      else do
        setState env k .premarketAnalysis "revalidate" "reanalysis_required"
        runAnalysis env desk k
        markReanalysisIncorporated env k now
        revalidateFrom k now left noFixture
    else settleReport env k report

/-- `revalidate`. -/
def revalidate (k : SessionKey) (now : Int) (fixture : RevalidationFixture) : Prog Unit :=
  revalidateFrom env desk k now 2 fixture

/-! ### Catching up -/

/-- `_market_needs_intraday`. -/
def marketNeedsIntraday (now : Int) : Bool :=
  let status := desk.calendar.status now
  status.isTradingDay &&
    (["REGULAR", "FORCE_CLOSE_WINDOW", "CLOSING_WINDOW"].contains status.phase ||
      status.inClosingWindow || status.inForceCloseWindow)

def DailyWorkflowState.isPremarket : DailyWorkflowState → Bool
  | .premarketPreparation | .premarketAnalysis | .preopenRevalidation => true
  | _ => false

/-- `run.current_state in {INTRADAY, MARKET_OPEN}`. -/
def DailyWorkflowState.isOnTape : DailyWorkflowState → Bool
  | .intraday | .marketOpen => true
  | _ => false

/-- `_should_catch_up_session`. -/
def shouldCatchUpSession (state : DailyWorkflowState) (now : Int) : Bool :=
  let status := desk.calendar.status now
  state.isPremarket &&
    (marketNeedsIntraday desk now ||
      (status.isTradingDay &&
        match status.minutesToOpen with
        | none => false
        | some mins =>
          decide (mins ≤ desk.cfg.preopenRevalidationMinutesBeforeOpen) ||
            (state = .premarketPreparation &&
              decide (mins ≤ desk.cfg.premarketAnalysisMinutesBeforeOpen))))

/-- `_enter_intraday_after_failed_prep`. -/
def enterIntradayAfterFailedPrep (k : SessionKey) (now : Int) (reason : String) : Prog Unit := do
  let run ← loadedRun k
  if run.currentState.isOnTape then return ()
  else do
    editMeta k fun m => Dict.set
      (Dict.set m "no_trade_reason" (.str (takeChars 240 reason)))
      "catch_up_incomplete" (.str (takeChars 240 reason))
    flushWith env id
    whenIn k .premarketPreparation
      (setState env k .premarketAnalysis "catch_up" "failed_prep_enter")
    whenIn k .premarketAnalysis
      (setState env k .preopenRevalidation "catch_up" "analysis_failed_enter")
    whenIn k .preopenRevalidation (revalidate env desk k now noFixture)
    let _ ← requireRun env k
    return ()

/-- `except DailyWorkflowError`. -/
def exceptWorkflow {α : Type} (p : Prog α) (handler : String → Prog α) : Prog α :=
  tryCatch p fun e =>
    match e with
    | .workflow message => handler message
    | e => throw e

/-- The cooldown of `catch_up_to_intraday`, which a live tape lifts. -/
def catchUpCools (m : Dict Json) (now : Int) : Bool :=
  match stamp? (Dict.at m "last_catch_up_at") with
  | some t => decide ((now - t : ℚ) / 60 < max 5 desk.cfg.minReevaluationGapMinutes)
  | none => false

/-- The part of `catch_up_to_intraday` after the analysis. -/
def catchUpRevalidate (k : SessionKey) (now : Int) : Prog String := do
  let run ← loadedRun k
  if run.currentState = .preopenRevalidation then do
    revalidate env desk k now noFixture
    callService env desk.jobRows
    return "advanced"
  else do
    let _ ← requireRun env k
    callService env desk.jobRows
    return "partial"

/-- The steps of `catch_up_to_intraday`. -/
def catchUpSteps (k : SessionKey) (now : Int) : Prog String := do
  editMeta k fun m => Dict.set m "last_catch_up_at" (stamp now)
  flushWith env id
  let run ← loadedRun k
  if run.currentState = .premarketPreparation ∨ run.currentState = .premarketAnalysis then do
    let failed ← exceptWorkflow (do
      runAnalysis env desk k
      let _ ← requireRun env k
      return false) fun message => do
        if !marketNeedsIntraday desk now then throw (.workflow message)
        else do
          enterIntradayAfterFailedPrep env desk k now message
          callService env desk.jobRows
          return true
    if failed then return "analysis_failed_enter" else catchUpRevalidate env desk k now
  else catchUpRevalidate env desk k now

def currentOrPrepared (sessionDate : Option Int) (now : Int) : Prog DailyWorkflowRun := do
  let k ← sessionOf env desk sessionDate
  let found ← getCurrent env k
  match found with
  | some run => return run
  | none => do
    let k' ← prepare env desk sessionDate now
    requireRun env k'

/-- `catch_up_to_intraday`: the reason it reports. -/
def catchUpToIntraday (sessionDate : Option Int) (now : Int) (force : Bool) : Prog String := do
  let run ← currentOrPrepared env desk sessionDate now
  let k := run.session
  assertNotBlocked desk run
  if run.currentState.isOnTape then do
    callService env desk.jobRows
    return "already_ready"
  else if !force && !shouldCatchUpSession desk run.currentState now then
    return "not_near_or_in_session"
  else if !force && !marketNeedsIntraday desk now && catchUpCools desk run.metadata now then
    return "catch_up_cooldown"
  else catchUpSteps env desk k now

end Operations

/-! ## A sample session -/

section SampleSession

attribute [local instance] asciiCasing

def newYork : SessionKey := { sessionDate := 0, calendarName := "NYSE" }

def analysedWorld : World :=
  ((do
    let k ← prepare (acceptingEnv fun _ => false) (deskDeciding (decisionOf .hold [])) (some 0) 0
    runAnalysis (acceptingEnv fun _ => false) (deskDeciding (decisionOf .hold [])) k : Prog Unit)
    emptyWorld).2

end SampleSession

end Investor.Workflow
