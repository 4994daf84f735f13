import Investor.Intraday.Reanalysis

/-!
# The intraday committee

`IntradayAgentService.evaluate` runs the agents again during the session: it checks the mode
and the reanalysis budget, collects, has the committee decide, hands the decision to the same
bridge as the premarket analysis where the mode allows it, and records on the run what it did.
An exception anywhere in it is swallowed into a failed outcome.

What it records on the run is one update of the metadata (`recordOf`).
-/

namespace Investor.Intraday

open Lib Schema Market Risk Core Execution Workflow

/-- What `evaluate` returns: its reason to do nothing, an exception it swallowed, or what it
    decided and what it wrote to the run's metadata. -/
inductive AgentOutcome
  | skipped (reason : String)
  | failed (error : String)
  | decided (portfolioAction : String) (mode : IntradayOperationMode)
      (execution : Option MaterializeResult) (recorded : Dict Json)

def intentCount (execution : Option MaterializeResult) : ℕ :=
  (execution.map (·.intentIds.length)).getD 0

/-- `broker_orders_submitted` of an outcome. -/
def AgentOutcome.brokerOrdersSubmitted : AgentOutcome → Bool
  | .decided _ _ execution _ => (execution.map (·.brokerOrdersSubmitted)).getD false
  | _ => false

/-- The action the committee's decision goes by: a refused risk approval means no new risk. -/
def committeeAction (cio : CIODecision) : String :=
  if cio.riskApproval then cio.portfolioAction.value else "NO_NEW_RISK"

/-- What `evaluate` writes to the metadata of the run. -/
def recordOf [Casing] (cfg : WorkflowSettings) (runId : String) (now linkedAt : Int)
    (budget : ReanalysisState) (symbols : List String) (a : Analysis)
    (execution : Option MaterializeResult) : Dict Json :=
  [("reanalysis", dumpReanalysisState cfg (recordReanalysis symbols now budget)),
    ("last_briefing_workflow_id", .str runId), ("last_briefing_kind", .str "intraday"),
    ("last_briefing_at", stamp linkedAt), ("cio_action", .str (committeeAction a.cio)),
    ("risk_verdict", .str a.riskVerdict), ("intent_count", .num (intentCount execution))]

section Agents

variable [Casing] (env : Env) (desk : Desk)

/-- The snapshot is older than the portfolio of a decision may be; there may be none. -/
def snapshotStale (now : Int) (asOf : Option Int) : Bool :=
  match asOf with
  | none => true
  | some t => decide (max 30 (desk.cfg.brokerReconciliationIntervalSeconds * (3 / 2) : ℚ) <
      (now - t : ℚ))

def armed : Bool := desk.cfg.enableBrokerOrders || desk.cfg.enableAutomatedExecution

/-- The portfolio of the last snapshot, synced where that is stale; none where the sync failed
    and orders could be sent. -/
def riskPortfolio : Prog (Option PortfolioRiskView) := do
  let port ← callService env desk.intraday.snapshot
  let w ← Eff.read
  if snapshotStale desk (env.now w.ticks) port.2 then
    exceptException (do
      callService env desk.feed.positionSync
      let again ← callService env desk.intraday.snapshot
      return some again.1) fun _ => pure (if armed desk then none else some port.1)
  else return some port.1

def intradayArgs (mode : IntradayOperationMode) (runId : String) (portfolio : PortfolioRiskView)
    (u : SessionUniverse) (c : IntradayCollected) : MaterializeArgs :=
  { portfolio, latestPrices := c.prices, dataQualityScore := c.quality,
    workflowId := some runId, createIntents := true,
    allowSubmit := mode.canSubmit && mode = .paperAutomated,
    entryUniverse := some u.entryUniverse, horizonBySymbol := u.horizons,
    blockNewEntries := false, marketSessionClear := true }

def materializes (mode : IntradayOperationMode) (cio : CIODecision) : Bool :=
  mode.canCreateIntent && !mode.intentsAreDraftOnly && cio.riskApproval

/-- The decision handed to the bridge, where mode and risk approval allow it. -/
def materializeIntraday (mode : IntradayOperationMode) (cio : CIODecision)
    (a : MaterializeArgs) : Prog (Option MaterializeResult) :=
  if materializes mode cio then
    some <$> materializeCioDecision env desk.cfg.toSettings desk.feed cio a
  else return none

def decideIntraday (k : SessionKey) (mode : IntradayOperationMode) (budget : ReanalysisState)
    (openSymbols : List String) (runId : String) (portfolio : PortfolioRiskView) :
    Prog AgentOutcome := do
  let u ← callService env desk.sessionUniverse
  let c ← callService env desk.intraday.collect
  let a ← callService env desk.committee
  callService env desk.audit
  let execution ← materializeIntraday env desk mode a.cio (intradayArgs mode runId portfolio u c)
  let w ← Eff.read
  let now := env.now w.ticks
  let recorded := recordOf desk.cfg runId now now budget
    (if openSymbols.isEmpty then ["PORTFOLIO"] else openSymbols) a execution
  editMeta k fun m => Dict.merge m recorded
  flushWith env id
  return .decided (committeeAction a.cio) mode execution recorded

/-- The body of the `try`. -/
def reanalyze (k : SessionKey) (mode : IntradayOperationMode) (budget : ReanalysisState)
    (openSymbols : List String) (runId : String) : Prog AgentOutcome := do
  let portfolio ← riskPortfolio env desk
  match portfolio with
  | none =>
    flushWith env id
    return .skipped "portfolio_sync_failed"
  | some portfolio => decideIntraday env desk k mode budget openSymbols runId portfolio

/-- `evaluate` once the mode allows an analysis. -/
def evaluateInBudget (k : SessionKey) (mode : IntradayOperationMode) (bypassCooldown : Bool) :
    Prog AgentOutcome := do
  let run ← loadedRun k
  let budget := loadReanalysisState (Dict.at run.metadata "reanalysis")
  let openSymbols ← callService env desk.intraday.openSymbols
  let horizons ← exceptException (callService env desk.intraday.horizons) fun _ => pure []
  let w ← Eff.read
  match reanalysisRefusal desk.cfg (if openSymbols.isEmpty then ["PORTFOLIO"] else openSymbols)
      bypassCooldown (env.now w.ticks) horizons budget with
  | some why => return .skipped why
  | none => do
    flushWith env id
    exceptException (reanalyze env desk k mode budget openSymbols (desk.newId w.ticks)) fun e => do
      flushWith env id
      -- Analysis failure must NOT cancel protection orders
      return .failed (takeChars 300 e.text)

/-- `IntradayAgentService.evaluate`. -/
def evaluate (k : SessionKey) (bypassCooldown : Bool) : Prog AgentOutcome := do
  let w ← Eff.read
  let mode := resolveMode desk.cfg (desk.feed.controls w.ticks).state
  if !mode.canAnalyze then return .skipped s!"mode:{mode.value}"
  else if !desk.cfg.enableIntradayAgentReanalysis then
    return .skipped "enable_intraday_agent_reanalysis_false"
  else evaluateInBudget env desk k mode bypassCooldown

end Agents

end Investor.Intraday
