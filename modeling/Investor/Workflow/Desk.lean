import Investor.Core.Scheduler
import Investor.Execution.FirmExecution
import Investor.Execution.ValidationBatch

/-!
# The ground the daily workflow stands on

`DailyWorkflowService` works on the run of its venue's session through one database session,
and calls services that are not modelled: the calendar, the portfolio, the universe, the data
collection, the agent committee, the audit, the position monitor and the job rows. They are
collected in `Desk`; a call of several of them in a row with nothing of the run in between is
one call here.

The rest of this file is what the operations are written in. A flush goes through with the rows
it inserts or takes the whole transaction back, also where it is cancelled (`flushWith`), and a
run whose transaction was taken back cannot be read any more (`loadedRun`). Instants are whole
seconds, stored in the metadata as `stamp`s.
-/

namespace Investor.Workflow

open Lib Schema Market Risk Core Execution

/-! ## Settings and services -/

/-- The settings the daily workflow reads beside those of `Settings`. -/
structure WorkflowSettings extends Settings where
  maxRevalidationRetries : Int
  analysisDecisionTtlMinutes : Int
  premarketAnalysisMinutesBeforeOpen : Int
  preopenRevalidationMinutesBeforeOpen : Int
  minReevaluationGapMinutes : Int
  workflowLeaseSeconds : ℕ
  llmIsLocal : Bool
  enableIntradayMonitoring : Bool
  enableIntradayAgentReanalysis : Bool
  intradayOperationMode : String
  paperRelaxedDataGates : Bool
  intradayMinReevalSeconds : Int
  maxIntradayReanalyses : Int
  maxIntradayReanalysesLocal : Int
  maxSymbolReanalysesPerDay : Int
  brokerReconciliationIntervalSeconds : Int

/-- `get_market_status`. -/
structure MarketStatus where
  phase : String
  isTradingDay : Bool
  inClosingWindow : Bool
  inForceCloseWindow : Bool
  minutesToOpen : Option ℚ
  deriving DecidableEq

/-- `MarketCalendarService` of the venue. -/
structure Calendar where
  marketDay : Int → Int
  isTradingDay : Int → Bool
  status : Int → MarketStatus

structure SessionUniverse where
  entryUniverse : List String
  horizons : Dict String
  collectSymbols : List String

structure Collected where
  collectionRunId : String
  failClosed : Bool
  failClosedReasons : List String
  collectionFailClosed : Bool
  prices : Dict ℚ
  quality : ℚ
  qualitySummary : Json
  marketEvents : List Json

structure Analysis where
  completedAt : Int
  cio : CIODecision
  riskVerdict : String

structure BusEvent where
  id : String
  eventType : String
  deriving DecidableEq

structure NewsIngest where
  published : Json
  scanned : Json
  eventIds : List String

structure MonitorTick where
  summary : Json
  /-- Some verdict asks for the committee. -/
  escalates : Bool
  pending : List BusEvent

structure IntradayCollected where
  prices : Dict ℚ
  quality : ℚ

structure IntradayFeed where
  /-- `fold_session_residue`: what it marked, if anything. -/
  foldResidue : Nat → ServiceAnswer (Option Json)
  newsIngest : Nat → ServiceAnswer NewsIngest
  monitorPrices : Nat → ServiceAnswer (Dict ℚ)
  monitor : Nat → ServiceAnswer MonitorTick
  drainEvents : Nat → ServiceAnswer (List BusEvent)
  markEvents : Nat → ServiceAnswer Unit
  /-- `run_closing`, by whether it is called for the closing window. -/
  runClosing : Bool → Nat → ServiceAnswer Json
  /-- The minutes an interval trigger has to wait for. -/
  needGapMinutes : Nat → ServiceAnswer ℚ
  openSymbols : Nat → ServiceAnswer (List String)
  horizons : Nat → ServiceAnswer (Dict String)
  /-- The portfolio of the last snapshot, and the snapshot's instant. -/
  snapshot : Nat → ServiceAnswer (PortfolioRiskView × Option Int)
  collect : Nat → ServiceAnswer IntradayCollected

/-- What the service is constructed with, and what it hears from the services it calls. -/
structure Desk where
  cfg : WorkflowSettings
  venue : Venue
  calendarName : String
  owner : String
  calendar : Calendar
  /-- `uuid4`. -/
  newId : Nat → String
  feed : FirmFeed
  portfolio : Nat → ServiceAnswer PortfolioRiskView
  sessionUniverse : Nat → ServiceAnswer SessionUniverse
  collect : Nat → ServiceAnswer Collected
  committee : Nat → ServiceAnswer Analysis
  audit : Nat → ServiceAnswer Unit
  /-- The job rows: planning answers the interval, the others that they are done. -/
  planJobs : Nat → ServiceAnswer Int
  jobRows : Nat → ServiceAnswer Unit
  misaligned : Nat → ServiceAnswer Bool
  intraday : IntradayFeed
  /-- Overnight review, settlement, reviews and evaluations: each answers what it reports. -/
  report : Nat → ServiceAnswer Json

/-! ## Stored instants -/

/-- `now.isoformat()`. -/
def stamp (t : Int) : Json := .obj [("instant", .num t)]

/-- `datetime.fromisoformat(str(value))`, `none` for the `ValueError`. -/
def stamp? : Json → Option Int
  | .obj [("instant", .num q)] => some ⌊q⌋
  | _ => none

@[simp] theorem stamp?_stamp (t : Int) : stamp? (stamp t) = some t := by
  simp [stamp, stamp?]

@[simp] theorem truthy_stamp (t : Int) : (stamp t).truthy = true := rfl

/-! ## Rows -/

def setRun (k : SessionKey) (f : DailyWorkflowRun → DailyWorkflowRun)
    (hf : ∀ r, (f r).session = r.session) (t : Tables) : Tables :=
  { t with
    runs := t.runs.update (fun r => if r.session = k then f r else r)
      (fun r => by split <;> simp [hf]) }

/-- A `LeaseError`. -/
def leaseError (message : String) : Fault := .other ("LeaseError:" ++ message)

def isLeaseError : Fault → Bool
  | .other message => hasPrefix message "LeaseError:"
  | _ => false

section Programs

variable (env : Env)

/-- `session.flush()` of pending changes: they go through together, or the transaction is
    taken back. -/
def flushWith (f : Tables → Tables) : Prog Unit := do
  let w ← Eff.read
  if w.db.broken then throw (.other "PendingRollbackError")
  else do
    let ended ← Eff.attempt (suspend env)
    let w ← Eff.read
    match ended with
    | .error e =>
      abort
      throw e
    | .ok () =>
      if env.flushFails w.ticks then do
        abort
        throw (.other "flush failed")
      else write f

/-- The run the code holds; after a failed flush its attributes cannot be read. -/
def loadedRun (k : SessionKey) : Prog DailyWorkflowRun := do
  let w ← Eff.read
  if w.db.broken then throw (.other "PendingRollbackError")
  else match w.db.working.runs.find? k with
    | some run => return run
    | none => throw (.other "ObjectDeletedError")

def assignRun (k : SessionKey) (f : DailyWorkflowRun → DailyWorkflowRun)
    (hf : ∀ r, (f r).session = r.session) : Prog Unit := do
  let _ ← loadedRun k
  write (setRun k f hf)

/-- `meta = dict(run.metadata_json)`, changed and assigned back. -/
def editMeta (k : SessionKey) (f : Dict Json → Dict Json) : Prog Unit :=
  assignRun k (fun r => { r with metadata := f r.metadata }) fun _ => rfl

/-- `get_current`. -/
def getCurrent (k : SessionKey) : Prog (Option DailyWorkflowRun) :=
  query env fun t => t.runs.find? k

/-- `_require_run`. -/
def requireRun (k : SessionKey) : Prog DailyWorkflowRun := do
  let found ← getCurrent env k
  match found with
  | some run => return run
  | none => throw (.workflow "daily_workflow_not_prepared")

/-- `_transition`. -/
def transition (k : SessionKey) (fromState toState : DailyWorkflowState)
    (trigger reason : String) : Prog Unit :=
  flushWith env (setRun k (·.record { fromState, toState, trigger, reason }) fun _ => rfl)

/-- `_set_state`. -/
def setState (k : SessionKey) (toState : DailyWorkflowState) (trigger reason : String) :
    Prog Unit := do
  let run ← loadedRun k
  if Allowed run.currentState toState then do
    transition env k run.currentState toState trigger reason
    write (setRun k (·.assign toState reason) fun _ => rfl)
    flushWith env id
  else throw (.other s!"illegal_transition:{run.currentState.value}->{toState.value}")

def whenIn (k : SessionKey) (state : DailyWorkflowState) (p : Prog Unit) : Prog Unit := do
  let run ← loadedRun k
  if run.currentState = state then p else return ()

/-- `try … finally`. -/
def finallyDo {α : Type} (p : Prog α) (after : Prog Unit) : Prog α := do
  let ended ← Eff.attempt p
  after
  match ended with
  | .ok a => return a
  | .error e => throw e

/-! ## Leases -/

def freshLeaseId (t : Tables) : Nat := (t.leases.map (·.2.id)).foldl max 0 + 1

variable (desk : Desk)

/-- `LeaseService.acquire`. -/
def acquireLease (key : String) : Prog Unit := do
  let start ← Eff.read
  let now := env.now start.ticks
  let seen ← query env fun t => Dict.get? t.leases key
  let w ← Eff.read
  let call : Pending := { call := .acquire, seen, readAt := now }
  let granted := grantedRow (fun _ => desk.owner) desk.cfg.workflowLeaseSeconds () call
  match seen, call.target (fun _ => desk.owner) () with
  | some row, none => throw (leaseError s!"lease_held_by:{row.owner}")
  | some row, some _ =>
    -- Expired or same owner — take over
    flushWith env fun t => { t with leases := Dict.set t.leases key (granted row.id) }
  | none, _ =>
    let id := freshLeaseId w.db.working
    flushWith env fun t => { t with leases := Dict.set t.leases key (granted id) }

/-- `LeaseService.release`. -/
def releaseLease (key : String) : Prog Unit := do
  let seen ← query env fun t => Dict.get? t.leases key
  match seen with
  | none => return ()
  | some row =>
    if row.owner ≠ desk.owner then throw (leaseError "lease_owner_mismatch")
    else flushWith env fun t => { t with leases := Dict.erase t.leases key }

/-- The release of a `finally`: a `LeaseError` is passed over. -/
def releaseQuietly (key : String) : Prog Unit :=
  tryCatch (releaseLease env desk key) fun e => if isLeaseError e then pure () else throw e

def underLease {α : Type} (key : String) (p : Prog α) : Prog α := do
  acquireLease env desk key
  finallyDo p (releaseQuietly env desk key)

/-- `_assert_not_blocked`. -/
def assertNotBlocked (run : DailyWorkflowRun) : Prog Unit := do
  let w ← Eff.read
  let state := (desk.feed.controls w.ticks).state
  if state = .emergencyStop ∨ run.currentState = .emergencyStop then
    throw (.workflow "emergency_stop_active")
  else if state = .paused ∨ run.currentState = .paused then throw (.workflow "workflow_paused")
  else return ()

end Programs

/-! ## A desk that answers -/

section SampleDesk

def paperSettings : WorkflowSettings :=
  { toSettings := { mockSettings with enableAutomatedExecution := true, enableExternalData := true }
    maxRevalidationRetries := 1, analysisDecisionTtlMinutes := 180,
    premarketAnalysisMinutesBeforeOpen := 120, preopenRevalidationMinutesBeforeOpen := 10,
    minReevaluationGapMinutes := 15, workflowLeaseSeconds := 300, llmIsLocal := false,
    enableIntradayMonitoring := true, enableIntradayAgentReanalysis := true,
    intradayOperationMode := "PAPER_AUTOMATED", paperRelaxedDataGates := true,
    intradayMinReevalSeconds := 300, maxIntradayReanalyses := 12,
    maxIntradayReanalysesLocal := 180, maxSymbolReanalysesPerDay := 6,
    brokerReconciliationIntervalSeconds := 60 }

def regularSession : MarketStatus :=
  { phase := "REGULAR", isTradingDay := true, inClosingWindow := false,
    inForceCloseWindow := false, minutesToOpen := none }

def quietIntraday : IntradayFeed :=
  { foldResidue := fun _ => answers none
    newsIngest := fun _ => answers { published := .null, scanned := .null, eventIds := [] }
    monitorPrices := fun _ => answers []
    monitor := fun _ => answers { summary := .null, escalates := false, pending := [] }
    drainEvents := fun _ => answers [], markEvents := fun _ => answers ()
    runClosing := fun _ _ => answers .null, needGapMinutes := fun _ => answers 15
    openSymbols := fun _ => answers [], horizons := fun _ => answers []
    snapshot := fun _ => answers (bookOf 5000 [], some 0)
    collect := fun _ => answers { prices := [("AAPL", 100)], quality := 1 } }

def deskDeciding (cio : CIODecision) : Desk :=
  { cfg := paperSettings, venue := .us, calendarName := "NYSE", owner := "daily-workflow"
    calendar := { marketDay := fun t => t / 86400, isTradingDay := fun _ => true
                  status := fun _ => regularSession }
    newId := fun _ => "run"
    feed := { controls := fun _ => freshWorld.controls, engine := mockValidator.engine
              closePnls := fun _ => answers [], quotes := fun _ _ => answers []
              positionSync := fun _ => answers () }
    portfolio := fun _ => answers (bookOf 5000 [])
    sessionUniverse := fun _ =>
      answers { entryUniverse := ["AAPL"], horizons := [], collectSymbols := ["AAPL"] }
    collect := fun _ => answers
      { collectionRunId := "collection", failClosed := false, failClosedReasons := []
        collectionFailClosed := false, prices := [("AAPL", 100)], quality := 1
        qualitySummary := .null, marketEvents := [] }
    committee := fun _ => answers { completedAt := 0, cio, riskVerdict := "APPROVED" }
    audit := fun _ => answers (), planJobs := fun _ => answers 15, jobRows := fun _ => answers ()
    misaligned := fun _ => answers false, intraday := quietIntraday
    report := fun _ => answers .null }

end SampleDesk

end Investor.Workflow
