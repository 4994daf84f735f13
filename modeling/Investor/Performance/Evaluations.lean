import Mathlib.Data.List.Dedup
import Mathlib.Data.List.MinMax
import Investor.Lib.Table
import Investor.Market.Venues
import Investor.Performance.Prices

/-!
# The evaluation of CIO decisions

`PerformanceService` scores the decisions of a period: one row for the book as a whole (`cio`) and
one for each plan (`cio_symbol`). A row whose horizon is not over is pending. The postmarket job
deletes the pending rows of its venue (`refreshPendingEvaluations`) and then evaluates, chunk by
chunk, what has no `cio` row yet (`evaluateDecisionsBatch`).

Lists and dictionaries of a stored payload are taken as the decision's own dump writes them; the
scores that a batch returns beside what it stores are left out.
-/

namespace Investor.Performance

open Lib Market

/-! ## Tables -/

/-- What is read of `CIODecisionRecord.payload`. -/
structure DecisionPayload where
  venue : Json
  bookVenue : Json
  symbolActions : List Json
  referencePrice : Json
  decisionPrice : Json
  horizonPrice : Json
  benchmarkReturn : Json
  symbolHorizonPrices : Dict Json

/-- `CIODecisionRecord`, the columns that are read. -/
structure CIODecisionRecord where
  decisionId : String
  workflowId : Option String
  decisionTimestamp : Int
  portfolioAction : String
  payload : DecisionPayload

/-- The `cio_decisions` table. -/
abbrev DecisionTable := KeyedTable CIODecisionRecord.decisionId

/-- `decision_type`. -/
inductive DecisionType
  | cio | cioSymbol
  deriving DecidableEq

inductive EvaluationStatus
  | pending | available | unavailable
  deriving DecidableEq

/-- `DecisionEvaluationRecord`. -/
structure DecisionEvaluationRecord where
  decisionId : String
  decisionType : DecisionType
  action : String
  symbol : Option String
  decisionPrice : ℚ
  evaluationHorizon : String
  priceAtHorizon : Option ℚ
  returnAfterDecision : Option ℚ
  benchmarkReturnAfterDecision : Option ℚ
  excessReturn : Option ℚ
  evaluatedAt : Int
  status : EvaluationStatus
  deriving DecidableEq

structure SetOrder where
  order : List String → List String
  perm : ∀ xs, (order xs).Perm xs.dedup

structure EvalEnv where
  cfg : Settings
  primaryBenchmark : Option String
  primaryBenchmarkAu : Option String
  now : Int
  snapshots : List MarketSnapshot
  /-- The horizon of each watchlist symbol, by the symbol in upper case. -/
  watchlistHorizon : Dict String
  /-- `_workflow_venues`. -/
  workflowVenues : Dict String
  sets : SetOrder

structure EvalScope where
  periodStart : Int
  periodEnd : Int
  venue : Option String

section Evaluation

-- `str` of a value that is no text
variable [Casing] (str : Json → String) (env : EvalEnv)

/-- `str(value or "")`. -/
def textOr (value : Json) : String :=
  if value.truthy then match value with
    | .str s => s
    | j => str j
  else ""

/-! ## Books and venues -/

def books : List String := ["scalp", "day", "short", "medium", "unknown"]

/-- `_CIO_TIME_TO_BOOK.get(th, "unknown")`. -/
def timeToBook (th : String) : String :=
  match th with
  | "intraday" => "day"
  | "swing" => "short"
  | "position" => "medium"
  | _ => "unknown"

def planSymbol (plan : Dict Json) : String := Casing.upper (textOr str (Dict.at plan "symbol"))

/-- `universe_horizon_for_plan`. -/
def universeHorizonForPlan (plan : Dict Json) : String :=
  let raw := (Dict.at plan "universe_horizon").orElse (Dict.at plan "horizon")
  let named := Casing.lower (strip (textOr str raw))
  let sym := planSymbol str plan
  let listed := (Dict.get? env.watchlistHorizon sym).map fun h => Casing.lower (strip h)
  if raw.truthy && books.contains named then named
  else match listed.filter fun h => sym ≠ "" && books.contains h with
    | some h => h
    | none => timeToBook (Casing.lower (strip (textOr str (Dict.at plan "time_horizon"))))

def plansOf (payload : DecisionPayload) : List (Dict Json) :=
  payload.symbolActions.filterMap fun
    | .obj plan => some plan
    | _ => none

def scoredPlans (payload : DecisionPayload) : List (Dict Json) :=
  (plansOf payload).filter fun plan => planSymbol str plan ≠ ""

def planSymbols (payload : DecisionPayload) : List String :=
  ((plansOf payload).filter fun plan => (Dict.at plan "symbol").truthy).map (planSymbol str)

/-- `_decision_book_venue`. -/
def decisionBookVenue (row : CIODecisionRecord) (symbol : Option String) : String :=
  let raw := row.payload.venue.orElse row.payload.bookVenue
  let named := Casing.upper (textOr str raw)
  if raw.truthy && (named = "US" || named = "AU") then named
  else match row.workflowId.bind (Dict.get? env.workflowVenues) with
    | some v => v
    | none =>
      match symbol.filter (· ≠ "") with
      | some s => (venueForSymbol s env.cfg none).value
      | none => (resolveVenue env.cfg).value

/-- `_cio_row_venue`. -/
def cioRowVenue (row : CIODecisionRecord) : String :=
  decisionBookVenue str env row (planSymbols str row.payload).head?

/-- `_benchmark_for_venue`. -/
def benchmarkForVenue (venue : String) : String :=
  if Casing.upper venue = "AU" then
    Casing.upper ((env.primaryBenchmarkAu.filter (· ≠ "")).getD "VAS")
  else Casing.upper ((env.primaryBenchmark.filter (· ≠ "")).getD "SPY")

/-- The book of the decision as a whole: the one most of its plans are in, those of an unknown
    book aside if there are others. -/
def primaryBook (payload : DecisionPayload) : String :=
  let horizons := (plansOf payload).map (universeHorizonForPlan str env)
  let nonUnknown := horizons.filter (· ≠ "unknown")
  let pickFrom := if nonUnknown = [] then horizons else nonUnknown
  (List.argmax (fun h => pickFrom.count h) (env.sets.order pickFrom)).getD "unknown"

/-! ## Rows -/

inductive EvalError
  /-- `float` of a benchmark return that is no number. -/
  | badNumber
  /-- `benchmark` is read after a loop over no rows. -/
  | unboundBenchmark
  deriving DecidableEq

def resolverOf (scope : EvalScope) : Resolver :=
  { now := env.now, historyStart := scope.periodStart - minutes (5 * 24 * 60),
    snapshots := env.snapshots }

def statusOf (price : ℚ) (horizon : ResolvedPrice) : EvaluationStatus :=
  if horizon.source = .pending then .pending
  else if horizon.price.isSome ∧ 0 < price then .available
  else .unavailable

def evaluationRow (decisionId : String) (decisionType : DecisionType) (action : String)
    (symbol : Option String) (book : String) (decision horizon : ResolvedPrice)
    (bench : Option ℚ) : DecisionEvaluationRecord :=
  let price := decision.price.getD 0
  let realized := if 0 < price then horizon.price.map fun hp => (hp - price) / price else none
  { decisionId, decisionType, action, symbol, decisionPrice := price,
    evaluationHorizon := evaluationHorizonLabel book, priceAtHorizon := horizon.price,
    returnAfterDecision := realized, benchmarkReturnAfterDecision := bench,
    excessReturn := realized.bind fun r => bench.map fun b => r - b,
    evaluatedAt := env.now, status := statusOf price horizon }

/-- The price that the payload names for the horizon of the book as a whole. -/
def portfolioExplicit (payload : DecisionPayload) : Option ℚ := explicitPrice payload.horizonPrice

/-- The price that the plan, or else the payload, names for the horizon of the plan. -/
def planExplicit (payload : DecisionPayload) (plan : Dict Json) : Option ℚ :=
  let raw := Dict.at plan "horizon_price"
  explicitPrice (if raw.isNull then Dict.at payload.symbolHorizonPrices (planSymbol str plan)
    else raw)

def planZone (plan : Dict Json) : Option (Dict Json) :=
  match Dict.at plan "entry_zone" with
  | .obj zone => some zone
  | _ => none

/-- The benchmark's return over the horizon of the book as a whole. -/
def portfolioBenchmark (scope : EvalScope) (row : CIODecisionRecord) :
    Except EvalError (Option ℚ) :=
  if row.payload.benchmarkReturn.isNull then
    .ok ((resolverOf env scope).benchmarkReturn (benchmarkForVenue env (cioRowVenue str env row))
      row.decisionTimestamp (primaryBook str env row.payload))
  else match row.payload.benchmarkReturn.float? with
    | some q => .ok (some q)
    | none => .error .badNumber

/-- The `cio` row. -/
def portfolioRow (scope : EvalScope) (row : CIODecisionRecord) (bench : Option ℚ) :
    DecisionEvaluationRecord :=
  let benchmark := benchmarkForVenue env (cioRowVenue str env row)
  let primary := primaryBook str env row.payload
  let decision := (resolverOf env scope).decisionPrice benchmark row.decisionTimestamp primary
    (explicitPrice (row.payload.referencePrice.orElse row.payload.decisionPrice)) none
  let horizon := (resolverOf env scope).horizonPrice benchmark row.decisionTimestamp primary
    (portfolioExplicit row.payload)
  evaluationRow env row.decisionId .cio row.portfolioAction
    (if decision.price.getD 0 = 0 then none else some benchmark) primary decision horizon bench

/-- The `cio_symbol` row of a plan. -/
def planRow (scope : EvalScope) (row : CIODecisionRecord) (bench : Option ℚ) (plan : Dict Json) :
    DecisionEvaluationRecord :=
  let sym := planSymbol str plan
  let hz := universeHorizonForPlan str env plan
  let decision := (resolverOf env scope).decisionPrice sym row.decisionTimestamp hz
    (explicitPrice (Dict.at plan "decision_price")) (planZone plan)
  let horizon := (resolverOf env scope).horizonPrice sym row.decisionTimestamp hz
    (planExplicit str row.payload plan)
  let planBench := bench.or ((resolverOf env scope).benchmarkReturn
    (benchmarkForVenue env (cioRowVenue str env row)) row.decisionTimestamp hz)
  evaluationRow env row.decisionId .cioSymbol
    (if (Dict.at plan "action").truthy then textOr str (Dict.at plan "action")
      else row.portfolioAction) (some sym) hz decision horizon planBench

def evaluateRow (scope : EvalScope) (row : CIODecisionRecord) :
    Except EvalError (List DecisionEvaluationRecord) :=
  match portfolioBenchmark str env scope row with
  | .error e => .error e
  | .ok bench =>
    .ok ((scoredPlans str row.payload).map (planRow str env scope row bench) ++
      [portfolioRow str env scope row bench])

/-! ## Batches -/

abbrev EvaluationTable := List DecisionEvaluationRecord

/-- The decision has a `cio` row, whatever its status. -/
def evaluated (evals : EvaluationTable) (decisionId : String) : Bool :=
  evals.any fun e => e.decisionId = decisionId && e.decisionType = .cio

/-- The candidates of `_cio_eval_selection`, newest first. -/
def evalCandidates (decisions : DecisionTable) (scope : EvalScope) (skipEvaluated : Bool)
    (evals : EvaluationTable) : List CIODecisionRecord :=
  let want := Casing.upper (scope.venue.getD "")
  (decisions.rows.filter fun row =>
      scope.periodStart ≤ row.decisionTimestamp ∧ row.decisionTimestamp ≤ scope.periodEnd ∧
        ¬ (skipEvaluated ∧ evaluated evals row.decisionId) ∧
        ((want = "US" ∨ want = "AU") → cioRowVenue str env row = want)).mergeSort
    fun a b => decide (b.decisionTimestamp ≤ a.decisionTimestamp)

/-- `_cio_eval_selection`: the rows it picks, and how many are left after them. -/
def cioEvalSelection (decisions : DecisionTable) (scope : EvalScope) (limit : ℕ)
    (skipEvaluated : Bool) (evals : EvaluationTable) : List CIODecisionRecord × ℕ :=
  let matched := evalCandidates str env decisions scope skipEvaluated evals
  (matched.take limit, matched.length - limit)

def deletePending (rows : List CIODecisionRecord) (evals : EvaluationTable) : EvaluationTable :=
  evals.filter fun e => ¬ ((rows.map (·.decisionId)).contains e.decisionId ∧ e.status = .pending)

/-- `refresh_pending_evaluations`. -/
def refreshPendingEvaluations (decisions : DecisionTable) (scope : EvalScope)
    (evals : EvaluationTable) : EvaluationTable :=
  deletePending (cioEvalSelection str env decisions scope 10000 false evals).1 evals

structure BatchResult where
  decisionsProcessed : ℕ
  remainingDecisions : ℕ
  deriving DecidableEq

def evaluateRows (scope : EvalScope) :
    List CIODecisionRecord → EvaluationTable → EvaluationTable × Option EvalError
  | [], evals => (evals, none)
  | row :: rows, evals =>
    match evaluateRow str env scope row with
    | .error e => (evals, some e)
    | .ok stored => evaluateRows scope rows (evals ++ stored)

/-- `evaluate_decisions_batch` with `persist`. -/
def evaluateDecisionsBatch (decisions : DecisionTable) (scope : EvalScope) (limit : ℕ)
    (skipEvaluated : Bool) (evals : EvaluationTable) :
    EvaluationTable × Except EvalError BatchResult :=
  let picked := cioEvalSelection str env decisions scope limit skipEvaluated evals
  match evaluateRows str env scope picked.1 (deletePending picked.1 evals) with
  | (stored, some e) => (stored, .error e)
  | (stored, none) =>
    if picked.1.isEmpty then (stored, .error .unboundBenchmark)
    else (stored, .ok { decisionsProcessed := picked.1.length, remainingDecisions := picked.2 })

end Evaluation

end Investor.Performance
