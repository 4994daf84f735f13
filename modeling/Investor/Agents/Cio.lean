import Investor.Agents.Passes
import Investor.Agents.Sanitize

/-!
# The CIO agent and the end of the pipeline

One run of the CIO: the language model is called, its reply sanitized and validated, and a
reply that does not parse or validate is asked for once more on the cloud. A local model
that fails is replaced by the rules of `fallback_output`; a cloud one raises. Then the
passes follow.

The schema's `model_validate` is a parameter of the run (`CioAgent.validate`), and so is
what the model answers: any reply, at every call. The other agents' outputs are those of
`PassInputs`.
-/

namespace Investor.Agents

open Lib Schema Market Universe

inductive CioCall
  | raises (retried : Bool)
  | reply (content : Json)

structure CioAgent where
  validate : Dict Json → Option CIODecision
  llmIsLocal : Bool
  calls : ℕ → CioCall
  text : PyText
  freshId : String

inductive Turn
  | accepted (d : CIODecision)
  | retry
  | failed

section Agent

variable [Casing]

/-! ## The rules that stand in for a local model -/

/-- `_scoped_positions`. -/
def scopedPositions (x : PassInputs) : List PositionSnapshot :=
  let inScope := (x.allowlist.filter (· ≠ "")).map Casing.upper ++
    ((x.watchlist.map (·.symbol)).filter (· ≠ "")).map Casing.upper
  if inScope = [] then x.positions
  else x.positions.filter fun p => Casing.upper p.symbol ∈ inScope

/-- A plan the schema takes: its target and its confidence are percentages. -/
def checkedPlan (plan : SymbolActionPlan) : Option SymbolActionPlan :=
  if 0 ≤ plan.targetPositionPct ∧ plan.targetPositionPct ≤ 100 ∧ 0 ≤ plan.confidence ∧
      plan.confidence ≤ 100 then some plan
  else none

/-- `_close_plans`. -/
def closePlans (x : PassInputs) (thesis : String) : List SymbolActionPlan :=
  ((scopedPositions x).filter (·.quantity ≠ 0)).map fun pos =>
    { symbol := Casing.upper pos.symbol, action := .sell, confidence := 65, targetPositionPct := 0,
      orderType := .market, entryZone := none, stopLoss := none, takeProfit := [],
      timeHorizon := .intraday, thesis, invalidation := "n/a", maxHoldingTimeMinutes := none,
      entryTiming := none, entrySource := none, trendAtEntry := none }

/-- `_plan_for_position`. -/
def planForPosition (x : PassInputs) (pos : PositionSnapshot) (action : SymbolAction)
    (thesis horizon : String) (targetPct : ℚ) (stop : Option ℚ) (confidence : Int) :
    Option SymbolActionPlan :=
  checkedPlan
    { symbol := Casing.upper pos.symbol, action, confidence, targetPositionPct := targetPct,
      orderType := if action = .sell then .market else .limit, entryZone := none, stopLoss := stop,
      takeProfit := [], timeHorizon := policyTimeHorizon horizon, thesis,
      invalidation := match stop with
        | none => "n/a"
        | some s => s!"Stop {x.showRat s}",
      maxHoldingTimeMinutes := none, entryTiming := none, entrySource := none,
      trendAtEntry := none }

def fallbackPlan (x : PassInputs) (pos : PositionSnapshot) : Option SymbolActionPlan :=
  let sym := Casing.upper pos.symbol
  let hz := horizonForSymbol sym x.watchlist
  let book := playbookFor hz
  let label := (book.map (·.labelKo)).getD hz
  match Dict.get? (bySymbol (·.symbol) x.views) sym, book with
  | some view, some _ =>
    let decision := exitAction hz view (positionEntryLast pos).2 (positionEntryLast pos).1
      (positionAgeSeconds pos x.now)
    let action := symbolActionForExit decision
    let target := match decision with
      | .sell => 0
      | .reduce => |pos.weightPct| * (1 / 2)
      | .hold => |pos.weightPct|
    planForPosition x pos action
      s!"{label}: {decision.value} on {view.trendState.value}/{view.momentumState.value}" hz target
      (if action = .hold then none else view.stopOrInvalidation)
      ⌊view.probabilityEstimate * 100⌋
  | _, _ =>
    planForPosition x pos .hold s!"{label}: maintain existing (no book tape)" hz |pos.weightPct| none
      55

def checkedDecision (d : CIODecision) : Option CIODecision :=
  if 0 ≤ d.cashTargetPct ∧ d.cashTargetPct ≤ 100 ∧ d.honorRiskVeto then some d else none

/-- `fallback_output`; `none` for a `ValidationError`. -/
def fallbackOutput (x : PassInputs) (freshId : String) : Option CIODecision := do
  let hedge := x.regime = .riskOff || x.regime = .strongRiskOff
  if x.risk.riskOk then
    let plans ← ((scopedPositions x).filter fun p => ¬ |p.quantity| < 1 / 10 ^ 9).mapM
      (fallbackPlan x)
    let trades := plans.any fun p => p.action.isBuyEntry || p.action.isExit
    checkedDecision
      { decisionId := freshId, timestamp := x.now, marketRegime := x.regime,
        portfolioAction := portfolioActionFromSymbolActions plans, symbolActions := plans,
        cashTargetPct := cashTargetAfterPlans x.cashPct x.minCashPct plans, hedgeRequired := hedge,
        riskApproval := true, riskConditions := x.risk.hardVetoes,
        reasonNotToTrade :=
          if plans = [] then some "No actionable book setup (scalp/day/short)"
          else if trades then none
          else some "No actionable quant entry zone",
        hardVetoHonored := true }
  else
    checkedDecision
      { decisionId := freshId, timestamp := x.now, marketRegime := x.regime,
        portfolioAction := .stayCash,
        symbolActions := closePlans x "Fallback CIO: risk blocked — flatten existing positions",
        cashTargetPct := 100, hedgeRequired := hedge, riskApproval := false,
        riskConditions := x.risk.hardVetoes,
        reasonNotToTrade := some "Risk blocked — no new entries", hardVetoHonored := true }

/-! ## One run of the agent -/

def readReply (agent : CioAgent) : CioCall → Turn
  | .raises true => .retry
  | .raises false => .failed
  | .reply (.obj data) =>
    match sanitizeForModel agent.text data with
    | .error _ => .failed
    | .ok data =>
      match agent.validate (Dict.setDefault data "timestamp" (.str agent.text.now)) with
      | some d => .accepted d
      | none => .retry
  | .reply _ => .retry

/-- The attempts of `_run_validated`, from the call of the given number on. -/
def runAttempts (agent : CioAgent) : ℕ → ℕ → Option CIODecision
  | 0, _ => none
  | attempts + 1, i =>
    match readReply agent (agent.calls i) with
    | .accepted d => some d
    | .retry => runAttempts agent attempts (i + 1)
    | .failed => none

/-- `repair_attempts_for` of the CIO's role. -/
def CioAgent.repairAttempts (agent : CioAgent) : ℕ := if agent.llmIsLocal then 1 else 2

/-- `_run_validated`. -/
def runValidated (agent : CioAgent) : Option CIODecision :=
  runAttempts agent agent.repairAttempts 0

/-- `run`. -/
def CioAgent.run (agent : CioAgent) (x : PassInputs) : Option CIODecision :=
  match runValidated agent with
  | some d => some d
  | none => if agent.llmIsLocal then fallbackOutput x agent.freshId else none

/-- `run_from_collection` from the CIO's run on. -/
def runFromCollection (agent : CioAgent) (x : PassInputs) : Option CIODecision := do
  let d ← agent.run x
  x.passes d

end Agent

/-! ## A strict reader

A `validate` for concrete replies: every field has to be of its own type already, as it is
in a reply that needs no coercion. The timestamp is not read. -/

section Reader

def readEnum {α : Type} (members : List α) (value : α → String) : Json → Option α
  | .str s => members.find? fun a => value a = s
  | _ => none

def readText : Json → Option String
  | .str s => some (strip s)
  | _ => none

def readNum : Json → Option ℚ
  | .num q => some q
  | _ => none

def readBool : Json → Option Bool
  | .bool b => some b
  | _ => none

/-- An optional field: absent and `null` are `None`. -/
def readOptional {α : Type} (read : Json → Option α) : Json → Option (Option α)
  | .null => some none
  | j => (read j).map some

def readList {α : Type} (read : Json → Option α) : Json → Option (List α)
  | .arr items => items.mapM read
  | _ => none

def readZone : Json → Option PriceZone
  | .obj zone => do
    let min ← readNum (Dict.at zone "min")
    let max ← readNum (Dict.at zone "max")
    return { min, max }
  | _ => none

def SYMBOL_ACTIONS : List SymbolAction :=
  [.strongBuy, .buy, .scaleIn, .hold, .reduce, .partialSell, .sell, .hedge, .stayCash, .noTrade]

def readPlan : Json → Option SymbolActionPlan
  | .obj plan => do
    let symbol ← readText (Dict.at plan "symbol")
    let action ← readEnum SYMBOL_ACTIONS SymbolAction.value (Dict.at plan "action")
    let confidence ← readNum (Dict.at plan "confidence")
    let targetPositionPct ← readNum (Dict.at plan "target_position_pct")
    let orderType ← readEnum [.market, .limit, .stop, .stopLimit] OrderType.value
      (Dict.at plan "order_type")
    let entryZone ← readOptional readZone (Dict.at plan "entry_zone")
    let stopLoss ← readOptional readNum (Dict.at plan "stop_loss")
    let takeProfit ← readList readNum (Dict.at plan "take_profit")
    let timeHorizon ← readEnum [.intraday, .swing, .position]
      (fun h => match h with
        | .intraday => "intraday"
        | .swing => "swing"
        | .position => "position") (Dict.at plan "time_horizon")
    let thesis ← readText (Dict.at plan "thesis")
    let invalidation ← readText (Dict.at plan "invalidation")
    let read : SymbolActionPlan :=
      { symbol, action, confidence := ⌊confidence⌋, targetPositionPct, orderType, entryZone,
        stopLoss, takeProfit, timeHorizon, thesis, invalidation, maxHoldingTimeMinutes := none,
        entryTiming := none, entrySource := none, trendAtEntry := none }
    if (⌊confidence⌋ : ℚ) = confidence ∧ read.requireExitForEntries then checkedPlan read else none
  | _ => none

def readDecision (data : Dict Json) : Option CIODecision := do
  let marketRegime ← readEnum [.strongRiskOn, .riskOn, .neutral, .riskOff, .strongRiskOff,
      .insufficientData]
    (fun r => match r with
      | .strongRiskOn => "STRONG_RISK_ON"
      | .riskOn => "RISK_ON"
      | .neutral => "NEUTRAL"
      | .riskOff => "RISK_OFF"
      | .strongRiskOff => "STRONG_RISK_OFF"
      | .insufficientData => "INSUFFICIENT_DATA") (Dict.at data "market_regime")
  let portfolioAction ← readEnum [.strongBuy, .buy, .scaleIn, .hold, .reduce, .partialSell, .sell,
    .hedge, .stayCash, .noTrade] PortfolioAction.value (Dict.at data "portfolio_action")
  let symbolActions ← readList readPlan (Dict.at data "symbol_actions")
  let cashTargetPct ← readNum (Dict.at data "cash_target_pct")
  let hedgeRequired ← readBool (Dict.at data "hedge_required")
  let riskApproval ← readBool (Dict.at data "risk_approval")
  let riskConditions ← readList readText (Dict.at data "risk_conditions")
  let reasonNotToTrade ← readOptional readText (Dict.at data "reason_not_to_trade")
  checkedDecision
    { decisionId := "d1", timestamp := 0, marketRegime, portfolioAction, symbolActions,
      cashTargetPct, hedgeRequired, riskApproval, riskConditions, reasonNotToTrade,
      hardVetoHonored := true }

/-- A cloud model that gives one reply at every call, read by the strict reader. -/
def cloudAgent (reply : List (String × Json)) : CioAgent :=
  { validate := readDecision, llmIsLocal := false, calls := fun _ => .reply (.obj reply),
    text := { str := fun _ => "", dumps := fun _ => "", now := "2026-01-02T15:00:00+00:00" },
    freshId := "d1" }

def onePlanReply (book action symbol : String) : List (String × Json) :=
  [("portfolio_action", .str book), ("market_regime", .str "NEUTRAL"),
    ("cash_target_pct", .num 50),
    ("symbol_actions", .arr [.obj [("symbol", .str symbol), ("action", .str action),
      ("confidence", .num 70), ("target_position_pct", .num 5), ("stop_loss", .num 95),
      ("thesis", .str "uptrend"), ("invalidation", .str "below 95")]])]

end Reader

end Investor.Agents
