import Mathlib.Data.Rat.Floor
import Investor.Lib.Json

/-!
# The CIO decision and its parts

The enumerations of `schemas/common.py` and the two records of `schemas/cio.py` that
travel from the agent pipeline to the execution validator. Prices and percentages are
rationals. A plan's symbol is the text the agent wrote: every reader upper-cases it for
itself.
-/

namespace Investor.Schema

open Lib

inductive MarketRegime
  | strongRiskOn | riskOn | neutral | riskOff | strongRiskOff | insufficientData
  deriving DecidableEq

inductive PortfolioAction
  | strongBuy | buy | scaleIn | hold | reduce | partialSell | sell | hedge | stayCash | noTrade
  deriving DecidableEq

inductive SymbolAction
  | strongBuy | buy | scaleIn | hold | reduce | partialSell | sell | hedge | stayCash | noTrade
  deriving DecidableEq

def SymbolAction.value : SymbolAction → String
  | .strongBuy => "STRONG_BUY"
  | .buy => "BUY"
  | .scaleIn => "SCALE_IN"
  | .hold => "HOLD"
  | .reduce => "REDUCE"
  | .partialSell => "PARTIAL_SELL"
  | .sell => "SELL"
  | .hedge => "HEDGE"
  | .stayCash => "STAY_CASH"
  | .noTrade => "NO_TRADE"

def PortfolioAction.value : PortfolioAction → String
  | .strongBuy => "STRONG_BUY"
  | .buy => "BUY"
  | .scaleIn => "SCALE_IN"
  | .hold => "HOLD"
  | .reduce => "REDUCE"
  | .partialSell => "PARTIAL_SELL"
  | .sell => "SELL"
  | .hedge => "HEDGE"
  | .stayCash => "STAY_CASH"
  | .noTrade => "NO_TRADE"

theorem SymbolAction.value_injective : Function.Injective SymbolAction.value := by
  intro a b h
  cases a <;> cases b <;> first | rfl | exact absurd h (by decide)

theorem SymbolAction.colon_not_mem_value (a : SymbolAction) : ':' ∉ a.value.toList := by
  cases a <;> decide

inductive OrderType
  | market | limit | stop | stopLimit
  deriving DecidableEq

def OrderType.value : OrderType → String
  | .market => "market"
  | .limit => "limit"
  | .stop => "stop"
  | .stopLimit => "stop_limit"

inductive TimeHorizon
  | intraday | swing | position
  deriving DecidableEq

inductive RiskVerdict
  | approved | conditional | sizeReduced | rejected | haltDay
  deriving DecidableEq

/-- `PriceZone`. -/
structure PriceZone where
  min : ℚ
  max : ℚ
  deriving DecidableEq

/-- `SymbolActionPlan`. -/
structure SymbolActionPlan where
  symbol : String
  action : SymbolAction
  confidence : Int
  targetPositionPct : ℚ
  orderType : OrderType
  entryZone : Option PriceZone
  stopLoss : Option ℚ
  takeProfit : List ℚ
  timeHorizon : TimeHorizon
  thesis : String
  invalidation : String
  maxHoldingTimeMinutes : Option Int
  entryTiming : Option String
  entrySource : Option String
  trendAtEntry : Option String
  deriving DecidableEq

/-- `CIODecision`, without its trace. -/
structure CIODecision where
  decisionId : String
  timestamp : Int
  marketRegime : MarketRegime
  portfolioAction : PortfolioAction
  symbolActions : List SymbolActionPlan
  cashTargetPct : ℚ
  hedgeRequired : Bool
  riskApproval : Bool
  riskConditions : List String
  reasonNotToTrade : Option String
  hardVetoHonored : Bool
  deriving DecidableEq

/-! ## The action groups

The validator's `ENTRY_ACTIONS` hold `HEDGE`; the schema's entry test and the passes of
the agent pipeline leave it out. -/

/-- `ENTRY_ACTIONS` of the execution validator. -/
def SymbolAction.isEntry : SymbolAction → Bool
  | .strongBuy | .buy | .scaleIn | .hedge => true
  | _ => false

/-- `EXIT_ACTIONS`. -/
def SymbolAction.isExit : SymbolAction → Bool
  | .sell | .partialSell | .reduce => true
  | _ => false

/-- The entries of the schema validators and of the agent passes. -/
def SymbolAction.isBuyEntry : SymbolAction → Bool
  | .strongBuy | .buy | .scaleIn => true
  | _ => false

/-- `{HOLD, NO_TRADE, STAY_CASH}`: information, not an order. -/
def SymbolAction.isInformational : SymbolAction → Bool
  | .hold | .noTrade | .stayCash => true
  | _ => false

/-- `RISK_INCREASING_PORTFOLIO`. -/
def PortfolioAction.isRiskIncreasing : PortfolioAction → Bool
  | .strongBuy | .buy | .scaleIn | .hedge => true
  | _ => false

/-- `ANALYSIS_ONLY_PORTFOLIO`. -/
def PortfolioAction.isAnalysisOnly : PortfolioAction → Bool
  | .noTrade | .hold => true
  | _ => false

theorem SymbolAction.group (a : SymbolAction) :
    (a.isEntry ∧ ¬ a.isExit ∧ ¬ a.isInformational) ∨
    (¬ a.isEntry ∧ a.isExit ∧ ¬ a.isInformational) ∨
    (¬ a.isEntry ∧ ¬ a.isExit ∧ a.isInformational) := by
  cases a <;> decide

variable {a : SymbolAction}

theorem SymbolAction.not_isExit_of_isEntry (h : a.isEntry) : ¬ a.isExit := by
  rcases a.group with hg | hg | hg
  · exact hg.2.1
  · exact absurd h hg.1
  · exact absurd h hg.1

theorem SymbolAction.not_isEntry_of_isExit (h : a.isExit) : ¬ a.isEntry :=
  fun hentry => not_isExit_of_isEntry hentry h

theorem SymbolAction.not_isInformational_of_isEntry (h : a.isEntry) : ¬ a.isInformational := by
  rcases a.group with hg | hg | hg
  · exact hg.2.2
  · exact absurd h hg.1
  · exact absurd h hg.1

theorem SymbolAction.not_isInformational_of_isExit (h : a.isExit) : ¬ a.isInformational := by
  rcases a.group with hg | hg | hg
  · exact absurd h hg.2.1
  · exact hg.2.2
  · exact absurd h hg.2.1

theorem SymbolAction.isEntry_of_not (hexit : ¬ a.isExit) (hinf : ¬ a.isInformational) :
    a.isEntry := by
  rcases a.group with hg | hg | hg
  · exact hg.1
  · exact absurd hg.2.1 hexit
  · exact absurd hg.2.2 hinf

theorem SymbolAction.isEntry_of_isBuyEntry (h : a.isBuyEntry) : a.isEntry := by
  cases a <;> first | rfl | cases h

/-! ## What the schema validators reject

`_require_exit_for_entries` and `_honor_risk_veto` raise; here they are the conditions
under which they do not. -/

/-- `SymbolActionPlan._require_exit_for_entries`. -/
def SymbolActionPlan.requireExitForEntries (p : SymbolActionPlan) : Bool :=
  !(p.action.isBuyEntry && p.stopLoss.isNone && strip p.invalidation == "")

/-- `CIODecision._honor_risk_veto`. -/
def CIODecision.honorRiskVeto (d : CIODecision) : Bool :=
  d.riskApproval ||
    (!d.portfolioAction.isRiskIncreasing && d.symbolActions.all (!·.action.isBuyEntry))

/-! ## A sample plan and decision -/

def planOf (symbol : String) (action : SymbolAction) : SymbolActionPlan :=
  { symbol, action, confidence := 70, targetPositionPct := 10, orderType := .market,
    entryZone := none, stopLoss := some 95, takeProfit := [], timeHorizon := .swing,
    thesis := "thesis", invalidation := "below 95", maxHoldingTimeMinutes := none,
    entryTiming := none, entrySource := none, trendAtEntry := none }

def decisionOf (action : PortfolioAction) (plans : List SymbolActionPlan) : CIODecision :=
  { decisionId := "d1", timestamp := 0, marketRegime := .neutral, portfolioAction := action,
    symbolActions := plans, cashTargetPct := 10, hedgeRequired := false, riskApproval := true,
    riskConditions := [], reasonNotToTrade := none, hardVetoHonored := true }

end Investor.Schema
