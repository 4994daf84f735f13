import Investor.Schema.Decision

/-!
# What the agents hand to the CIO

The parts of the Quant, Risk and portfolio records that the passes behind the CIO read.
A symbol is the text the record holds; every reader upper-cases it for itself. The
schemas strip their texts when they are read, so a symbol has no white space at its ends.
-/

namespace Investor.Schema

open Lib

inductive TrendState
  | strongUp | up | sideways | down | strongDown
  deriving DecidableEq

def TrendState.value : TrendState → String
  | .strongUp => "strong_up"
  | .up => "up"
  | .sideways => "sideways"
  | .down => "down"
  | .strongDown => "strong_down"

/-- `trend in {UP, STRONG_UP}`. -/
def TrendState.isUp : TrendState → Bool
  | .up | .strongUp => true
  | _ => false

/-- `trend in {DOWN, STRONG_DOWN}`. -/
def TrendState.isDown : TrendState → Bool
  | .down | .strongDown => true
  | _ => false

inductive MomentumState
  | accelerating | steady | decelerating | exhausted
  deriving DecidableEq

def MomentumState.value : MomentumState → String
  | .accelerating => "accelerating"
  | .steady => "steady"
  | .decelerating => "decelerating"
  | .exhausted => "exhausted"

inductive VolatilityState
  | low | normal | elevated | extreme
  deriving DecidableEq

inductive LiquidityState
  | ample | normal | tight | stressed
  deriving DecidableEq

def LiquidityState.value : LiquidityState → String
  | .ample => "ample"
  | .normal => "normal"
  | .tight => "tight"
  | .stressed => "stressed"

/-- `SymbolQuantView`. -/
structure SymbolQuantView where
  symbol : String
  trendState : TrendState
  momentumState : MomentumState
  volatilityState : VolatilityState
  liquidityState : LiquidityState
  support : Option ℚ
  resistance : Option ℚ
  entryZone : Option PriceZone
  stopOrInvalidation : Option ℚ
  probabilityEstimate : ℚ
  notes : List String
  entryTiming : Option String
  deriving DecidableEq

/-- `PositionSnapshot`. -/
structure PositionSnapshot where
  symbol : String
  quantity : ℚ
  marketValue : ℚ
  costBasis : ℚ
  weightPct : ℚ
  openedAt : Option Int
  deriving DecidableEq

def PositionSnapshot.isHeld (p : PositionSnapshot) : Bool := decide (1 / 10 ^ 9 < |p.quantity|)

structure WatchRow where
  symbol : String
  horizon : String
  deriving DecidableEq

/-- `RiskManagerOutput`. -/
structure RiskManagerOutput where
  overallVerdict : RiskVerdict
  hardVetoes : List String
  haltNewTrades : Bool
  deriving DecidableEq

/-- The `risk_ok` of the pipeline and of the fallback. -/
def RiskManagerOutput.riskOk (r : RiskManagerOutput) : Bool :=
  (match r.overallVerdict with
    | .approved | .conditional | .sizeReduced => true
    | .rejected | .haltDay => false) && !r.haltNewTrades

/-- The dictionary of the values by their upper-cased symbols: the last of a symbol wins,
    and a value without a symbol is left out. -/
def bySymbol {α : Type} [Casing] (symbolOf : α → String) (xs : List α) : Dict α :=
  Dict.ofPairs ((xs.filter (symbolOf · ≠ "")).map fun x => (Casing.upper (symbolOf x), x))

end Investor.Schema
