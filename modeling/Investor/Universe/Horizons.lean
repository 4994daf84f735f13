import Investor.Schema.Agents

/-!
# Trade horizons: policies, playbooks, and the caps per book

Four books, each with a holding policy (`horizons.py`) and a playbook of entry and exit
rules (`book_strategy.py`). A horizon is a text in the watchlist, so a lookup can miss:
`policyFor` is the policy of a text that is exactly a member's value, `playbookFor`
folds the text first.
-/

namespace Investor.Universe

open Lib Schema

inductive UniverseHorizon
  | scalp | day | short | medium
  deriving DecidableEq

def UniverseHorizon.value : UniverseHorizon → String
  | .scalp => "scalp"
  | .day => "day"
  | .short => "short"
  | .medium => "medium"

/-- `UniverseHorizon(text)`, `none` for the `ValueError`. -/
def UniverseHorizon.ofValue (text : String) : Option UniverseHorizon :=
  if text = "scalp" then some .scalp
  else if text = "day" then some .day
  else if text = "short" then some .short
  else if text = "medium" then some .medium
  else none

@[simp] theorem UniverseHorizon.ofValue_value (h : UniverseHorizon) :
    UniverseHorizon.ofValue h.value = some h := by
  cases h <;> decide

/-- `HorizonPolicy`. -/
structure HorizonPolicy where
  horizon : UniverseHorizon
  labelKo : String
  maxHoldingMinutes : Option Int
  reevalSeconds : ℚ
  riskPerTradeMult : ℚ
  maxPositions : ℕ
  cioTimeHorizon : TimeHorizon
  stopAtrMult : ℚ
  stopPctFallback : ℚ
  minStopPct : ℚ
  overnightDefault : Bool
  overnightEventStrict : Bool
  deriving DecidableEq

/-- `HORIZON_POLICIES`. -/
def horizonPolicy : UniverseHorizon → HorizonPolicy
  | .scalp =>
    { horizon := .scalp, labelKo := "초단타", maxHoldingMinutes := some 240,
      reevalSeconds := 120, riskPerTradeMult := 3 / 10, maxPositions := 2,
      cioTimeHorizon := .intraday, stopAtrMult := 1, stopPctFallback := 1 / 100,
      minStopPct := 5 / 1000, overnightDefault := false, overnightEventStrict := true }
  | .day =>
    { horizon := .day, labelKo := "단타", maxHoldingMinutes := some 390,
      reevalSeconds := 300, riskPerTradeMult := 3 / 10, maxPositions := 3,
      cioTimeHorizon := .intraday, stopAtrMult := 3 / 2, stopPctFallback := 15 / 1000,
      minStopPct := 8 / 1000, overnightDefault := false, overnightEventStrict := true }
  | .short =>
    { horizon := .short, labelKo := "단기", maxHoldingMinutes := some (10 * 24 * 60),
      reevalSeconds := 900, riskPerTradeMult := 3 / 10, maxPositions := 4,
      cioTimeHorizon := .swing, stopAtrMult := 5 / 2, stopPctFallback := 3 / 100,
      minStopPct := 15 / 1000, overnightDefault := true, overnightEventStrict := true }
  | .medium =>
    { horizon := .medium, labelKo := "중기", maxHoldingMinutes := some (60 * 24 * 60),
      reevalSeconds := 3600, riskPerTradeMult := 1, maxPositions := 5,
      cioTimeHorizon := .position, stopAtrMult := 7 / 2, stopPctFallback := 5 / 100,
      minStopPct := 25 / 1000, overnightDefault := true, overnightEventStrict := false }

def policyFor (horizon : String) : Option HorizonPolicy :=
  (UniverseHorizon.ofValue horizon).map horizonPolicy

/-- `overnight_allowed_for_horizon`; a text that names no horizon is a `ValueError` there and
    a refusal here. -/
def overnightAllowedForHorizon (horizon : Option String) : Bool :=
  ((horizon.bind policyFor).map (·.overnightDefault)).getD false

/-- `closing_policy_for_horizon`. -/
def closingPolicyForHorizon (horizon : Option String) : String :=
  if overnightAllowedForHorizon horizon then
    if ((horizon.bind policyFor).map (·.overnightEventStrict)).getD false then
      "OVERNIGHT_WITH_EVENT_REVIEW"
    else "ALLOW_OVERNIGHT"
  else "CLOSE_INTRADAY_ONLY"

/-- `BookPlaybook`. -/
structure BookPlaybook where
  horizon : UniverseHorizon
  labelKo : String
  summary : String
  minProbability : ℚ
  entryZonePct : ℚ
  targetPct : ℚ
  targetSizePct : ℚ
  riskBudgetPct : ℚ
  requireUptrend : Bool
  allowSidewaysMomentum : Bool
  requireAccelerating : Bool
  requireVolumeAccel : Bool
  volumeAccelMult : ℚ
  requireShortMa : Bool
  requireSessionStructure : Bool
  preferRsiMin : ℚ
  preferRsiMax : ℚ
  rsiHardMin : Option ℚ
  rsiHardMax : Option ℚ
  rejectLiquidity : List LiquidityState
  sellIfExhausted : Bool
  sellIfLiquidityStressed : Bool
  sellIfDowntrend : Bool
  reduceIfExhausted : Bool
  newOnlyRegimes : List MarketRegime
  maxNewPerCycle : ℕ
  cioTimeHorizon : TimeHorizon
  deriving DecidableEq

/-- `PLAYBOOKS`. -/
def playbook : UniverseHorizon → BookPlaybook
  | .scalp =>
    { horizon := .scalp, labelKo := "초단타",
      summary :=
        "Same-day liquid single names, not the index sleeve. " ++
          "Buy dips in strength; skip a box, a chase, and a blow-off. " ++
          "Tight stop. Flatten the same day.",
      minProbability := 1 / 2, entryZonePct := 15 / 10000,
      targetPct := 8 / 1000, targetSizePct := 10, riskBudgetPct := 1 / 2,
      requireUptrend := false, allowSidewaysMomentum := true, requireAccelerating := false,
      requireVolumeAccel := false, volumeAccelMult := 115 / 100, requireShortMa := false,
      requireSessionStructure := false, preferRsiMin := 52, preferRsiMax := 68,
      rsiHardMin := none, rsiHardMax := some 85, rejectLiquidity := [.stressed],
      sellIfExhausted := true, sellIfLiquidityStressed := true, sellIfDowntrend := true,
      reduceIfExhausted := false, newOnlyRegimes := [.riskOn, .strongRiskOn, .neutral],
      maxNewPerCycle := 3, cioTimeHorizon := .intraday }
  | .day =>
    { horizon := .day, labelKo := "단타",
      summary :=
        "Same session, not the index sleeve. Buy a pullback in an up day. " ++
          "Skip a sideways box. Flatten before the close. " ++
          "A hold of several days belongs on the short book.",
      minProbability := 1 / 2, entryZonePct := 3 / 1000,
      targetPct := 15 / 1000, targetSizePct := 10, riskBudgetPct := 1 / 2,
      requireUptrend := false, allowSidewaysMomentum := true, requireAccelerating := false,
      requireVolumeAccel := false, volumeAccelMult := 1, requireShortMa := false,
      requireSessionStructure := false, preferRsiMin := 45, preferRsiMax := 70,
      rsiHardMin := none, rsiHardMax := some 85, rejectLiquidity := [.stressed],
      sellIfExhausted := true, sellIfLiquidityStressed := true, sellIfDowntrend := true,
      reduceIfExhausted := false, newOnlyRegimes := [.riskOn, .strongRiskOn, .neutral],
      maxNewPerCycle := 3, cioTimeHorizon := .intraday }
  | .short =>
    { horizon := .short, labelKo := "단기",
      summary :=
        "Single names that can pay within days to about two weeks. " ++
          "Not the index sleeve. Buy a dip in an uptrend. " ++
          "Do not buy an oversold bounce in a downtrend. Hold overnight.",
      minProbability := 48 / 100, entryZonePct := 8 / 1000,
      targetPct := 3 / 100, targetSizePct := 10, riskBudgetPct := 1 / 2,
      requireUptrend := false, allowSidewaysMomentum := true, requireAccelerating := false,
      requireVolumeAccel := false, volumeAccelMult := 1, requireShortMa := false,
      requireSessionStructure := false, preferRsiMin := 45, preferRsiMax := 75,
      rsiHardMin := none, rsiHardMax := none, rejectLiquidity := [.stressed],
      sellIfExhausted := false, sellIfLiquidityStressed := false, sellIfDowntrend := true,
      reduceIfExhausted := true, newOnlyRegimes := [.riskOn, .strongRiskOn, .neutral],
      maxNewPerCycle := 3, cioTimeHorizon := .swing }
  | .medium =>
    { horizon := .medium, labelKo := "중기",
      summary :=
        "Stable long-uptrend indexes (S&P 500, Nasdaq 100, ASX twins). " ++
          "Hold for weeks. Buy a rise that is not extended. " ++
          "Sell a trend break, not a quiet day.",
      minProbability := 52 / 100, entryZonePct := 15 / 1000,
      targetPct := 6 / 100, targetSizePct := 10, riskBudgetPct := 1 / 2,
      requireUptrend := false, allowSidewaysMomentum := false, requireAccelerating := false,
      requireVolumeAccel := false, volumeAccelMult := 1, requireShortMa := false,
      requireSessionStructure := false, preferRsiMin := 40, preferRsiMax := 70,
      rsiHardMin := none, rsiHardMax := none, rejectLiquidity := [.stressed],
      sellIfExhausted := false, sellIfLiquidityStressed := false, sellIfDowntrend := true,
      reduceIfExhausted := true, newOnlyRegimes := [.riskOn, .strongRiskOn, .neutral],
      maxNewPerCycle := 2, cioTimeHorizon := .position }

section Books

theorem strip_value (h : UniverseHorizon) : strip h.value = h.value := by
  cases h <;> decide

variable [Casing]

def playbookFor (horizon : String) : Option BookPlaybook :=
  (UniverseHorizon.ofValue (Casing.lower (strip horizon))).map playbook

theorem lower_value (h : UniverseHorizon) : Casing.lower h.value = h.value := by
  have htext : isAscii h.value ∧ asciiLower h.value = h.value := by
    cases h <;> decide
  rw [Casing.lower_ascii _ htext.1, htext.2]

theorem playbookFor_value (h : UniverseHorizon) : playbookFor h.value = some (playbook h) := by
  rw [playbookFor, strip_value, lower_value, UniverseHorizon.ofValue_value]
  rfl

/-- `risk_mult_for_horizon`: the playbook's capital at risk over the firm's. -/
def riskMultForHorizon (horizon : String) (firmRiskPct : ℚ) : ℚ :=
  if firmRiskPct ≤ 0 then 1
  else
    match playbookFor horizon with
    | some book => book.riskBudgetPct / firmRiskPct
    | none =>
      match policyFor (if horizon = "" then "short" else horizon) with
      | some policy => policy.riskPerTradeMult
      | none => 1

/-! ## Open positions per book -/

def horizonText (horizonBySymbol : Dict String) (sym : String) : String :=
  let hz := (Dict.get? horizonBySymbol sym).getD ""
  Casing.lower (if hz = "" then "short" else hz)

/-- `count_open_by_horizon(...)[horizon]` over a set of upper-cased symbols. -/
def countOpenByHorizon (held : List String) (horizonBySymbol : Dict String) (horizon : String) : ℕ :=
  (held.filter fun sym => sym ≠ "" ∧ horizonText horizonBySymbol sym = horizon).length

/-- `horizon_cap_violation` for a symbol that would be new. -/
def horizonCapViolation (symbol : String) (horizonBySymbol : Dict String)
    (heldSymbols : List String) : Option String :=
  let sym := Casing.upper symbol
  let horizon := horizonText horizonBySymbol sym
  match policyFor horizon with
  | none => none
  | some policy =>
    let held := ((heldSymbols.filter (· ≠ "")).map Casing.upper).dedup
    -- Already held → not a new slot
    if sym ∈ held then none
    else
      let current := countOpenByHorizon held horizonBySymbol horizon
      if policy.maxPositions ≤ current then
        some s!"{sym}:horizon_cap:{horizon}:{current}>={policy.maxPositions}({policy.labelKo})"
      else none

end Books

end Investor.Universe
