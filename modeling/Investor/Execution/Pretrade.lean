import Investor.Execution.SafetyControls
import Investor.Universe.Allocation

/-!
# The pre-trade check of an order intent

`PretradeRiskValidator.validate` looks at one intent with the figures its caller gives it:
the account, the quote, the vetoes. It sizes the intent by its stop distance
(`size_position`) and approves at most what was asked. Nothing of the account is read from
the database, and no other order of the same plan is looked for: `duplicate_client_order`
is an argument that its callers leave false.

The names that only reports carry (the ids of the check, of the intent and the decision,
and the time) are left out.
-/

namespace Investor.Execution.Pretrade

open Lib Market Universe

/-! ## Sizing -/

structure SizingInput where
  portfolioEquity : ℚ
  riskPerTradePct : ℚ
  entryPrice : ℚ
  stopPrice : ℚ
  maxPositionPct : ℚ
  availableBuyingPower : ℚ
  minCashPct : ℚ
  liquidityCapShares : Option ℚ
  sectorCapNotional : Option ℚ
  symbolCapNotional : Option ℚ
  existingSymbolQty : ℚ
  fractionable : Bool
  side : String

structure SizingResult where
  approved : Bool
  quantity : ℚ
  notional : ℚ
  riskAmount : ℚ
  stopDistance : ℚ
  reason : Option String

def refusedSize (riskAmount stopDistance : ℚ) (reason : String) : SizingResult :=
  { approved := false, quantity := 0, notional := 0, riskAmount, stopDistance,
    reason := some reason }

/-- `min(qty, cap)` where the cap is given. -/
def capAt (cap : Option ℚ) (qty : ℚ) : ℚ := (cap.map (min qty)).getD qty

/-- `int(qty)`: towards zero. -/
def truncate (qty : ℚ) : Int := if 0 ≤ qty then ⌊qty⌋ else ⌈qty⌉

section Sizing

variable [Casing]

/-- The share count under all caps, for an entry price that is not zero. -/
def cappedQty (inp : SizingInput) (stopDistance riskAmount : ℚ) : ℚ :=
  let byPosition := inp.portfolioEquity * (inp.maxPositionPct / 100) / inp.entryPrice
  let byPower := if 0 < inp.entryPrice then inp.availableBuyingPower / inp.entryPrice else 0
  let qty := min (min (riskAmount / stopDistance) byPosition) byPower
  let qty := capAt inp.liquidityCapShares qty
  let qty := capAt (inp.symbolCapNotional.map (· / inp.entryPrice)) qty
  let qty := capAt (inp.sectorCapNotional.map (· / inp.entryPrice)) qty
  max 0 (if inp.fractionable then qty else (truncate qty : ℚ))

/-- `size_position`; `none` for its `ZeroDivisionError`. -/
def sizePosition (inp : SizingInput) : Option SizingResult :=
  let distance := |inp.entryPrice - inp.stopPrice|
  let side := Casing.lower inp.side
  let riskAmount := inp.portfolioEquity * (inp.riskPerTradePct / 100)
  if distance ≤ 0 then some (refusedSize 0 0 "stop_distance_invalid")
  else if side = "buy" ∧ inp.entryPrice ≤ inp.stopPrice then
    some (refusedSize 0 distance "stop_not_below_entry")
  else if side = "sell" ∧ inp.stopPrice ≤ inp.entryPrice then
    some (refusedSize 0 distance "stop_not_above_entry_for_short")
  else if inp.entryPrice = 0 then none
  else
    let qty := cappedQty inp distance riskAmount
    if qty ≤ 0 then some (refusedSize riskAmount distance "quantity_zero")
    else if inp.availableBuyingPower + 1 / 1000000 < qty * inp.entryPrice ∧ side = "buy" then
      some (refusedSize riskAmount distance "buying_power")
    else some
      { approved := true, quantity := roundTo 6 qty, notional := roundTo 2 (qty * inp.entryPrice),
        riskAmount, stopDistance := distance, reason := none }

end Sizing

/-! ## The check -/

/-- `PretradeStatus`. -/
inductive PretradeStatus
  | approved | approvedWithReduction | requiresManualApproval | rejected | systemBlocked
  deriving DecidableEq

/-- The keyword arguments of `validate`. -/
structure PretradeArgs where
  side : String
  quantity : ℚ
  entryPrice : ℚ
  stopPrice : Option ℚ
  equity : ℚ
  cash : ℚ
  buyingPower : ℚ
  grossExposure : ℚ
  positionQty : ℚ
  dataQualityScore : ℚ
  quoteAgeSeconds : Option ℚ
  spreadBps : Option ℚ
  hardVetoes : List String
  assetTradable : Bool
  marketOpen : Bool
  accountBlocked : Bool
  duplicateClientOrder : Bool
  conflictingOpenOrder : Bool
  decisionExpired : Bool
  openPositions : Int

structure PretradeCheckResult where
  status : PretradeStatus
  requestedQuantity : ℚ
  approvedQuantity : ℚ
  requestedNotional : ℚ
  approvedNotional : ℚ
  violations : List String
  warnings : List String
  positionBefore : ℚ
  positionAfter : ℚ
  cashBefore : ℚ
  cashAfter : ℚ
  grossExposureBefore : ℚ
  grossExposureAfter : ℚ
  riskAmount : ℚ
  stopDistance : ℚ

def blocks (violation : String) : Bool :=
  hasPrefix violation "emergency" || hasPrefix violation "system_"

/-- `_blocked`. -/
def blocked (a : PretradeArgs) (violations : List String) : PretradeCheckResult :=
  { status := if violations.any blocks then .systemBlocked else .rejected,
    requestedQuantity := a.quantity, approvedQuantity := 0,
    requestedNotional := a.quantity * a.entryPrice, approvedNotional := 0, violations,
    warnings := [], positionBefore := a.positionQty, positionAfter := 0, cashBefore := a.cash,
    cashAfter := 0, grossExposureBefore := a.grossExposure, grossExposureAfter := 0,
    riskAmount := 0, stopDistance := 0 }

section Check

def violationsOf [Casing] (cfg : Settings) (a : PretradeArgs) : List String :=
  let side := Casing.lower a.side
  ([(a.decisionExpired, "decision_expired"),
    (a.accountBlocked, "account_blocked"),
    (!a.marketOpen && !cfg.enableExtendedHoursOrders, "market_closed"),
    (!a.assetTradable, "asset_not_tradable"),
    (a.duplicateClientOrder, "duplicate_client_order"),
    (a.conflictingOpenOrder, "conflicting_open_order"),
    (decide (a.dataQualityScore < cfg.dataQualityHardFailThreshold), "data_quality_hard_fail"),
    (a.quoteAgeSeconds.any ((cfg.latestQuoteMaxAgeSeconds : ℚ) * 20 < ·), "stale_quote"),
    (a.spreadBps.any (cfg.maxOrderSpreadBps < ·), "spread_too_wide"),
    (decide (cfg.maxOpenPositions ≤ a.openPositions) && side = "buy" && decide (a.positionQty ≤ 0),
      "max_open_positions"),
    (decide (side = "sell") && decide (|a.positionQty| + 1 / 1000000000 < a.quantity) &&
      !cfg.enableShortSelling && decide (a.positionQty ≤ 0),
      "short_selling_disabled")].filter (·.1)).map (·.2)

def warningsOf (cfg : Settings) (a : PretradeArgs) : List String :=
  if cfg.dataQualityHardFailThreshold ≤ a.dataQualityScore ∧
      a.dataQualityScore < cfg.dataQualityWarningThreshold then ["data_quality_warning"]
  else []

def sizingInput (cfg : Settings) (a : PretradeArgs) : SizingInput :=
  { portfolioEquity := a.equity, riskPerTradePct := cfg.riskPerTradePct,
    entryPrice := a.entryPrice, stopPrice := a.stopPrice.getD 0,
    maxPositionPct := cfg.maxPositionPct, availableBuyingPower := a.buyingPower,
    minCashPct := cfg.minCashPct, liquidityCapShares := none, sectorCapNotional := none,
    symbolCapNotional := none, existingSymbolQty := a.positionQty, fractionable := true,
    side := a.side }

def violated (a : PretradeArgs) (violations warnings : List String) (sizing : SizingResult) :
    PretradeCheckResult :=
  { blocked a violations with
    status := if "emergency_stop" ∈ violations then .systemBlocked else .rejected, warnings,
    riskAmount := sizing.riskAmount, stopDistance := sizing.stopDistance }

def passed [Casing] (cfg : Settings) (a : PretradeArgs) (warnings : List String) (sizing : SizingResult) :
    PretradeCheckResult :=
  let qty := min a.quantity sizing.quantity
  let reduced : Bool := qty + 1 / 1000000000 < a.quantity
  let buys : Bool := Casing.lower a.side = "buy"
  { status :=
      if cfg.requireManualOrderApproval then .requiresManualApproval
      else if reduced then .approvedWithReduction
      else .approved
    requestedQuantity := a.quantity, approvedQuantity := qty,
    requestedNotional := a.quantity * a.entryPrice, approvedNotional := qty * a.entryPrice,
    violations := [],
    warnings := if reduced then warnings ++ ["quantity_reduced_by_sizing"] else warnings,
    positionBefore := a.positionQty,
    positionAfter := a.positionQty + if buys then qty else -qty, cashBefore := a.cash,
    cashAfter := a.cash - if buys then qty * a.entryPrice else -(qty * a.entryPrice),
    grossExposureBefore := a.grossExposure,
    grossExposureAfter := a.grossExposure + qty * a.entryPrice,
    riskAmount := sizing.riskAmount, stopDistance := sizing.stopDistance }

/-- `PretradeRiskValidator.validate`; `none` for the `ZeroDivisionError` of the sizing. -/
def validate [Casing] (cfg : Settings) (controls : TradingControlState) (a : PretradeArgs) :
    Option PretradeCheckResult :=
  if controls.state = .emergencyStop then some (blocked a ["emergency_stop"])
  else if controls.state = .paused then some (blocked a ["system_paused"])
  else if a.hardVetoes ≠ [] then some (blocked a (a.hardVetoes.map fun v => s!"hard_veto:{v}"))
  else
    let violations := violationsOf cfg a
    if a.stopPrice.isNone ∧ Casing.lower a.side = "buy" then
      some (blocked a (violations ++ ["stop_required"]))
    else
      (sizePosition (sizingInput cfg a)).map fun sizing =>
        let violations :=
          if sizing.approved then violations
          else violations ++ [(sizing.reason.filter (· ≠ "")).getD "sizing_rejected"]
        if violations ≠ [] then violated a violations (warningsOf cfg a) sizing
        else passed cfg a (warningsOf cfg a) sizing

/-! ## What a verdict says -/

def PretradeStatus.goesOn : PretradeStatus → Bool
  | .approved | .approvedWithReduction | .requiresManualApproval => true
  | .rejected | .systemBlocked => false

variable {cfg : Settings} {controls : TradingControlState} {a : PretradeArgs}
  {r : PretradeCheckResult}

theorem blocked_goesOn {violations : List String} :
    (blocked a violations).status.goesOn = false := by
  unfold blocked
  dsimp only
  split <;> rfl

theorem validate_cases [Casing] (h : validate cfg controls a = some r) :
    (r.status.goesOn = false ∧ r.approvedQuantity = 0) ∨
    (controls.state = .active ∧ a.hardVetoes = [] ∧ violationsOf cfg a = [] ∧
      ∃ sizing, sizePosition (sizingInput cfg a) = some sizing ∧ sizing.approved ∧
        r = passed cfg a (warningsOf cfg a) sizing) := by
  unfold validate at h
  split at h
  · cases h
    exact Or.inl ⟨blocked_goesOn, rfl⟩
  rename_i hstop
  split at h
  · cases h
    exact Or.inl ⟨blocked_goesOn, rfl⟩
  rename_i hpause
  split at h
  · cases h
    exact Or.inl ⟨blocked_goesOn, rfl⟩
  rename_i hveto
  dsimp only at h
  split at h
  · cases h
    exact Or.inl ⟨blocked_goesOn, rfl⟩
  obtain ⟨sizing, hsizing, rfl⟩ := Option.map_eq_some_iff.mp h
  have hactive : controls.state = .active := by
    cases hstate : controls.state with
    | active => rfl
    | paused => exact absurd hstate hpause
    | emergencyStop => exact absurd hstate hstop
  by_cases happroved : sizing.approved = true
  · rw [if_pos happroved]
    by_cases hnone : violationsOf cfg a = []
    · refine Or.inr ⟨hactive, by simpa using hveto, hnone, sizing, hsizing, happroved, ?_⟩
      rw [if_neg (by simp [hnone])]
    · rw [if_pos hnone]
      refine Or.inl ⟨?_, rfl⟩
      show (violated a _ _ _).status.goesOn = false
      unfold violated
      dsimp only
      split <;> rfl
  · rw [if_neg happroved, if_pos (by simp)]
    refine Or.inl ⟨?_, rfl⟩
    show (violated a _ _ _).status.goesOn = false
    unfold violated
    dsimp only
    split <;> rfl

end Check

end Investor.Execution.Pretrade
