import Investor.Market.Venues

/-!
# The deterministic risk engine

`evaluate_pretrade` runs a list of checks on one trade against one portfolio view and
returns the hard vetoes; for a buy with a stop it also sizes the trade and projects the
portfolio after it. The projection is linear in the trade's notional and reads the view
it is given: two trades checked against one view are each projected alone.

A check keeps its code and its outcome; the texts and details that only logs read are
left out. Timestamps are integers.
-/

namespace Investor.Risk

open Lib Market

/-- `VetoCode`. -/
inductive VetoCode
  | dailyLossLimit | maxDrawdown | maxPositionPct | maxSectorPct | minCashPct | maxGrossExposure
  | maxVenueGrossExposure | maxOpenPositions | consecutiveLossesCooldown | consecutiveLossesHalt
  | missingStop | excessiveSlippage | insufficientVolume | excessiveSpread | lowDataQuality
  | brokerDataMismatch | marketSessionUnclear | notInAllowlist | pennyStock | leveragedEtf
  | tradingHalted | riskPerTrade | currencyMismatch
  deriving DecidableEq

def VetoCode.value : VetoCode → String
  | .dailyLossLimit => "daily_loss_limit"
  | .maxDrawdown => "max_drawdown"
  | .maxPositionPct => "max_position_pct"
  | .maxSectorPct => "max_sector_pct"
  | .minCashPct => "min_cash_pct"
  | .maxGrossExposure => "max_gross_exposure"
  | .maxVenueGrossExposure => "max_venue_gross_exposure"
  | .maxOpenPositions => "max_open_positions"
  | .consecutiveLossesCooldown => "consecutive_losses_cooldown"
  | .consecutiveLossesHalt => "consecutive_losses_halt"
  | .missingStop => "missing_stop_or_invalidation"
  | .excessiveSlippage => "excessive_slippage"
  | .insufficientVolume => "insufficient_volume"
  | .excessiveSpread => "excessive_spread"
  | .lowDataQuality => "low_data_quality"
  | .brokerDataMismatch => "broker_data_mismatch"
  | .marketSessionUnclear => "market_session_unclear"
  | .notInAllowlist => "not_in_allowlist"
  | .pennyStock => "penny_stock"
  | .leveragedEtf => "leveraged_etf"
  | .tradingHalted => "trading_halted"
  | .riskPerTrade => "risk_per_trade_exceeded"
  | .currencyMismatch => "currency_mismatch"

structure RiskLimits where
  maxPositionPct : ℚ
  maxSectorPct : ℚ
  maxGrossExposurePct : ℚ
  maxVenueGrossPct : ℚ
  minCashPct : ℚ
  riskPerTradePct : ℚ
  dailyMaxLossPct : ℚ
  maxDrawdownPct : ℚ
  maxOpenPositions : Int
  maxConsecutiveLosses : Int
  maxConsecutiveLossesHaltDay : Int
  minAvgDailyVolume : ℚ
  maxBidAskSpreadBps : ℚ
  minDataQualityScore : ℚ
  maxSlippageBps : ℚ
  pennyStockMaxPrice : ℚ
  allowLeveragedEtfs : Bool
  deriving DecidableEq

/-- The defaults of `RiskLimits`. -/
def defaultLimits : RiskLimits :=
  { maxPositionPct := 10, maxSectorPct := 30, maxGrossExposurePct := 90, maxVenueGrossPct := 90,
    minCashPct := 10, riskPerTradePct := 1 / 2, dailyMaxLossPct := 3 / 2, maxDrawdownPct := 8,
    maxOpenPositions := 8, maxConsecutiveLosses := 3, maxConsecutiveLossesHaltDay := 5,
    minAvgDailyVolume := 1000000, maxBidAskSpreadBps := 20, minDataQualityScore := 6 / 10,
    maxSlippageBps := 15, pennyStockMaxPrice := 5, allowLeveragedEtfs := false }

structure PositionRiskView where
  symbol : String
  quantity : ℚ
  marketValue : ℚ
  sector : String
  venue : String
  currency : Option String
  conId : Option Int
  deriving DecidableEq

structure PortfolioRiskView where
  equity : ℚ
  cash : ℚ
  grossExposurePct : ℚ
  positions : List PositionRiskView
  dailyPnlPct : ℚ
  drawdownPct : ℚ
  consecutiveLosses : Int
  tradingHalted : Bool
  cooldownUntil : Option Int
  peakEquity : Option ℚ
  baseCurrency : String
  deriving DecidableEq

inductive Side
  | buy | sell
  deriving DecidableEq

def Side.value : Side → String
  | .buy => "buy"
  | .sell => "sell"

structure TradeIntent where
  symbol : String
  side : Side
  quantity : ℚ
  entryPrice : ℚ
  stopLoss : Option ℚ
  invalidation : Option String
  expectedSlippageBps : Option ℚ
  avgDailyVolume : Option ℚ
  bidAskSpreadBps : Option ℚ
  atr : Option ℚ
  sector : String
  isLeveragedEtf : Bool
  idempotencyKey : Option String
  venue : Option String
  currency : Option String
  deriving DecidableEq

structure CheckResult where
  code : String
  passed : Bool
  hard : Bool
  deriving DecidableEq

structure SizingResult where
  shares : Int
  dollarRisk : ℚ
  stopDistance : ℚ
  positionNotional : ℚ
  cappedBy : List String
  deriving DecidableEq

structure PreTradeRiskResult where
  approved : Bool
  haltDay : Bool
  checks : List CheckResult
  hardVetoes : List String
  sizing : Option SizingResult
  adjustedQuantity : Option ℚ
  deriving DecidableEq

inductive RiskError
  | entryPriceNotPositive
  | stopDistanceNotPositive
  deriving DecidableEq

/-! ## The arithmetic -/

def stopDistance (entryPrice stopPrice : ℚ) : Except RiskError ℚ :=
  if entryPrice ≤ 0 then .error .entryPriceNotPositive
  else if |entryPrice - stopPrice| ≤ 0 then .error .stopDistanceNotPositive
  else .ok |entryPrice - stopPrice|

def drawdownPctOf (peakEquity equity : ℚ) : ℚ :=
  if peakEquity ≤ 0 then 0 else max 0 ((peakEquity - equity) / peakEquity * 100)

def sectorExposurePct (positions : List PositionRiskView) (equity : ℚ) (sector : String)
    (additionalNotional : ℚ) : ℚ :=
  if equity ≤ 0 then 0
  else ((((positions.filter (·.sector = sector)).map (·.marketValue)).sum + additionalNotional)
    / equity * 100)

section Engine

section

variable [Casing]

def venueExposurePct (positions : List PositionRiskView) (equity : ℚ) (venue : String)
    (additionalNotional : ℚ) : ℚ :=
  if equity ≤ 0 then 0
  else ((((positions.filter (fun p => venueText p.venue = venueText venue)).map
    (fun p => |p.marketValue|)).sum + additionalNotional) / equity * 100)

/-- `position_size`: the shares one stop distance of risk buys, capped by the room left
    under the position limit. -/
def positionSize (limits : RiskLimits) (equity entryPrice stopPrice : ℚ) (atr : Option ℚ)
    (existingPositionValue riskMult : ℚ) : Except RiskError SizingResult :=
  if equity ≤ 0 ∨ entryPrice ≤ 0 then
    .ok { shares := 0, dollarRisk := 0, stopDistance := 0, positionNotional := 0, cappedBy := [] }
  else do
    let distance₀ ← stopDistance entryPrice stopPrice
    let distance := match atr with
      | some a => if distance₀ < a then a else distance₀
      | none => distance₀
    let dollarRisk := equity * (limits.riskPerTradePct / 100) * max 0 riskMult
    let rawShares : Int := if 0 < distance then ⌊dollarRisk / distance⌋ else 0
    let maxPositionValue := equity * (limits.maxPositionPct / 100)
    let remainingRoom := max 0 (maxPositionValue - existingPositionValue)
    let maxSharesByPosition : Int := ⌊remainingRoom / entryPrice⌋
    let shares := min rawShares maxSharesByPosition
    return { shares, dollarRisk, stopDistance := distance, positionNotional := shares * entryPrice,
             cappedBy := if shares < rawShares then ["max_position_pct"] else [] }

/-! ## The pre-trade checks -/

/-- `DeterministicRiskEngine`. -/
structure DeterministicRiskEngine where
  limits : RiskLimits
  fxRates : Dict ℚ
  deriving DecidableEq

/-- The keyword arguments of `evaluate_pretrade`. -/
structure PretradeInputs where
  allowlist : List String
  dataQualityScore : ℚ
  marketSessionClear : Bool
  brokerDataConsistent : Bool
  now : Int
  seenIdempotencyKeys : Option (List String)
  deriving DecidableEq

def check (code : VetoCode) (passed : Bool) : CheckResult :=
  { code := code.value, passed := passed, hard := true }

def dailyLossHit (limits : RiskLimits) (p : PortfolioRiskView) : Bool :=
  limits.dailyMaxLossPct ≤ |p.dailyPnlPct| && p.dailyPnlPct < 0

def drawdownOf (p : PortfolioRiskView) : ℚ :=
  match p.peakEquity with
  | some peak => drawdownPctOf peak p.equity
  | none => p.drawdownPct

def haltDay (limits : RiskLimits) (p : PortfolioRiskView) : Bool :=
  p.tradingHalted || dailyLossHit limits p || limits.maxDrawdownPct ≤ drawdownOf p ||
    limits.maxConsecutiveLossesHaltDay ≤ p.consecutiveLosses

def lossStreakCheck (limits : RiskLimits) (p : PortfolioRiskView) (side : Side) (now : Int) :
    CheckResult :=
  if limits.maxConsecutiveLossesHaltDay ≤ p.consecutiveLosses then
    check .consecutiveLossesHalt false
  else if limits.maxConsecutiveLosses ≤ p.consecutiveLosses then
    let inCooldown := match p.cooldownUntil with
      | some t => decide (now < t)
      | none => false
    check .consecutiveLossesCooldown (!(inCooldown && side == .buy))
  else check .consecutiveLossesCooldown true

def portfolioChecks (limits : RiskLimits) (p : PortfolioRiskView) (side : Side)
    (inp : PretradeInputs) : List CheckResult :=
  (if p.tradingHalted then [check .tradingHalted false] else []) ++
  [check .dailyLossLimit (!dailyLossHit limits p),
    check .maxDrawdown (!(limits.maxDrawdownPct ≤ drawdownOf p)),
    lossStreakCheck limits p side inp.now,
    check .lowDataQuality (!(inp.dataQualityScore < limits.minDataQualityScore)),
    check .brokerDataMismatch inp.brokerDataConsistent,
    check .marketSessionUnclear inp.marketSessionClear]

def TradeIntent.hasStop (t : TradeIntent) : Bool :=
  t.stopLoss.isSome || strip (t.invalidation.getD "") != ""

/-- The gates on the trade itself; the optional data are checked where they are given. -/
def tradeChecks (limits : RiskLimits) (t : TradeIntent) (inp : PretradeInputs) : List CheckResult :=
  let symbol := Casing.upper t.symbol
  -- Allowlist gates new risk (buys) only: existing holdings must remain closable.
  [check .notInAllowlist (t.side != .buy || (inp.allowlist.map Casing.upper).contains symbol),
    check .pennyStock (!(t.entryPrice < limits.pennyStockMaxPrice)),
    check .leveragedEtf (!(t.isLeveragedEtf && !limits.allowLeveragedEtfs)),
    check .missingStop (t.side != .buy || t.hasStop)] ++
  (match t.expectedSlippageBps with
    | some bps => [check .excessiveSlippage (bps ≤ limits.maxSlippageBps)]
    | none => []) ++
  (match t.avgDailyVolume with
    | some adv => [check .insufficientVolume
        (venueLiquidityFloor t.venue limits.minAvgDailyVolume ≤ adv)]
    | none => []) ++
  (match t.bidAskSpreadBps with
    | some bps => [check .excessiveSpread (bps ≤ venueSpreadCap t.venue limits.maxBidAskSpreadBps)]
    | none => []) ++
  (match t.idempotencyKey, inp.seenIdempotencyKeys with
    | some key, some seen =>
      if key ≠ "" ∧ key ∈ seen then [{ code := "duplicate_idempotency_key", passed := false,
                                       hard := true }]
      else []
    | _, _ => [])

/-- `trade_venue`: the trade's own, else the symbol's. -/
def TradeIntent.venueTextOf (cfg : Settings) (t : TradeIntent) : String :=
  let own := Casing.upper (t.venue.getD "")
  if own ≠ "" then own else (venueForSymbol (Casing.upper t.symbol) cfg t.currency).value

def TradeIntent.currencyOf (cfg : Settings) (t : TradeIntent) : String :=
  let own := t.currency.getD ""
  Casing.upper (if own ≠ "" then own else currencyOfVenueText (t.venueTextOf cfg))

def PortfolioRiskView.baseCcy (p : PortfolioRiskView) : String :=
  Casing.upper (if p.baseCurrency = "" then "USD" else p.baseCurrency)

def PositionRiskView.isAt (symbol venue : String) (p : PositionRiskView) : Bool :=
  Casing.upper p.symbol == symbol && venueText p.venue == venue

/-- `next((p.market_value for p in positions if …), 0.0)`. -/
def existingValue (positions : List PositionRiskView) (symbol venue : String) : ℚ :=
  ((positions.find? (·.isAt symbol venue)).map (·.marketValue)).getD 0

/-- The projected weights, `0` on a portfolio without equity. -/
def pctOfEquity (p : PortfolioRiskView) (amount : ℚ) : ℚ :=
  if p.equity = 0 then 0 else amount / p.equity * 100

def openCount (positions : List PositionRiskView) (symbol venue : String) : Int :=
  positions.length + (if positions.any (·.isAt symbol venue) then 0 else 1)

def projectionChecks (limits : RiskLimits) (p : PortfolioRiskView) (symbol venue sector : String)
    (existing notional : ℚ) : List CheckResult :=
  let slack : ℚ := 1 / 1000000000
  [check .maxPositionPct (pctOfEquity p (existing + notional) ≤ limits.maxPositionPct + slack),
    check .maxSectorPct (sectorExposurePct p.positions p.equity sector notional
      ≤ limits.maxSectorPct + slack),
    check .maxVenueGrossExposure (venueExposurePct p.positions p.equity venue notional
      ≤ limits.maxVenueGrossPct + slack),
    check .maxGrossExposure (p.grossExposurePct + pctOfEquity p notional
      ≤ limits.maxGrossExposurePct + slack),
    check .minCashPct (limits.minCashPct - slack ≤ pctOfEquity p (p.cash - notional)),
    check .maxOpenPositions (openCount p.positions symbol venue ≤ limits.maxOpenPositions)]

/-- The buy path after the gates: the sizing, the quantity it allows, and its checks. -/
def sizeBuy (e : DeterministicRiskEngine) (p : PortfolioRiskView) (t : TradeIntent)
    (venue : String) (stopLoss : ℚ) (factor : ℚ) :
    Except RiskError (SizingResult × ℚ × List CheckResult) := do
  let symbol := Casing.upper t.symbol
  let existing := existingValue p.positions symbol venue
  let sizing ← positionSize e.limits p.equity (t.entryPrice * factor) (stopLoss * factor)
    (t.atr.map (· * factor)) existing 1
  let adjustedQty := min t.quantity sizing.shares
  let notional := adjustedQty * (t.entryPrice * factor)
  return (sizing, adjustedQty, check .riskPerTrade (0 < sizing.shares) ::
    projectionChecks e.limits p symbol venue t.sector existing notional)

def hardVetoesOf (checks : List CheckResult) : List String :=
  (checks.filter (fun c => !c.passed && c.hard)).map (·.code)

/-- The sizing block of `evaluate_pretrade`: for a buy with a stop whose currency is the
    base's or converts into it. -/
def sizedPart (cfg : Settings) (e : DeterministicRiskEngine) (p : PortfolioRiskView)
    (t : TradeIntent) : Except RiskError (Option (SizingResult × ℚ × List CheckResult)) :=
  let tradeCcy := t.currencyOf cfg
  let rate := fxRate e.fxRates tradeCcy p.baseCcy
  match t.stopLoss with
  | some stop =>
    if t.side = .buy ∧ (tradeCcy = p.baseCcy ∨ rate.isSome) then
      let factor := if tradeCcy = p.baseCcy then 1 else rate.getD 1
      (sizeBuy e p t (t.venueTextOf cfg) stop factor).map some
    else .ok none
  | none => .ok none

def currencyChecks (cfg : Settings) (e : DeterministicRiskEngine) (p : PortfolioRiskView)
    (t : TradeIntent) : List CheckResult :=
  if t.side = .buy ∧ t.currencyOf cfg ≠ p.baseCcy then
    [check .currencyMismatch (fxRate e.fxRates (t.currencyOf cfg) p.baseCcy).isSome]
  else []

def judge (limits : RiskLimits) (p : PortfolioRiskView) (t : TradeIntent)
    (gates : List CheckResult) (sized : Option (SizingResult × ℚ × List CheckResult)) :
    PreTradeRiskResult :=
  let checks := gates ++ (sized.map (·.2.2)).getD []
  let hardVetoes := hardVetoesOf checks
  let halt := haltDay limits p
  let approved := hardVetoes.isEmpty && !halt
  { approved, haltDay := halt, checks, hardVetoes, sizing := sized.map (·.1),
    adjustedQuantity := some (if approved then (sized.map (·.2.1)).getD t.quantity else 0) }

/-- `evaluate_pretrade`. -/
def evaluatePretrade (cfg : Settings) (e : DeterministicRiskEngine) (p : PortfolioRiskView)
    (t : TradeIntent) (inp : PretradeInputs) : Except RiskError PreTradeRiskResult :=
  let gates := portfolioChecks e.limits p t.side inp ++ tradeChecks e.limits t inp ++
    currencyChecks cfg e p t
  (sizedPart cfg e p t).map (judge e.limits p t gates)

end

/-! ## What an approval says -/

theorem hardVetoesOf_eq_nil_iff {checks : List CheckResult} :
    hardVetoesOf checks = [] ↔ ∀ c ∈ checks, c.hard → c.passed := by
  simp only [hardVetoesOf, List.map_eq_nil_iff, List.filter_eq_nil_iff, Bool.and_eq_true,
    Bool.not_eq_true', not_and, Bool.not_eq_true]
  refine forall₂_congr fun c _ => ?_
  cases c.passed <;> cases c.hard <;> simp

structure WithinLimits [Casing] (limits : RiskLimits) (p : PortfolioRiskView) (symbol venue : String)
    (notional : ℚ) : Prop where
  position : pctOfEquity p (existingValue p.positions symbol venue + notional)
    ≤ limits.maxPositionPct + 1 / 1000000000
  venueGross : venueExposurePct p.positions p.equity venue notional
    ≤ limits.maxVenueGrossPct + 1 / 1000000000
  gross : p.grossExposurePct + pctOfEquity p notional
    ≤ limits.maxGrossExposurePct + 1 / 1000000000
  cash : limits.minCashPct - 1 / 1000000000 ≤ pctOfEquity p (p.cash - notional)
  openPositions : openCount p.positions symbol venue ≤ limits.maxOpenPositions

variable {p : PortfolioRiskView}

theorem WithinLimits.of_checks [Casing] {limits : RiskLimits} {symbol venue : String} {notional : ℚ}
    (sector : String) (h : ∀ c ∈ projectionChecks limits p symbol venue sector
      (existingValue p.positions symbol venue) notional, c.hard → c.passed) :
    WithinLimits limits p symbol venue notional := by
  simp only [projectionChecks, List.mem_cons, List.not_mem_nil, or_false, forall_eq_or_imp,
    forall_eq, check, forall_const, decide_eq_true_eq] at h
  obtain ⟨hposition, _, hvenue, hgross, hcash, hopen⟩ := h
  exact ⟨hposition, hvenue, hgross, hcash, hopen⟩

variable {t : TradeIntent}

theorem judge_approved {limits : RiskLimits} {gates : List CheckResult}
    {sized : Option (SizingResult × ℚ × List CheckResult)}
    (h : (judge limits p t gates sized).approved) :
    (∀ c ∈ gates ++ (sized.map (·.2.2)).getD [], c.hard → c.passed) ∧
    (judge limits p t gates sized).adjustedQuantity = some ((sized.map (·.2.1)).getD t.quantity) := by
  have hclear := h
  simp only [judge, Bool.and_eq_true, List.isEmpty_iff] at hclear
  refine ⟨hardVetoesOf_eq_nil_iff.mp hclear.1, ?_⟩
  simp only [judge, Option.some.injEq]
  exact if_pos h

theorem sizeBuy_ok [Casing] {e : DeterministicRiskEngine} {venue : String} {stop factor q : ℚ}
    {sizing : SizingResult} {checks : List CheckResult}
    (h : sizeBuy e p t venue stop factor = .ok (sizing, q, checks)) :
    positionSize e.limits p.equity (t.entryPrice * factor) (stop * factor)
      (t.atr.map (· * factor)) (existingValue p.positions (Casing.upper t.symbol) venue) 1 =
        .ok sizing ∧
    q = min t.quantity sizing.shares ∧ checks = check .riskPerTrade (0 < sizing.shares) ::
      projectionChecks e.limits p (Casing.upper t.symbol) venue t.sector
        (existingValue p.positions (Casing.upper t.symbol) venue) (q * (t.entryPrice * factor)) := by
  unfold sizeBuy at h
  cases hs : positionSize e.limits p.equity (t.entryPrice * factor) (stop * factor)
      (t.atr.map (· * factor)) (existingValue p.positions (Casing.upper t.symbol) venue) 1 with
  | error err => simp only [hs] at h; cases h
  | ok size =>
    simp only [hs] at h
    cases h
    exact ⟨rfl, rfl, rfl⟩

theorem evaluatePretrade_approved [Casing] {cfg : Settings} {e : DeterministicRiskEngine}
    {inp : PretradeInputs} {r : PreTradeRiskResult} {stop : ℚ}
    (h : evaluatePretrade cfg e p t inp = .ok r) (happroved : r.approved) (hside : t.side = .buy)
    (hstop : t.stopLoss = some stop) (hccy : t.currencyOf cfg = p.baseCcy) :
    ∃ q, r.adjustedQuantity = some q ∧ q ≤ t.quantity ∧
      WithinLimits e.limits p (Casing.upper t.symbol) (t.venueTextOf cfg) (q * t.entryPrice) := by
  have hpart : sizedPart cfg e p t = (sizeBuy e p t (t.venueTextOf cfg) stop 1).map some := by
    simp [sizedPart, hstop, hside, hccy]
  unfold evaluatePretrade at h
  rw [hpart] at h
  cases hs : sizeBuy e p t (t.venueTextOf cfg) stop 1 with
  | error err => rw [hs] at h; cases h
  | ok sized =>
    obtain ⟨sizing, q, checks⟩ := sized
    rw [hs] at h
    cases h
    obtain ⟨hchecks, hqty⟩ := judge_approved happroved
    obtain ⟨-, hmin, hproj⟩ := sizeBuy_ok hs
    refine ⟨q, hqty, hmin ▸ min_le_left _ _, ?_⟩
    rw [mul_one] at hproj
    refine WithinLimits.of_checks t.sector fun c hc => hchecks c ?_
    exact List.mem_append_right _ (by
      simp only [Option.map_some, Option.getD_some, hproj]
      exact List.mem_cons_of_mem _ hc)

end Engine

end Investor.Risk
