import Investor.Risk.Engine
import Mathlib.Algebra.Order.Ring.Abs
import Mathlib.Algebra.Order.Field.Basic

/-!
# What an approved buy keeps

`evaluate_pretrade` sizes a buy and checks the portfolio after it in one block, and enters the
block only where the buy has a numeric stop. Two facts follow.

* With a stop, the quantity that is approved keeps every limit on the concentration, and what it
  loses at the stop is no more than the risk of a trade allows.
* With only a textual invalidation, the gates before the block are all that the buy passes. It is
  approved at its full quantity, whatever that does to the portfolio.
-/

namespace Investor.Risk

open Lib Market

/-! ## The share count -/

theorem shares_mul_le {budget distance shorter : ℚ} {cap : ℤ} (hpos : 0 < distance)
    (hshorter : shorter ≤ distance)
    (hshares : 0 < min (if 0 < distance then ⌊budget / distance⌋ else 0) cap) :
    ((min (if 0 < distance then ⌊budget / distance⌋ else 0) cap : ℤ) : ℚ) * shorter ≤ budget := by
  rw [if_pos hpos] at hshares ⊢
  have hcount : ((min ⌊budget / distance⌋ cap : ℤ) : ℚ) ≤ budget / distance :=
    (Int.cast_le.mpr (min_le_left _ _)).trans (Int.floor_le _)
  calc ((min ⌊budget / distance⌋ cap : ℤ) : ℚ) * shorter
      ≤ ((min ⌊budget / distance⌋ cap : ℤ) : ℚ) * distance :=
        mul_le_mul_of_nonneg_left hshorter (Int.cast_nonneg hshares.le)
    _ ≤ budget := (le_div_iff₀ hpos).mp hcount

variable {limits : RiskLimits}

theorem positionSize_risk {equity entryPrice stopPrice : ℚ} {atr : Option ℚ} {existing : ℚ}
    {sizing : SizingResult}
    (h : positionSize limits equity entryPrice stopPrice atr existing 1 = .ok sizing)
    (hshares : 0 < sizing.shares) :
    sizing.shares * |entryPrice - stopPrice| ≤ equity * (limits.riskPerTradePct / 100) := by
  unfold positionSize at h
  split at h
  · cases h
    exact absurd hshares (lt_irrefl 0)
  · cases hd : stopDistance entryPrice stopPrice with
    | error err => rw [hd] at h; cases h
    | ok distance =>
      obtain ⟨rfl, hpos⟩ : |entryPrice - stopPrice| = distance ∧ 0 < distance := by
        unfold stopDistance at hd
        split_ifs at hd with _ hzero
        cases hd
        exact ⟨rfl, not_le.mp hzero⟩
      simp only [hd, bind, Except.bind, max_eq_right (zero_le_one (α := ℚ)), mul_one] at h
      cases h
      cases atr with
      | none => exact shares_mul_le hpos le_rfl hshares
      | some range =>
        refine shares_mul_le ?_ ?_ hshares
        · dsimp only
          split_ifs with hwider
          · exact hpos.trans hwider
          · exact hpos
        · dsimp only
          split_ifs with hwider
          · exact hwider.le
          · exact le_rfl

theorem positionSize_error_iff (limits : RiskLimits) (equity entryPrice stopPrice : ℚ)
    (atr : Option ℚ) (existing riskMult : ℚ) :
    (∃ err, positionSize limits equity entryPrice stopPrice atr existing riskMult = .error err) ↔
      0 < equity ∧ 0 < entryPrice ∧ stopPrice = entryPrice := by
  unfold positionSize
  by_cases hnone : equity ≤ 0 ∨ entryPrice ≤ 0
  · rw [if_pos hnone]
    constructor
    · rintro ⟨err, h⟩
      cases h
    · rintro ⟨hequity, hprice, -⟩
      rcases hnone with h | h
      · exact absurd h (not_le.mpr hequity)
      · exact absurd h (not_le.mpr hprice)
  · rw [if_neg hnone]
    obtain ⟨hequity, hprice⟩ := not_or.mp hnone
    have hdistance : (∃ err, stopDistance entryPrice stopPrice = .error err) ↔
        stopPrice = entryPrice := by
      unfold stopDistance
      rw [if_neg hprice]
      by_cases hsame : stopPrice = entryPrice
      · simp [hsame]
      · have hfar : ¬ |entryPrice - stopPrice| ≤ 0 := by
          rw [abs_nonpos_iff, sub_eq_zero]
          exact fun h => hsame h.symm
        simp [hsame, hfar]
    rw [← hdistance, and_iff_right (not_le.mp hequity), and_iff_right (not_le.mp hprice)]
    cases stopDistance entryPrice stopPrice with
    | error err => simp [bind, Except.bind]
    | ok distance => simp [bind, Except.bind, pure, Except.pure]

section Approvals

variable {p : PortfolioRiskView} {t : TradeIntent}

theorem judge_approved_iff {gates : List CheckResult}
    {sized : Option (SizingResult × ℚ × List CheckResult)} :
    (judge limits p t gates sized).approved ↔ haltDay limits p = false ∧
      ∀ c ∈ gates ++ (sized.map (·.2.2)).getD [], c.hard → c.passed := by
  rw [← hardVetoesOf_eq_nil_iff]
  simp only [judge, Bool.and_eq_true, List.isEmpty_iff, Bool.not_eq_true']
  exact and_comm

variable [Casing]

/-! ## The limits of a buy -/

def baseFactor (cfg : Settings) (e : DeterministicRiskEngine) (p : PortfolioRiskView)
    (t : TradeIntent) : ℚ :=
  if t.currencyOf cfg = p.baseCcy then 1
  else (fxRate e.fxRates (t.currencyOf cfg) p.baseCcy).getD 1

/-- The limits that a buy of this quantity keeps: those of `WithinLimits` at its notional in the
    base currency, that of its sector, and the risk to its stop. -/
structure KeepsLimits (cfg : Settings) (e : DeterministicRiskEngine) (p : PortfolioRiskView)
    (t : TradeIntent) (q : ℚ) : Prop extends
    WithinLimits e.limits p (Casing.upper t.symbol) (t.venueTextOf cfg)
      (q * (t.entryPrice * baseFactor cfg e p t)) where
  sector : sectorExposurePct p.positions p.equity t.sector
      (q * (t.entryPrice * baseFactor cfg e p t)) ≤ e.limits.maxSectorPct + 1 / 1000000000
  risk : ∀ stop, t.stopLoss = some stop →
    q * |t.entryPrice * baseFactor cfg e p t - stop * baseFactor cfg e p t| ≤
      p.equity * (e.limits.riskPerTradePct / 100) + 1 / 1000000000

theorem sector_of_checks {symbol venue sector : String} {existing notional : ℚ}
    (h : ∀ c ∈ projectionChecks limits p symbol venue sector existing notional,
      c.hard → c.passed) :
    sectorExposurePct p.positions p.equity sector notional ≤
      limits.maxSectorPct + 1 / 1000000000 := by
  simp only [projectionChecks, List.mem_cons, List.not_mem_nil, or_false, forall_eq_or_imp,
    forall_eq, check, forall_const, decide_eq_true_eq] at h
  exact h.2.1

/-- What is approved keeps the limits at the quantity that is approved. -/
def ApprovalSound (cfg : Settings) (e : DeterministicRiskEngine) (p : PortfolioRiskView)
    (t : TradeIntent) (inp : PretradeInputs) : Prop :=
  ∀ r, evaluatePretrade cfg e p t inp = .ok r → r.approved → ∀ q, r.adjustedQuantity = some q →
    KeepsLimits cfg e p t q

def pretradeGates (cfg : Settings) (e : DeterministicRiskEngine) (p : PortfolioRiskView)
    (t : TradeIntent) (inp : PretradeInputs) : List CheckResult :=
  portfolioChecks e.limits p t.side inp ++ tradeChecks e.limits t inp ++ currencyChecks cfg e p t

def RefusedAtGates (cfg : Settings) (e : DeterministicRiskEngine) (p : PortfolioRiskView)
    (t : TradeIntent) (inp : PretradeInputs) : Prop :=
  haltDay e.limits p = true ∨ ∃ c ∈ pretradeGates cfg e p t inp, c.hard ∧ ¬ c.passed

/-! ## Where the sizing raises -/

/-- A buy whose stop is at its price, in a currency that converts, on a portfolio with equity. -/
def SizingRaises (cfg : Settings) (e : DeterministicRiskEngine) (p : PortfolioRiskView)
    (t : TradeIntent) : Prop :=
  t.side = .buy ∧ t.stopLoss = some t.entryPrice ∧ 0 < p.equity ∧ 0 < t.entryPrice ∧
    (t.currencyOf cfg = p.baseCcy ∨ (fxRate e.fxRates (t.currencyOf cfg) p.baseCcy).isSome)

theorem baseFactor_pos (cfg : Settings) (e : DeterministicRiskEngine) (p : PortfolioRiskView)
    (t : TradeIntent) : 0 < baseFactor cfg e p t := by
  unfold baseFactor
  split
  · exact one_pos
  · cases hrate : fxRate e.fxRates (t.currencyOf cfg) p.baseCcy with
    | none => exact one_pos
    | some rate => exact fxRate_pos hrate

theorem sizedPart_of_stop {cfg : Settings} {e : DeterministicRiskEngine} {p : PortfolioRiskView}
    {t : TradeIntent} {stop : ℚ} (hside : t.side = .buy) (hstop : t.stopLoss = some stop)
    (hconv : t.currencyOf cfg = p.baseCcy ∨
      (fxRate e.fxRates (t.currencyOf cfg) p.baseCcy).isSome) :
    sizedPart cfg e p t =
      (sizeBuy e p t (t.venueTextOf cfg) stop (baseFactor cfg e p t)).map some := by
  simp only [sizedPart, hstop, hside, true_and, if_pos hconv, baseFactor]

theorem sizeBuy_error_iff (e : DeterministicRiskEngine) (p : PortfolioRiskView)
    (t : TradeIntent) (venue : String) (stop : ℚ) {factor : ℚ} (hfactor : 0 < factor) :
    (∃ err, sizeBuy e p t venue stop factor = .error err) ↔
      0 < p.equity ∧ 0 < t.entryPrice ∧ stop = t.entryPrice := by
  have hsize := positionSize_error_iff e.limits p.equity (t.entryPrice * factor) (stop * factor)
    (t.atr.map (· * factor)) (existingValue p.positions (Casing.upper t.symbol) venue) 1
  rw [mul_pos_iff_of_pos_right hfactor, mul_left_inj' hfactor.ne'] at hsize
  rw [← hsize]
  unfold sizeBuy
  cases hs : positionSize e.limits p.equity (t.entryPrice * factor) (stop * factor)
      (t.atr.map (· * factor)) (existingValue p.positions (Casing.upper t.symbol) venue) 1 with
  | error err => simp [hs, bind, Except.bind]
  | ok sizing => simp [hs, bind, Except.bind, pure, Except.pure]

variable {cfg : Settings} {e : DeterministicRiskEngine}

theorem sizedPart_error_iff :
    (∃ err, sizedPart cfg e p t = .error err) ↔ SizingRaises cfg e p t := by
  unfold SizingRaises
  by_cases hsized : t.side = .buy ∧ (t.currencyOf cfg = p.baseCcy ∨
      (fxRate e.fxRates (t.currencyOf cfg) p.baseCcy).isSome)
  · obtain ⟨hside, hconv⟩ := hsized
    cases hstop : t.stopLoss with
    | none => simp [sizedPart, hstop]
    | some stop =>
      have hsize := sizeBuy_error_iff e p t (t.venueTextOf cfg) stop (baseFactor_pos cfg e p t)
      have hmap : (∃ err, (sizeBuy e p t (t.venueTextOf cfg) stop (baseFactor cfg e p t)).map
          some = .error err) ↔
            ∃ err, sizeBuy e p t (t.venueTextOf cfg) stop (baseFactor cfg e p t) = .error err := by
        cases sizeBuy e p t (t.venueTextOf cfg) stop (baseFactor cfg e p t) <;> simp [Except.map]
      rw [sizedPart_of_stop hside hstop hconv, hmap, hsize]
      constructor
      · rintro ⟨hequity, hprice, rfl⟩
        exact ⟨hside, rfl, hequity, hprice, hconv⟩
      · rintro ⟨-, hsame, hequity, hprice, -⟩
        exact ⟨hequity, hprice, Option.some.inj hsame⟩
  · have hnone : sizedPart cfg e p t = .ok none := by
      unfold sizedPart
      cases t.stopLoss with
      | none => rfl
      | some stop => exact if_neg hsized
    rw [hnone]
    constructor
    · rintro ⟨err, h⟩
      cases h
    · rintro ⟨hside, -, -, -, hconv⟩
      exact absurd ⟨hside, hconv⟩ hsized

/-! ## The verdict -/

variable {inp : PretradeInputs}

theorem RefusedAtGates.not_approved (h : RefusedAtGates cfg e p t inp)
    {sized : Option (SizingResult × ℚ × List CheckResult)} :
    ¬ (judge e.limits p t (pretradeGates cfg e p t inp) sized).approved := by
  intro happroved
  obtain ⟨hday, hchecks⟩ := judge_approved_iff.mp happroved
  rcases h with hhalt | ⟨c, hc, hhard, hfailed⟩
  · exact Bool.false_ne_true (hday.symm.trans hhalt)
  · exact hfailed (hchecks c (List.mem_append_left _ hc) hhard)

theorem convertible_of_gates (hside : t.side = .buy)
    (h : ∀ c ∈ pretradeGates cfg e p t inp, c.hard → c.passed) :
    t.currencyOf cfg = p.baseCcy ∨ (fxRate e.fxRates (t.currencyOf cfg) p.baseCcy).isSome := by
  by_cases hccy : t.currencyOf cfg = p.baseCcy
  · exact Or.inl hccy
  · refine Or.inr (h (check .currencyMismatch _) ?_ rfl)
    refine List.mem_append_right _ ?_
    rw [currencyChecks, if_pos ⟨hside, hccy⟩]
    exact List.mem_singleton_self _

/-- A buy with a stop is approved within the limits. -/
theorem approvalSound_of_stop (hside : t.side = .buy) {stop : ℚ} (hstop : t.stopLoss = some stop) :
    ApprovalSound cfg e p t inp := by
  intro r hr happroved q hq
  unfold evaluatePretrade at hr
  cases hpart : sizedPart cfg e p t with
  | error err => rw [hpart] at hr; cases hr
  | ok sized =>
    rw [hpart] at hr
    cases hr
    obtain ⟨-, hchecks⟩ := judge_approved_iff.mp happroved
    have hconv := convertible_of_gates hside fun c hc => hchecks c (List.mem_append_left _ hc)
    rw [sizedPart_of_stop hside hstop hconv] at hpart
    cases hs : sizeBuy e p t (t.venueTextOf cfg) stop (baseFactor cfg e p t) with
    | error err => rw [hs] at hpart; cases hpart
    | ok result =>
      rw [hs] at hpart
      cases hpart
      obtain ⟨sizing, q', checks⟩ := result
      obtain ⟨hsizing, hmin, hproj⟩ := sizeBuy_ok hs
      obtain rfl : q' = q := Option.some.inj ((judge_approved happroved).2.symm.trans hq)
      have hown : ∀ c ∈ checks, c.hard → c.passed := fun c hc =>
        hchecks c (List.mem_append_right _ hc)
      rw [hproj] at hown
      have hshares : 0 < sizing.shares := by
        simpa [check] using hown _ List.mem_cons_self
      have hlimits : ∀ c ∈ projectionChecks e.limits p (Casing.upper t.symbol)
          (t.venueTextOf cfg) t.sector _ _, c.hard → c.passed := fun c hc =>
        hown c (List.mem_cons_of_mem _ hc)
      refine ⟨WithinLimits.of_checks t.sector hlimits, sector_of_checks hlimits, ?_⟩
      intro stop' hstop'
      obtain rfl : stop = stop' := Option.some.inj (hstop.symm.trans hstop')
      have hrisk := positionSize_risk hsizing hshares
      have hless : q' ≤ sizing.shares := hmin ▸ min_le_right _ _
      have hloss := mul_le_mul_of_nonneg_right hless
        (abs_nonneg (t.entryPrice * baseFactor cfg e p t - stop * baseFactor cfg e p t))
      have hslack : (0 : ℚ) ≤ 1 / 1000000000 := by norm_num
      linarith

/-- **Approvals are sound exactly where there is a stop**, or where it makes no difference: the
    gates refuse the buy, or its whole quantity keeps the limits. -/
theorem approvalSound_iff {cfg : Settings} {e : DeterministicRiskEngine} {p : PortfolioRiskView}
    {t : TradeIntent} {inp : PretradeInputs} (hside : t.side = .buy) :
    ApprovalSound cfg e p t inp ↔ t.stopLoss.isSome ∨ RefusedAtGates cfg e p t inp ∨
      KeepsLimits cfg e p t t.quantity := by
  cases hstop : t.stopLoss with
  | some stop => exact iff_of_true (approvalSound_of_stop hside hstop) (Or.inl rfl)
  | none =>
    have hpart : evaluatePretrade cfg e p t inp =
        .ok (judge e.limits p t (pretradeGates cfg e p t inp) none) := by
      simp [evaluatePretrade, sizedPart, hstop, pretradeGates, Except.map]
    constructor
    · intro hsound
      by_cases hrefused : RefusedAtGates cfg e p t inp
      · exact Or.inr (Or.inl hrefused)
      · obtain ⟨hday, hgates⟩ := not_or.mp hrefused
        have happroved : (judge e.limits p t (pretradeGates cfg e p t inp) none).approved := by
          refine judge_approved_iff.mpr ⟨Bool.eq_false_iff.mpr hday, fun c hc hhard => ?_⟩
          by_contra hfailed
          exact hgates ⟨c, by simpa using hc, hhard, hfailed⟩
        exact Or.inr (Or.inr (hsound _ hpart happroved _ (judge_approved happroved).2))
    · rintro (hnone | hrefused | hkeeps) r hr happroved q hq
      · cases hnone
      all_goals
        rw [hpart] at hr
        cases hr
      · exact absurd happroved hrefused.not_approved
      · obtain rfl := Option.some.inj ((judge_approved happroved).2.symm.trans hq)
        exact hkeeps

end Approvals

/-! ## A buy that is not sized -/

section Unsized

attribute [local instance] asciiCasing

def textualBuy : TradeIntent :=
  { symbol := "AAPL", side := .buy, quantity := 1000, entryPrice := 100, stopLoss := none,
    invalidation := some "close below support", expectedSlippageBps := none,
    avgDailyVolume := none, bidAskSpreadBps := none, atr := none, sector := "Technology",
    isLeveragedEtf := false, idempotencyKey := none, venue := some "US", currency := some "USD" }

def cashOnly : PortfolioRiskView :=
  { equity := 10000, cash := 10000, grossExposurePct := 0, positions := [], dailyPnlPct := 0,
    drawdownPct := 0, consecutiveLosses := 0, tradingHalted := false, cooldownUntil := none,
    peakEquity := none, baseCurrency := "USD" }

def clearInputs : PretradeInputs :=
  { allowlist := ["AAPL"], dataQualityScore := 1, marketSessionClear := true,
    brokerDataConsistent := true, now := 0, seenIdempotencyKeys := none }

def defaultEngine : DeterministicRiskEngine := { limits := defaultLimits, fxRates := [] }

/-- The buy is approved for ten times the equity. -/
theorem textualBuy_unsound :
    ¬ ApprovalSound mockSettings defaultEngine cashOnly textualBuy clearInputs := by
  intro hsound
  have hwhole : ((evaluatePretrade mockSettings defaultEngine cashOnly textualBuy
      clearInputs).toOption.filter fun r => r.approved && r.adjustedQuantity = some 1000).isSome :=
    by decide +kernel
  cases hr : evaluatePretrade mockSettings defaultEngine cashOnly textualBuy clearInputs with
  | error err => rw [hr] at hwhole; cases hwhole
  | ok r =>
    have happroved : r.approved ∧ r.adjustedQuantity = some 1000 := by
      simpa [hr, Except.toOption] using hwhole
    have hkeeps := hsound r hr happroved.1 1000 happroved.2
    exact absurd hkeeps.toWithinLimits.position (by decide +kernel)

/-- The same buy with a stop is cut to what the limits allow. -/
theorem stoppedBuy_sound : ApprovalSound mockSettings defaultEngine cashOnly
    { textualBuy with stopLoss := some 95 } clearInputs :=
  (approvalSound_iff rfl).mpr (Or.inl rfl)

end Unsized

end Investor.Risk
