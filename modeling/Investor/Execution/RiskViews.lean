import Investor.Execution.PositionSync
import Investor.Risk.Sizing

/-!
# The two views of a portfolio state

The risk engine reads a `PortfolioRiskView`. Two functions build one from a portfolio state:
`portfolio_to_risk_view` on the way from a decision to its orders, and
`PositionManager.to_risk_view`. They fill the same fields from the same values, but for one: the
second gives the engine the equity of the state as its *peak*. The engine then computes the
drawdown from the peak, not from the state, and a state is never below its own equity.

What the engine does not read (the cash share, the weights, the balances and the books of the
venues) is left out of the view.
-/

namespace Investor.Execution

open Lib Market Risk PositionSync

/-! ## The builders -/

def positionRiskView (p : PositionSnapshot) : PositionRiskView :=
  { symbol := p.symbol, quantity := p.quantity, marketValue := p.marketValue, sector := p.sector,
    venue := if p.venue = "" then "US" else p.venue, currency := p.currency,
    conId := p.conId.filter (· ≠ 0) }

def riskView (peak : Option ℚ) (s : PortfolioStateInput) : PortfolioRiskView :=
  { equity := s.equity, cash := s.cash, grossExposurePct := s.grossExposurePct,
    positions := s.positions.map positionRiskView, dailyPnlPct := s.dailyPnlPct,
    drawdownPct := s.drawdownPct, consecutiveLosses := s.consecutiveLosses,
    tradingHalted := s.tradingHalted, cooldownUntil := s.cooldownUntil, peakEquity := peak,
    baseCurrency := if s.baseCurrency = "" then "USD" else s.baseCurrency }

/-- `portfolio_to_risk_view`: no peak. -/
def portfolioToRiskView (s : PortfolioStateInput) : PortfolioRiskView := riskView none s

/-- `PositionManager.to_risk_view`: `peak_equity=state.equity`. -/
def toRiskView (s : PortfolioStateInput) : PortfolioRiskView := riskView (some s.equity) s

def DrawdownHit (limits : RiskLimits) (p : PortfolioRiskView) : Prop :=
  limits.maxDrawdownPct ≤ drawdownOf p

instance (limits : RiskLimits) (p : PortfolioRiskView) : Decidable (DrawdownHit limits p) :=
  inferInstanceAs (Decidable (_ ≤ _))

theorem drawdownHit_portfolioToRiskView {limits : RiskLimits} {s : PortfolioStateInput} :
    DrawdownHit limits (portfolioToRiskView s) ↔ limits.maxDrawdownPct ≤ s.drawdownPct := Iff.rfl

theorem drawdownHit_toRiskView {limits : RiskLimits} {s : PortfolioStateInput} :
    DrawdownHit limits (toRiskView s) ↔ limits.maxDrawdownPct ≤ 0 := by
  have hzero : drawdownOf (toRiskView s) = 0 := by
    show drawdownPctOf s.equity s.equity = 0
    unfold drawdownPctOf
    split
    · rfl
    · simp
  unfold DrawdownHit
  rw [hzero]

/-! ## One verdict over two views -/

section Verdicts

def verdictOf (r : PreTradeRiskResult) : Bool × Bool × List String :=
  (r.approved, r.haltDay, r.hardVetoes)

theorem hardVetoes_riskView (limits : RiskLimits) (s : PortfolioStateInput) (side : Side)
    (inp : PretradeInputs) (rest : List CheckResult) : ∃ before after, ∀ peak,
    hardVetoesOf (portfolioChecks limits (riskView peak s) side inp ++ rest) =
      before ++ (if DrawdownHit limits (riskView peak s) then [VetoCode.maxDrawdown.value] else []) ++
        after := by
  refine ⟨hardVetoesOf ((if s.tradingHalted then [check .tradingHalted false] else []) ++
      [check .dailyLossLimit (!dailyLossHit limits (riskView none s))]),
    hardVetoesOf ([lossStreakCheck limits (riskView none s) side inp.now,
      check .lowDataQuality (!(inp.dataQualityScore < limits.minDataQualityScore)),
      check .brokerDataMismatch inp.brokerDataConsistent,
      check .marketSessionUnclear inp.marketSessionClear] ++ rest), fun peak => ?_⟩
  have hdrawdown : hardVetoesOf [check .maxDrawdown
      (!decide (limits.maxDrawdownPct ≤ drawdownOf (riskView peak s)))] =
        if DrawdownHit limits (riskView peak s) then [VetoCode.maxDrawdown.value] else [] := by
    unfold DrawdownHit
    by_cases h : limits.maxDrawdownPct ≤ drawdownOf (riskView peak s) <;>
      simp [hardVetoesOf, check, h]
  rw [← hdrawdown]
  unfold hardVetoesOf
  rw [← List.map_append, ← List.map_append, ← List.filter_append, ← List.filter_append]
  simp only [portfolioChecks, List.append_assoc, List.cons_append, List.nil_append]
  rfl

/-- Two peaks give one verdict exactly if the drawdown check agrees on them. -/
theorem verdict_riskView_iff (limits : RiskLimits) (s : PortfolioStateInput) (t : TradeIntent)
    (inp : PretradeInputs) (rest : List CheckResult) (peak peak' : Option ℚ)
    (sized : Option (SizingResult × ℚ × List CheckResult)) :
    verdictOf (judge limits (riskView peak s) t
        (portfolioChecks limits (riskView peak s) t.side inp ++ rest) sized) =
      verdictOf (judge limits (riskView peak' s) t
        (portfolioChecks limits (riskView peak' s) t.side inp ++ rest) sized) ↔
    (DrawdownHit limits (riskView peak s) ↔ DrawdownHit limits (riskView peak' s)) := by
  constructor
  · intro h
    -- a veto more or less is a longer or a shorter list
    obtain ⟨before, after, hvetoes⟩ := hardVetoes_riskView limits s t.side inp
      (rest ++ (sized.map (·.2.2)).getD [])
    have hlists : hardVetoesOf _ = hardVetoesOf _ := congrArg (·.2.2) h
    rw [List.append_assoc, List.append_assoc, hvetoes, hvetoes] at hlists
    have hflags := List.append_cancel_left (List.append_cancel_right hlists)
    by_cases h₁ : DrawdownHit limits (riskView peak s) <;>
      by_cases h₂ : DrawdownHit limits (riskView peak' s) <;> simp_all
  · intro h
    have hdecide : decide (limits.maxDrawdownPct ≤ drawdownOf (riskView peak s)) =
        decide (limits.maxDrawdownPct ≤ drawdownOf (riskView peak' s)) := decide_eq_decide.mpr h
    have hhalt : haltDay limits (riskView peak s) = haltDay limits (riskView peak' s) := by
      unfold haltDay
      rw [hdecide]
      rfl
    have hgates : portfolioChecks limits (riskView peak s) t.side inp =
        portfolioChecks limits (riskView peak' s) t.side inp := by
      unfold portfolioChecks
      rw [hdecide]
      rfl
    unfold verdictOf judge
    rw [hhalt, hgates]

/-! ## The builders compared -/

def ViewsAgree [Casing] (cfg : Settings) (e : DeterministicRiskEngine) (s : PortfolioStateInput)
    (t : TradeIntent) (inp : PretradeInputs) : Prop :=
  (evaluatePretrade cfg e (toRiskView s) t inp).map verdictOf =
    (evaluatePretrade cfg e (portfolioToRiskView s) t inp).map verdictOf

/-- A state at its drawdown limit is approved through neither view. -/
def DrawdownRefused [Casing] (cfg : Settings) (e : DeterministicRiskEngine) (s : PortfolioStateInput)
    (t : TradeIntent) (inp : PretradeInputs) : Prop :=
  e.limits.maxDrawdownPct ≤ s.drawdownPct → ∀ view ∈ [toRiskView s, portfolioToRiskView s],
    ∀ r, evaluatePretrade cfg e view t inp = .ok r → ¬ r.approved

theorem not_approved_of_drawdownHit {limits : RiskLimits} {p : PortfolioRiskView}
    {t : TradeIntent} {gates : List CheckResult}
    {sized : Option (SizingResult × ℚ × List CheckResult)} (h : DrawdownHit limits p) :
    ¬ (judge limits p t gates sized).approved := by
  intro happroved
  have hday := (judge_approved_iff.mp happroved).1
  unfold DrawdownHit at h
  simp [haltDay, h] at hday

/-- **When the two views agree.** Where the sizing raises, through both. Elsewhere the one that
    knows a peak knows no drawdown, so they agree where the drawdown of the state is on the same
    side of the limit as none at all. -/
theorem viewsAgree_iff [Casing] {cfg : Settings} {e : DeterministicRiskEngine} {s : PortfolioStateInput}
    {t : TradeIntent} {inp : PretradeInputs} :
    ViewsAgree cfg e s t inp ∧ DrawdownRefused cfg e s t inp ↔
      SizingRaises cfg e (portfolioToRiskView s) t ∨
        (e.limits.maxDrawdownPct ≤ 0 ↔ e.limits.maxDrawdownPct ≤ s.drawdownPct) := by
  -- nothing but the drawdown reads the peak
  have hview : ∀ peak, evaluatePretrade cfg e (riskView peak s) t inp =
      (sizedPart cfg e (riskView none s) t).map (judge e.limits (riskView peak s) t
        (portfolioChecks e.limits (riskView peak s) t.side inp ++ (tradeChecks e.limits t inp ++
          currencyChecks cfg e (riskView none s) t))) := by
    intro peak
    rw [← List.append_assoc]
    rfl
  unfold ViewsAgree DrawdownRefused
  simp only [List.forall_mem_cons, List.not_mem_nil, false_implies, implies_true, and_true]
  rw [← sizedPart_error_iff, ← drawdownHit_portfolioToRiskView, ← drawdownHit_toRiskView (s := s),
    toRiskView, portfolioToRiskView, hview (some s.equity), hview none]
  cases sizedPart cfg e (riskView none s) t with
  | error err =>
    refine iff_of_true ⟨rfl, fun _ => ⟨?_, ?_⟩⟩ (Or.inl ⟨err, rfl⟩)
    all_goals
      intro r hr
      cases hr
  | ok sized =>
    have hagree := verdict_riskView_iff e.limits s t inp
      (tradeChecks e.limits t inp ++ currencyChecks cfg e (riskView none s) t) (some s.equity) none
      sized
    constructor
    · rintro ⟨hsame, -⟩
      exact Or.inr (hagree.mp (Except.ok.inj hsame))
    · rintro (⟨err, herr⟩ | hhits)
      · cases herr
      · refine ⟨congrArg Except.ok (hagree.mpr hhits), fun hdrawdown => ⟨?_, ?_⟩⟩
        · intro r hr
          cases hr
          exact not_approved_of_drawdownHit (hhits.mpr hdrawdown)
        · intro r hr
          cases hr
          exact not_approved_of_drawdownHit hdrawdown

end Verdicts

/-! ## A state at its limit -/

section AtLimit

attribute [local instance] asciiCasing

def downState : PortfolioStateInput :=
  { asOf := none, equity := 100000, cash := 100000, cashPct := 100, grossExposurePct := 0,
    positions := [], dailyPnlPct := 0, drawdownPct := 20, consecutiveLosses := 0,
    tradingHalted := false, cooldownUntil := none, baseCurrency := "USD", cashByCurrency := [],
    venueBooks := [] }

/-- **The drawdown is lost on the way.** The state is at its limit, and the engine approves the
    buy on the view with a peak. -/
theorem downState_approved :
    ¬ (ViewsAgree mockSettings defaultEngine downState
        { textualBuy with quantity := 1, stopLoss := some 95 } clearInputs ∧
      DrawdownRefused mockSettings defaultEngine downState
        { textualBuy with quantity := 1, stopLoss := some 95 } clearInputs) := by
  rintro ⟨-, hrefused⟩
  have hflag : ((evaluatePretrade mockSettings defaultEngine (toRiskView downState)
      { textualBuy with quantity := 1, stopLoss := some 95 } clearInputs).toOption.any
        fun r => r.approved) = true := by decide +kernel
  cases hr : evaluatePretrade mockSettings defaultEngine (toRiskView downState)
      { textualBuy with quantity := 1, stopLoss := some 95 } clearInputs with
  | error err => rw [hr] at hflag; cases hflag
  | ok r =>
    refine hrefused (by decide +kernel) _ List.mem_cons_self r hr ?_
    simpa [hr, Except.toOption] using hflag

end AtLimit

end Investor.Execution
