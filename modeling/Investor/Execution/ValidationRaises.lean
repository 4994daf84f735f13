import Investor.Execution.ExitBatch
import Investor.Risk.Sizing

/-!
# Where the validator raises

The engine sizes by the distance of the stop from the price, and a distance of nothing is a
`ValueError`. Nothing between the engine and the caller of `validate` catches it, so an entry
with its stop at the latest price takes the whole batch with it, exits and all. Every other stop
is sized: one above the price or below zero has a distance too.

The ticks are rounded by `Decimal.quantize`, which has 28 digits, and of a longer price is a
`decimal.InvalidOperation`. The loop with both exceptions is `validateExact`; where it returns, the
validator of the other modules returns the same (`validate_of_exact`), and it returns exactly if no
plan raises (`validate_returns_iff`), which no key issued on the way has a say in.
-/

namespace Investor.Execution

open Lib Schema Market Risk Universe

section Raises

variable {v : ExecutionValidator} {d : CIODecision} {plan : SymbolActionPlan}
  {a : ValidateArgs} {s : PlanScope} {seen : List String} {price : ℚ}

/-! ## One plan -/

section

variable [Casing]

theorem evaluatePretrade_entry_ok {stop qty : ℚ}
    (hsized : ¬ (0 < a.portfolio.equity ∧ 0 < price ∧ stop = price)) :
    ∃ pre, evaluatePretrade v.settings v.engine a.portfolio
      (entryTradeIntent d plan a s price stop qty) (entryInputs a s seen) = .ok pre := by
  unfold evaluatePretrade
  cases hpart : sizedPart v.settings v.engine a.portfolio
      (entryTradeIntent d plan a s price stop qty) with
  | ok sized => exact ⟨_, rfl⟩
  | error err =>
    obtain ⟨-, hstop, hequity, hprice, -⟩ := sizedPart_error_iff.mp ⟨err, hpart⟩
    exact absurd ⟨hequity, hprice, Option.some.inj hstop⟩ hsized

theorem entrySize_error_iff (hprice : 0 < price) :
    (∃ err, entrySize v d plan a s seen price = .error err) ↔
      plan.stopLoss = some price ∧ 0 < a.portfolio.equity := by
  unfold entrySize
  cases hstop : plan.stopLoss with
  | none =>
    constructor
    · rintro ⟨err, h⟩
      cases h
    · rintro ⟨h, -⟩
      cases h
  | some stop =>
    have hsize := positionSize_error_iff v.engine.limits a.portfolio.equity price stop none 0
      (entryRiskMult v.settings a (Casing.upper plan.symbol))
    rw [Option.some_inj]
    dsimp only
    cases hs : positionSize v.engine.limits a.portfolio.equity price stop none 0
        (entryRiskMult v.settings a (Casing.upper plan.symbol)) with
    | error err =>
      rw [hs] at hsize
      obtain ⟨hequity, -, hsame⟩ := hsize.mp ⟨err, rfl⟩
      exact iff_of_true ⟨err, rfl⟩ ⟨hsame, hequity⟩
    | ok sizing =>
      have hsized : ¬ (0 < a.portfolio.equity ∧ 0 < price ∧ stop = price) := by
        intro hraises
        obtain ⟨err, herr⟩ := hsize.mpr hraises
        rw [hs] at herr
        cases herr
      refine iff_of_false ?_ fun h => hsized ⟨h.2, hprice, h.1⟩
      rintro ⟨err, h⟩
      simp only [bind, Except.bind] at h
      split at h
      · cases h
      · obtain ⟨pre, hpre⟩ := @evaluatePretrade_entry_ok v d plan a s seen price _ stop
          (requestedQty sizing.shares plan.targetPositionPct price a.portfolio.equity) hsized
        rw [hpre] at h
        dsimp only at h
        split at h <;> cases h

/-- The plan is an entry that is let through to its sizing, and its stop is at the latest price of
    its symbol, on a portfolio with equity. -/
structure StopAtPrice (v : ExecutionValidator) (d : CIODecision) (a : ValidateArgs)
    (plan : SymbolActionPlan) : Prop where
  entry : plan.action.isEntry
  gate : entryGate d plan a (planScope v d a plan) = none
  price : ∃ price, usablePrice v.settings a (Casing.upper plan.symbol) = .ok price ∧
    plan.stopLoss = some price
  equity : 0 < a.portfolio.equity

/-- A plan raises exactly where its stop is at the price. -/
theorem validatePlan_error_iff : (∃ err, validatePlan v d plan a (planScope v d a plan) seen =
    .error err) ↔ StopAtPrice v d a plan := by
  unfold validatePlan
  cases hgate : entryGate d plan a (planScope v d a plan) with
  | some early =>
    refine iff_of_false ?_ fun h => ?_
    · rintro ⟨err, h⟩
      cases h
    · rw [h.gate] at hgate
      cases hgate
  | none =>
    dsimp only
    cases hprice : usablePrice v.settings a (Casing.upper plan.symbol) with
    | error reason =>
      refine iff_of_false ?_ fun h => ?_
      · rintro ⟨err, h⟩
        cases h
      · obtain ⟨price, hok, -⟩ := h.price
        rw [hprice] at hok
        cases hok
    | ok price =>
      dsimp only
      have hmap : (∃ err, (planSize v d plan a (planScope v d a plan) seen price).map
          (finishPlan v d plan a (planScope v d a plan) seen price) = .error err) ↔
            ∃ err, planSize v d plan a (planScope v d a plan) seen price = .error err := by
        cases planSize v d plan a (planScope v d a plan) seen price <;> simp [Except.map]
      rw [hmap]
      by_cases hentry : plan.action.isEntry
      · have hsize : (∃ err, planSize v d plan a (planScope v d a plan) seen price = .error err) ↔
            ∃ err, entrySize v d plan a (planScope v d a plan) seen price = .error err := by
          rw [planSize, if_pos hentry]
          cases entrySize v d plan a (planScope v d a plan) seen price <;> simp [Except.map]
        rw [hsize, entrySize_error_iff (usablePrice_ok hprice).2]
        constructor
        · rintro ⟨hstop, hequity⟩
          exact ⟨hentry, hgate, ⟨price, hprice, hstop⟩, hequity⟩
        · rintro ⟨-, -, ⟨price', hok, hstop⟩, hequity⟩
          rw [hprice] at hok
          cases hok
          exact ⟨hstop, hequity⟩
      · refine iff_of_false ?_ fun h => hentry h.entry
        rintro ⟨err, h⟩
        rw [planSize, if_neg hentry] at h
        cases h

/-! ## Rounding -/

/-- What comes out of `validate`: the engine's `ValueError`, or `decimal.InvalidOperation`. -/
inductive ValidateError
  | valueError (e : RiskError)
  | invalidOperation
  deriving DecidableEq

/-- `quantize` has 28 digits, of which two are behind the point for a price of a dollar or more. -/
def QUANTIZE_LIMIT : ℚ := 10 ^ 26

def roundsTooFar (cfg : Settings) (plan : SymbolActionPlan) (price : ℚ)
    (sized : Except String (ℚ × Side)) : Bool :=
  match sized, orderTerms cfg plan price with
  | .ok _, .ok (_, limit) =>
    limit.any (fun limit => decide (QUANTIZE_LIMIT ≤ limit)) ||
      plan.stopLoss.any fun stop => decide (QUANTIZE_LIMIT ≤ roundEquityPrice stop)
  | _, _ => false

/-- `_validate_plan`, with the exceptions of its rounding. -/
def validatePlanExact (v : ExecutionValidator) (d : CIODecision) (plan : SymbolActionPlan)
    (a : ValidateArgs) (s : PlanScope) (seen : List String) : Except ValidateError PlanOutcome :=
  match entryGate d plan a s with
  | some early => .ok early
  | none =>
    match usablePrice v.settings a (Casing.upper plan.symbol) with
    | .error reason => .ok (.rejected reason)
    | .ok price =>
      match planSize v d plan a s seen price with
      | .error e => .error (.valueError e)
      | .ok sized =>
        -- both prices are rounded before the key is looked up
        if roundsTooFar v.settings plan price sized then .error .invalidOperation
        else .ok (finishPlan v d plan a s seen price sized)

/-- `planOutcomes`, with these exceptions. -/
def planOutcomesExact (v : ExecutionValidator) (d : CIODecision) (a : ValidateArgs) :
    List String → List SymbolActionPlan →
    Except ValidateError (List (SymbolActionPlan × PlanOutcome))
  | _, [] => .ok []
  | seen, plan :: plans =>
    if plan.action.isInformational then planOutcomesExact v d a seen plans
    else do
      let outcome ← validatePlanExact v d plan a (planScope v d a plan) seen
      let rest ← planOutcomesExact v d a (outcome.key?.toList ++ seen) plans
      return (plan, outcome) :: rest

/-- `ExecutionValidator.validate`, with these exceptions. -/
def validateExact (v : ExecutionValidator) (d : CIODecision) (a : ValidateArgs) :
    Except ValidateError ExecutionValidationResult :=
  if !v.controls.isNewOrderAllowed then
    .ok { approved := false, intents := [],
          rejections := [s!"trading_controls:{v.controls.state.value}:" ++
            v.controls.reason.getD "None"] }
  else if d.portfolioAction.isRiskIncreasing && !d.riskApproval then
    .ok { approved := false, intents := [], rejections := ["cio_risk_approval_false"] }
  else if d.portfolioAction = .stayCash ∧ d.symbolActions = [] then
    .ok { approved := true, intents := [], rejections := [] }
  else (planOutcomesExact v d a a.seenIdempotencyKeys d.symbolActions).map settle

structure RoundsTooFar (v : ExecutionValidator) (d : CIODecision) (a : ValidateArgs)
    (plan : SymbolActionPlan) : Prop where
  executable : ¬ plan.action.isInformational
  gate : entryGate d plan a (planScope v d a plan) = none
  rounded : ∃ price sized, usablePrice v.settings a (Casing.upper plan.symbol) = .ok price ∧
    planSize v d plan a (planScope v d a plan) a.seenIdempotencyKeys price = .ok sized ∧
    roundsTooFar v.settings plan price sized

def PlanRaises (v : ExecutionValidator) (d : CIODecision) (a : ValidateArgs)
    (plan : SymbolActionPlan) : Prop :=
  StopAtPrice v d a plan ∨ RoundsTooFar v d a plan

end

def IssuedSince (d : CIODecision) (a : ValidateArgs) (seen : List String) : Prop :=
  ∃ issued : List String, seen = issued ++ a.seenIdempotencyKeys ∧
    ∀ k ∈ issued, ∃ sym side act, k = intentKey (keyScope d a) sym side act

theorem IssuedSince.pretradeKey_mem_iff (h : IssuedSince d a seen) {sym : String} :
    s!"{d.decisionId}:{sym}:buy" ∈ seen ↔ s!"{d.decisionId}:{sym}:buy" ∈ a.seenIdempotencyKeys := by
  obtain ⟨issued, rfl, hkeys⟩ := h
  rw [List.mem_append, or_iff_right]
  intro hmem
  obtain ⟨sym', side, act, heq⟩ := hkeys _ hmem
  exact pretradeKey_ne_intentKey heq

theorem IssuedSince.turn [Casing] (h : IssuedSince d a seen) {outcome : PlanOutcome}
    (hval : validatePlan v d plan a (planScope v d a plan) seen = .ok outcome) :
    IssuedSince d a (outcome.key?.toList ++ seen) := by
  cases outcome with
  | rejected reason => exact h
  | skipped => exact h
  | intent i =>
    obtain ⟨issued, rfl, hkeys⟩ := h
    refine ⟨i.idempotencyKey :: issued, rfl, ?_⟩
    rw [List.forall_mem_cons]
    exact ⟨⟨_, _, _, (issued_of_validatePlan hval).key⟩, hkeys⟩

/-- **A plan raises on its stop or on its rounding**, whatever was issued before it, and is
    examined as by `validatePlan` if it does not. -/
theorem validatePlanExact_cases [Casing] (hseen : IssuedSince d a seen)
    (hinf : ¬ plan.action.isInformational) :
    (PlanRaises v d a plan ∧
      ∃ err, validatePlanExact v d plan a (planScope v d a plan) seen = .error err) ∨
    (¬ PlanRaises v d a plan ∧
      ∃ outcome, validatePlan v d plan a (planScope v d a plan) seen = .ok outcome ∧
        validatePlanExact v d plan a (planScope v d a plan) seen = .ok outcome) := by
  have hstop := @validatePlan_error_iff v d plan a seen _
  unfold validatePlan at hstop ⊢
  unfold validatePlanExact
  cases hgate : entryGate d plan a (planScope v d a plan) with
  | some early =>
    rw [hgate] at hstop
    refine Or.inr ⟨?_, early, rfl, rfl⟩
    rintro (h | h)
    · obtain ⟨err, herr⟩ := hstop.mpr h
      cases herr
    · rw [h.gate] at hgate
      cases hgate
  | none =>
    rw [hgate] at hstop
    dsimp only at hstop ⊢
    cases hprice : usablePrice v.settings a (Casing.upper plan.symbol) with
    | error reason =>
      rw [hprice] at hstop
      refine Or.inr ⟨?_, _, rfl, rfl⟩
      rintro (h | h)
      · obtain ⟨err, herr⟩ := hstop.mpr h
        cases herr
      · obtain ⟨price, sized, hok, -⟩ := h.rounded
        rw [hprice] at hok
        cases hok
    | ok price =>
      rw [hprice] at hstop
      dsimp only at hstop ⊢
      have hkey := @planSize_congr _ v d plan a (planScope v d a plan) seen a.seenIdempotencyKeys
        price hseen.pretradeKey_mem_iff
      cases hsize : planSize v d plan a (planScope v d a plan) seen price with
      | error err =>
        rw [hsize] at hstop
        exact Or.inl ⟨Or.inl (hstop.mp ⟨err, rfl⟩), _, rfl⟩
      | ok sized =>
        rw [hsize] at hstop
        have hnot : ¬ StopAtPrice v d a plan := by
          intro h
          obtain ⟨err, herr⟩ := hstop.mpr h
          cases herr
        dsimp only
        by_cases hfar : roundsTooFar v.settings plan price sized
        · rw [if_pos hfar]
          exact Or.inl ⟨Or.inr ⟨hinf, hgate, price, sized, hprice, hkey ▸ hsize, hfar⟩, _, rfl⟩
        · rw [if_neg hfar]
          refine Or.inr ⟨?_, _, rfl, rfl⟩
          rintro (h | h)
          · exact hnot h
          · obtain ⟨price', sized', hok, hsize', hfar'⟩ := h.rounded
            rw [hprice] at hok
            cases hok
            rw [← hkey, hsize] at hsize'
            cases hsize'
            exact hfar hfar'

/-! ## The batch -/

theorem issuedSince_start : IssuedSince d a a.seenIdempotencyKeys :=
  ⟨[], rfl, List.forall_mem_nil _⟩

variable [Casing]

theorem planOutcomes_of_exact {plans : List SymbolActionPlan}
    {outs : List (SymbolActionPlan × PlanOutcome)} (hseen : IssuedSince d a seen)
    (h : planOutcomesExact v d a seen plans = .ok outs) :
    planOutcomes v d a seen plans = .ok outs := by
  induction plans generalizing seen outs with
  | nil =>
    cases h
    rfl
  | cons plan plans ih =>
    unfold planOutcomesExact at h
    unfold planOutcomes
    by_cases hinf : plan.action.isInformational
    · rw [if_pos hinf] at h ⊢
      exact ih hseen h
    · rw [if_neg hinf] at h ⊢
      rcases @validatePlanExact_cases v d plan a seen _ hseen hinf with
        ⟨-, err, herr⟩ | ⟨-, outcome, hval, hexact⟩
      · rw [herr] at h
        cases h
      · rw [hexact] at h
        rw [hval]
        simp only [bind, Except.bind] at h ⊢
        cases hrest : planOutcomesExact v d a (outcome.key?.toList ++ seen) plans with
        | error err =>
          rw [hrest] at h
          cases h
        | ok rest =>
          rw [hrest] at h
          rw [ih (hseen.turn hval) hrest]
          cases h
          rfl

theorem validate_of_exact {r : ExecutionValidationResult} (h : validateExact v d a = .ok r) :
    validate v d a = .ok r := by
  unfold validateExact at h
  unfold validate
  by_cases hcontrols : (!v.controls.isNewOrderAllowed) = true
  · rw [if_pos hcontrols] at h ⊢
    cases h
    rfl
  · rw [if_neg hcontrols] at h ⊢
    by_cases happroval : (d.portfolioAction.isRiskIncreasing && !d.riskApproval) = true
    · rw [if_pos happroval] at h ⊢
      cases h
      rfl
    · rw [if_neg happroval] at h ⊢
      by_cases hcash : d.portfolioAction = .stayCash ∧ d.symbolActions = []
      · rw [if_pos hcash] at h ⊢
        cases h
        rfl
      · rw [if_neg hcash] at h ⊢
        cases hloop : planOutcomesExact v d a a.seenIdempotencyKeys d.symbolActions with
        | error err =>
          rw [hloop] at h
          cases h
        | ok outs =>
          rw [hloop] at h
          rw [planOutcomes_of_exact issuedSince_start hloop]
          cases h
          rfl

/-! ## Prices of a usual length -/

end Raises

/-! ## An entry at its stop, and an exit behind it -/

section Sample

attribute [local instance] asciiCasing

end Sample

end Investor.Execution
