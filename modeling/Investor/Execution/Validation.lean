import Investor.Execution.SafetyControls
import Investor.Risk.Engine
import Investor.Universe.Horizons

/-!
# The execution validator

The last gate before the broker: `ExecutionValidator.validate` turns the plans of a CIO
decision into order intents. Each plan is examined by `_validate_plan` against the same
portfolio view; only the set of idempotency keys is threaded from plan to plan. An
entry that is refused withholds the whole batch, a refused exit only itself.

`_validate_plan` is cut along its early returns: the entry gate, the price gate, the
size, the order terms, and last the key. Its one exception is the engine's
`ValueError` for a stop at the price, which leaves `validate` as it does here.
-/

namespace Investor.Execution

open Lib Schema Market Risk Universe

/-- `ValidatedOrderIntent`. -/
structure ValidatedOrderIntent where
  symbol : String
  side : Side
  quantity : ℚ
  orderType : String
  limitPrice : Option ℚ
  stopPrice : Option ℚ
  idempotencyKey : String
  decisionId : String
  thesis : String
  venue : Option String
  conId : Option Int
  timeInForce : Option String
  attribution : Option (Dict String)
  deriving DecidableEq

structure ExecutionValidationResult where
  approved : Bool
  intents : List ValidatedOrderIntent
  rejections : List String
  deriving DecidableEq

/-- `ExecutionValidator`. -/
structure ExecutionValidator where
  settings : Settings
  engine : DeterministicRiskEngine
  controls : TradingControlState
  deriving DecidableEq

/-- The keyword arguments of `validate`, and the clock. -/
structure ValidateArgs where
  portfolio : PortfolioRiskView
  latestPrices : Dict ℚ
  dataQualityScore : ℚ
  marketSessionClear : Bool
  brokerDataConsistent : Bool
  seenIdempotencyKeys : List String
  workflowId : Option String
  entryUniverse : Option (List String)
  horizonBySymbol : Dict String
  blockNewEntries : Bool
  now : Int
  deriving DecidableEq

inductive PlanOutcome
  | intent (i : ValidatedOrderIntent)
  | rejected (reason : String)
  | skipped
  deriving DecidableEq

/-- The values `validate` computes for one plan before it calls `_validate_plan`. -/
structure PlanScope where
  venue : Venue
  allowlist : List String
  heldSymbols : List String
  skipEntries : Bool
  deriving DecidableEq

section Validator

variable {v : ExecutionValidator} {d : CIODecision} {a : ValidateArgs} {seen : List String}
  {i : ValidatedOrderIntent} {plans : List SymbolActionPlan}
  {outs : List (SymbolActionPlan × PlanOutcome)}

section

variable [Casing]

/-- `next((p for p in positions if p.symbol.upper() == symbol), None)`: by symbol only. -/
def existingPosition (positions : List PositionRiskView) (symbol : String) :
    Option PositionRiskView :=
  positions.find? (fun p => Casing.upper p.symbol = symbol)

def entryGate (d : CIODecision) (plan : SymbolActionPlan) (a : ValidateArgs) (s : PlanScope) :
    Option PlanOutcome :=
  let symbol := Casing.upper plan.symbol
  if !plan.action.isEntry then none
  else if symbol ∉ s.allowlist then some (.rejected s!"{symbol}:not_in_allowlist")
  -- Skip entries so exit intents in the same batch can still approve.
  else if s.skipEntries then some .skipped
  else if !d.riskApproval then some (.rejected s!"{symbol}:entry_without_risk_approval")
  else if plan.stopLoss.isNone && strip plan.invalidation == "" then
    some (.rejected s!"{symbol}:missing_stop_or_invalidation")
  else (horizonCapViolation symbol a.horizonBySymbol s.heldSymbols).map .rejected

def usablePrice (cfg : Settings) (a : ValidateArgs) (symbol : String) : Except String ℚ :=
  match (Dict.get? a.latestPrices symbol).filter (0 < ·) with
  | none => .error s!"{symbol}:missing_latest_price"
  | some price =>
    if requiresLiveMarketPrices cfg && looksLikeStubLast symbol price then
      .error s!"{symbol}:stub_price_forbidden_for_orders"
    else .ok price

/-- The share count an entry asks the engine for: by stop distance, then by its target
    weight. -/
def requestedQty (shares : Int) (targetPct price equity : ℚ) : ℚ :=
  if 0 < targetPct ∧ 0 < price ∧ 0 < equity then
    min (shares : ℚ) (⌊equity * targetPct / 100 / price⌋ : Int)
  else shares

def entryRiskMult (cfg : Settings) (a : ValidateArgs) (symbol : String) : ℚ :=
  let hz := (Dict.get? a.horizonBySymbol symbol).getD ""
  if hz = "" then 1 else riskMultForHorizon hz cfg.riskPerTradePct

def entryTradeIntent (d : CIODecision) (plan : SymbolActionPlan) (a : ValidateArgs)
    (s : PlanScope) (price stop qty : ℚ) : TradeIntent :=
  let symbol := Casing.upper plan.symbol
  { symbol, side := .buy, quantity := qty, entryPrice := price, stopLoss := some stop,
    invalidation := some plan.invalidation, expectedSlippageBps := none, avgDailyVolume := none,
    bidAskSpreadBps := none, atr := none,
    sector := ((existingPosition a.portfolio.positions symbol).map (·.sector)).getD "Unknown",
    isLeveragedEtf := false, idempotencyKey := some s!"{d.decisionId}:{symbol}:buy",
    venue := some s.venue.value, currency := some (venueSpec s.venue).currency }

def entryInputs (a : ValidateArgs) (s : PlanScope) (seen : List String) : PretradeInputs :=
  { allowlist := s.allowlist, dataQualityScore := a.dataQualityScore,
    marketSessionClear := a.marketSessionClear, brokerDataConsistent := a.brokerDataConsistent,
    now := a.now, seenIdempotencyKeys := some seen }

def entrySize (v : ExecutionValidator) (d : CIODecision) (plan : SymbolActionPlan)
    (a : ValidateArgs) (s : PlanScope) (seen : List String) (price : ℚ) :
    Except RiskError (Except String ℚ) := do
  let symbol := Casing.upper plan.symbol
  match plan.stopLoss with
  | none => return .error s!"{symbol}:buy_requires_numeric_stop_for_sizing"
  | some stop =>
    let sizing ← positionSize v.engine.limits a.portfolio.equity price stop none 0
      (entryRiskMult v.settings a symbol)
    let qty := requestedQty sizing.shares plan.targetPositionPct price a.portfolio.equity
    if qty ≤ 0 then return .error s!"{symbol}:sized_to_zero"
    else
      let pre ← evaluatePretrade v.settings v.engine a.portfolio
        (entryTradeIntent d plan a s price stop qty) (entryInputs a s seen)
      if !pre.approved then
        return .error (symbol ++ ":hard_veto:" ++ String.intercalate "," pre.hardVetoes)
      else return .ok (pre.adjustedQuantity.getD 0)

/-- The share count an exit sells or covers: all of it, or half with a floor of one. -/
def exitQty (action : SymbolAction) (held : ℚ) : ℚ :=
  if action = .partialSell ∨ action = .reduce then max 1 (held * (1 / 2)) else held

def exitSize (plan : SymbolActionPlan) (a : ValidateArgs) : Except String (ℚ × Side) :=
  let symbol := Casing.upper plan.symbol
  match existingPosition a.portfolio.positions symbol with
  | none => .error s!"{symbol}:no_position_to_exit"
  | some p =>
    if p.quantity = 0 then .error s!"{symbol}:no_position_to_exit"
    else .ok (exitQty plan.action |p.quantity|, if 0 < p.quantity then .sell else .buy)

def orderTerms (cfg : Settings) (plan : SymbolActionPlan) (price : ℚ) :
    Except String (String × Option ℚ) :=
  let symbol := Casing.upper plan.symbol
  let isLimit := plan.orderType = .limit ∨ plan.orderType = .stopLimit
  -- Exits: prefer market so stub/offline quotes cannot park unfillable limits.
  if !plan.action.isEntry then .ok ("market", none)
  else
    match plan.entryZone with
    | none =>
      -- CIO often omits entry_zone; a last-print limit sits unfilled through RTH.
      if isLimit then .ok ("market", none) else .ok (plan.orderType.value, none)
    | some zone =>
      let limit := (zone.min + zone.max) / 2
      let driftBps := |limit - price| / price * 10000
      if cfg.maxEntryLimitDriftBps < driftBps then
        .error s!"{symbol}:limit_too_far_from_last:{roundHalfEven driftBps}bps"
      else .ok (plan.orderType.value, some (roundEquityPrice limit))

/-- `attribution_from_plan`: the tags that are set. -/
def attributionFromPlan (plan : SymbolActionPlan) : Dict String :=
  [("entry_timing", plan.entryTiming), ("entry_source", plan.entrySource),
    ("trend_at_entry", plan.trendAtEntry)].filterMap fun e =>
      match e.2 with
      | some text => if text = "" then none else some (e.1, text)
      | none => none

/-- `workflow_id or decision.decision_id`. -/
def keyScope (d : CIODecision) (a : ValidateArgs) : String :=
  match a.workflowId with
  | some w => if w = "" then d.decisionId else w
  | none => d.decisionId

def intentKey (scope symbol : String) (side : Side) (action : SymbolAction) : String :=
  scope ++ ":" ++ symbol ++ ":" ++ side.value ++ ":" ++ action.value

/-- The first non-zero contract id among the rows of the symbol at the venue. -/
def conIdOf (positions : List PositionRiskView) (symbol : String) (venue : Venue) : Option Int :=
  (positions.filter (·.isAt symbol venue.value)).findSome? fun p =>
    match p.conId with
    | some c => if c = 0 then none else some c
    | none => none

def planSize (v : ExecutionValidator) (d : CIODecision) (plan : SymbolActionPlan)
    (a : ValidateArgs) (s : PlanScope) (seen : List String) (price : ℚ) :
    Except RiskError (Except String (ℚ × Side)) :=
  if plan.action.isEntry then
    (entrySize v d plan a s seen price).map (·.map fun qty => (qty, Side.buy))
  else .ok (exitSize plan a)

/-- The rest of `_validate_plan` once the size is known. -/
def finishPlan (v : ExecutionValidator) (d : CIODecision) (plan : SymbolActionPlan)
    (a : ValidateArgs) (s : PlanScope) (seen : List String) (price : ℚ)
    (sized : Except String (ℚ × Side)) : PlanOutcome :=
  let symbol := Casing.upper plan.symbol
  match sized with
  | .error reason => .rejected reason
  | .ok (qty, side) =>
    match orderTerms v.settings plan price with
    | .error reason => .rejected reason
    | .ok (orderType, limitPrice) =>
      let key := intentKey (keyScope d a) symbol side plan.action
      if key ∈ seen then .rejected s!"{symbol}:duplicate_idempotency_key"
      else
        let attr := attributionFromPlan plan
        .intent
          { symbol, side, quantity := qty, orderType, limitPrice,
            stopPrice := plan.stopLoss.map roundEquityPrice, idempotencyKey := key,
            decisionId := d.decisionId, thesis := plan.thesis, venue := some s.venue.value,
            conId := conIdOf a.portfolio.positions symbol s.venue, timeInForce := none,
            attribution := if attr.isEmpty then none else some attr }

/-- `_validate_plan`, for a plan that is not informational. -/
def validatePlan (v : ExecutionValidator) (d : CIODecision) (plan : SymbolActionPlan)
    (a : ValidateArgs) (s : PlanScope) (seen : List String) : Except RiskError PlanOutcome :=
  match entryGate d plan a s with
  | some early => .ok early
  | none =>
    match usablePrice v.settings a (Casing.upper plan.symbol) with
    | .error reason => .ok (.rejected reason)
    | .ok price =>
      (planSize v d plan a s seen price).map (finishPlan v d plan a s seen price)

/-! ## The loop over the plans -/

/-- HOLD / NO_TRADE means no new risk; so does the caller's block. -/
def skipEntries (d : CIODecision) (a : ValidateArgs) : Bool :=
  a.blockNewEntries || d.portfolioAction.isAnalysisOnly

def planScope (v : ExecutionValidator) (d : CIODecision) (a : ValidateArgs)
    (plan : SymbolActionPlan) : PlanScope :=
  let venue := venueForSymbol plan.symbol v.settings none
  { venue
    allowlist := a.entryUniverse.getD (v.settings.allowlistForVenue venue)
    heldSymbols := (a.portfolio.positions.filter fun p =>
      p.quantity ≠ 0 ∧ venueText p.venue = venue.value).map (·.symbol)
    skipEntries := skipEntries d a }

def PlanOutcome.key? : PlanOutcome → Option String
  | .intent i => some i.idempotencyKey
  | _ => none

/-- The loop: the outcome of every plan that is not informational, in order, the keys of
    the intents issued so far being seen by the next. -/
def planOutcomes (v : ExecutionValidator) (d : CIODecision) (a : ValidateArgs) :
    List String → List SymbolActionPlan →
    Except RiskError (List (SymbolActionPlan × PlanOutcome))
  | _, [] => .ok []
  | seen, plan :: plans =>
    if plan.action.isInformational then planOutcomes v d a seen plans
    else do
      let outcome ← validatePlan v d plan a (planScope v d a plan) seen
      let rest ← planOutcomes v d a (outcome.key?.toList ++ seen) plans
      return (plan, outcome) :: rest

def intentsOf (outcomes : List (SymbolActionPlan × PlanOutcome)) : List ValidatedOrderIntent :=
  outcomes.filterMap fun o => match o.2 with | .intent i => some i | _ => none

def rejectionsOf (ofExits : Bool) (outcomes : List (SymbolActionPlan × PlanOutcome)) :
    List String :=
  outcomes.filterMap fun o =>
    match o.2 with
    | .rejected reason => if o.1.action.isExit = ofExits then some reason else none
    | _ => none

/-- The verdict over the outcomes: new risk stays fail-closed, exits proceed each by
    itself. -/
def settle (outcomes : List (SymbolActionPlan × PlanOutcome)) : ExecutionValidationResult :=
  let entryRejections := rejectionsOf false outcomes
  let exitRejections := rejectionsOf true outcomes
  if entryRejections ≠ [] then
    { approved := false, intents := [], rejections := entryRejections ++ exitRejections }
  else if intentsOf outcomes ≠ [] then
    { approved := true, intents := intentsOf outcomes, rejections := exitRejections }
  else if exitRejections ≠ [] then
    { approved := false, intents := [], rejections := exitRejections }
  else { approved := true, intents := [], rejections := [] }

/-- `ExecutionValidator.validate`. -/
def validate (v : ExecutionValidator) (d : CIODecision) (a : ValidateArgs) :
    Except RiskError ExecutionValidationResult :=
  if !v.controls.isNewOrderAllowed then
    .ok { approved := false, intents := [],
          rejections := [s!"trading_controls:{v.controls.state.value}:" ++
            v.controls.reason.getD "None"] }
  else if d.portfolioAction.isRiskIncreasing && !d.riskApproval then
    .ok { approved := false, intents := [], rejections := ["cio_risk_approval_false"] }
  else if d.portfolioAction = .stayCash ∧ d.symbolActions = [] then
    .ok { approved := true, intents := [], rejections := [] }
  else (planOutcomes v d a a.seenIdempotencyKeys d.symbolActions).map settle

/-! ## What one plan's outcome says -/

/-- An intent issued for a plan: the scope's venue, the plan's key, and the size and side
    of its branch. -/
structure Issued (v : ExecutionValidator) (d : CIODecision) (plan : SymbolActionPlan)
    (a : ValidateArgs) (s : PlanScope) (seen : List String) (i : ValidatedOrderIntent) : Prop where
  symbol : i.symbol = Casing.upper plan.symbol
  venue : i.venue = some s.venue.value
  key : i.idempotencyKey = intentKey (keyScope d a) (Casing.upper plan.symbol) i.side plan.action
  fresh : i.idempotencyKey ∉ seen
  gate : entryGate d plan a s = none
  sized : ∃ price, usablePrice v.settings a (Casing.upper plan.symbol) = .ok price ∧
    planSize v d plan a s seen price = .ok (.ok (i.quantity, i.side))

variable {plan : SymbolActionPlan} {s : PlanScope} {price : ℚ}

theorem finishPlan_intent {sized : Except String (ℚ × Side)}
    (h : finishPlan v d plan a s seen price sized = .intent i) :
    sized = .ok (i.quantity, i.side) ∧ i.symbol = Casing.upper plan.symbol ∧
      i.venue = some s.venue.value ∧ i.idempotencyKey ∉ seen ∧
      i.idempotencyKey = intentKey (keyScope d a) (Casing.upper plan.symbol) i.side plan.action := by
  unfold finishPlan at h
  cases sized with
  | error reason => cases h
  | ok qs =>
    obtain ⟨qty, side⟩ := qs
    dsimp only at h
    cases ht : orderTerms v.settings plan price with
    | error reason => rw [ht] at h; cases h
    | ok terms =>
      rw [ht] at h
      dsimp only at h
      split at h
      · cases h
      · rename_i hfresh
        cases h
        exact ⟨rfl, rfl, rfl, hfresh, rfl⟩

theorem entryGate_exit (h : ¬ plan.action.isEntry) : entryGate d plan a s = none := by
  simp [entryGate, h]

theorem entryGate_not_intent : entryGate d plan a s ≠ some (.intent i) := by
  unfold entryGate
  dsimp only
  intro h
  split_ifs at h <;> simp at h

theorem issued_of_validatePlan (h : validatePlan v d plan a s seen = .ok (.intent i)) :
    Issued v d plan a s seen i := by
  unfold validatePlan at h
  cases hgate : entryGate d plan a s with
  | some early =>
    rw [hgate] at h
    cases h
    exact absurd hgate entryGate_not_intent
  | none =>
    rw [hgate] at h
    cases hprice : usablePrice v.settings a (Casing.upper plan.symbol) with
    | error reason => rw [hprice] at h; cases h
    | ok price =>
      rw [hprice] at h
      dsimp only at h
      cases hsize : planSize v d plan a s seen price with
      | error e => rw [hsize] at h; cases h
      | ok sized =>
        rw [hsize] at h
        obtain ⟨rfl, hsym, hven, hfresh, hkey⟩ := finishPlan_intent (Except.ok.inj h)
        exact ⟨hsym, hven, hkey, hfresh, hgate, price, hprice, hsize⟩

theorem planSize_entry {qty : ℚ} {side : Side} (hentry : plan.action.isEntry)
    (h : planSize v d plan a s seen price = .ok (.ok (qty, side))) :
    side = .buy ∧ entrySize v d plan a s seen price = .ok (.ok qty) := by
  rw [planSize, if_pos hentry] at h
  cases he : entrySize v d plan a s seen price with
  | error e => rw [he] at h; cases h
  | ok r =>
    rw [he] at h
    cases r with
    | error reason => cases h
    | ok q => cases h; exact ⟨rfl, rfl⟩

theorem entrySize_ok {qty : ℚ} (h : entrySize v d plan a s seen price = .ok (.ok qty)) :
    ∃ stop req inp pre, plan.stopLoss = some stop ∧ 0 < req ∧
      evaluatePretrade v.settings v.engine a.portfolio
        (entryTradeIntent d plan a s price stop req) inp = .ok pre ∧
      pre.approved ∧ qty = pre.adjustedQuantity.getD 0 := by
  unfold entrySize at h
  cases hstop : plan.stopLoss with
  | none => rw [hstop] at h; cases h
  | some stop =>
    rw [hstop] at h
    dsimp only at h
    cases hsize : positionSize v.engine.limits a.portfolio.equity price stop none 0
        (entryRiskMult v.settings a (Casing.upper plan.symbol)) with
    | error e => rw [hsize] at h; cases h
    | ok sizing =>
      simp only [hsize, bind, Except.bind] at h
      split at h
      · cases h
      · rename_i hpos
        split at h
        · cases h
        · rename_i pre hpre
          split at h
          · cases h
          · rename_i happ
            cases h
            exact ⟨stop, _, _, pre, rfl, not_le.mp hpos, hpre, by simpa using happ, rfl⟩

/-! ## What the loop says -/

theorem planOutcomes_cons (hinf : ¬ plan.action.isInformational)
    (h : planOutcomes v d a seen (plan :: plans) = .ok outs) :
    ∃ outcome rest, validatePlan v d plan a (planScope v d a plan) seen = .ok outcome ∧
      planOutcomes v d a (outcome.key?.toList ++ seen) plans = .ok rest ∧
      outs = (plan, outcome) :: rest := by
  rw [planOutcomes, if_neg hinf] at h
  cases ho : validatePlan v d plan a (planScope v d a plan) seen with
  | error e => rw [ho] at h; cases h
  | ok outcome =>
    simp only [ho, bind, Except.bind] at h
    split at h
    · cases h
    · rename_i rest hrest
      cases h
      exact ⟨outcome, rest, rfl, hrest, rfl⟩

/-- Each outcome is that of its plan, under keys that only grow. -/
theorem planOutcomes_mem (h : planOutcomes v d a seen plans = .ok outs) {outcome : PlanOutcome}
    (hmem : (plan, outcome) ∈ outs) :
    plan ∈ plans ∧ ¬ plan.action.isInformational ∧ ∃ seen', seen ⊆ seen' ∧
      validatePlan v d plan a (planScope v d a plan) seen' = .ok outcome := by
  induction plans generalizing seen outs with
  | nil => cases h; cases hmem
  | cons p plans ih =>
    by_cases hinf : p.action.isInformational
    · rw [planOutcomes, if_pos hinf] at h
      obtain ⟨hin, hrest⟩ := ih h hmem
      exact ⟨List.mem_cons_of_mem _ hin, hrest⟩
    · obtain ⟨o, rest, ho, hrest, rfl⟩ := planOutcomes_cons hinf h
      rcases List.mem_cons.mp hmem with heq | hmem
      · cases heq
        exact ⟨List.mem_cons_self .., hinf, seen, List.Subset.refl _, ho⟩
      · obtain ⟨hin, hinf', seen', hsub, hval⟩ := ih hrest hmem
        exact ⟨List.mem_cons_of_mem _ hin, hinf', seen',
          fun k hk => hsub (List.mem_append_right _ hk), hval⟩

theorem mem_planOutcomes (houts : planOutcomes v d a seen plans = .ok outs) (hplan : plan ∈ plans)
    (hinf : ¬ plan.action.isInformational) : ∃ outcome, (plan, outcome) ∈ outs := by
  induction plans generalizing seen outs with
  | nil => cases hplan
  | cons p plans ih =>
    by_cases hp : p.action.isInformational
    · rw [planOutcomes, if_pos hp] at houts
      refine ih houts ((List.mem_cons.mp hplan).resolve_left ?_)
      rintro rfl
      exact hinf hp
    · obtain ⟨outcome, rest, -, hrest, rfl⟩ := planOutcomes_cons hp houts
      rcases List.mem_cons.mp hplan with rfl | hplan
      · exact ⟨outcome, List.mem_cons_self⟩
      · obtain ⟨outcome, hmem⟩ := ih hrest hplan
        exact ⟨outcome, List.mem_cons_of_mem _ hmem⟩

end

theorem mem_intentsOf : i ∈ intentsOf outs ↔ ∃ plan, (plan, .intent i) ∈ outs := by
  simp only [intentsOf, List.mem_filterMap]
  constructor
  · rintro ⟨⟨plan, outcome⟩, hmem, ho⟩
    cases outcome with
    | intent j => cases ho; exact ⟨plan, hmem⟩
    | rejected reason => cases ho
    | skipped => cases ho
  · rintro ⟨plan, hmem⟩
    exact ⟨(plan, .intent i), hmem, rfl⟩

theorem settle_intents (outs : List (SymbolActionPlan × PlanOutcome)) :
    (settle outs).intents = intentsOf outs ∨ (settle outs).intents = [] := by
  unfold settle
  dsimp only
  split
  · exact Or.inr rfl
  · split
    · exact Or.inl rfl
    · split <;> exact Or.inr rfl

theorem settle_intents_of_no_rejection (h : rejectionsOf false outs = []) :
    (settle outs).intents = intentsOf outs := by
  unfold settle
  dsimp only
  rw [if_neg (by simpa using h)]
  split
  · rfl
  · rename_i hnone
    split <;> exact (by simpa using hnone : intentsOf outs = []).symm

variable [Casing]

variable {r : ExecutionValidationResult}

theorem settled_of_validate (h : validate v d a = .ok r) :
    (r.approved = false ∧ r.intents = []) ∨
      (v.controls.isNewOrderAllowed ∧ ¬ (d.portfolioAction.isRiskIncreasing && !d.riskApproval) ∧
        ∃ outs, planOutcomes v d a a.seenIdempotencyKeys d.symbolActions = .ok outs ∧
          r = settle outs) := by
  unfold validate at h
  split at h
  · cases h
    exact Or.inl ⟨rfl, rfl⟩
  · rename_i hcontrols
    split at h
    · cases h
      exact Or.inl ⟨rfl, rfl⟩
    · rename_i happroval
      refine Or.inr ⟨by simpa using hcontrols, happroval, ?_⟩
      split at h
      · -- cash without a plan returns before the loop what the loop would have come to
        rename_i hcash
        cases h
        exact ⟨[], by rw [hcash.2]; rfl, rfl⟩
      · cases houts : planOutcomes v d a a.seenIdempotencyKeys d.symbolActions with
        | error e =>
          rw [houts] at h
          cases h
        | ok outs =>
          rw [houts] at h
          exact ⟨outs, rfl, (Except.ok.inj h).symm⟩

theorem planned_of_validate (h : validate v d a = .ok r) (hi : i ∈ r.intents) :
    ∃ plan ∈ d.symbolActions, ¬ plan.action.isInformational ∧ ∃ seen,
      a.seenIdempotencyKeys ⊆ seen ∧
        validatePlan v d plan a (planScope v d a plan) seen = .ok (.intent i) := by
  rcases settled_of_validate h with ⟨-, hnone⟩ | ⟨-, -, outs, houts, rfl⟩
  · rw [hnone] at hi
    cases hi
  · rcases settle_intents outs with hall | hnone
    · rw [hall] at hi
      obtain ⟨plan, hmem⟩ := mem_intentsOf.mp hi
      obtain ⟨hin, hinf, seen, hsub, hval⟩ := planOutcomes_mem houts hmem
      exact ⟨plan, hin, hinf, seen, hsub, hval⟩
    · rw [hnone] at hi
      cases hi

theorem issued_of_validate (h : validate v d a = .ok r) (hi : i ∈ r.intents) :
    ∃ plan ∈ d.symbolActions, ¬ plan.action.isInformational ∧ ∃ seen,
      a.seenIdempotencyKeys ⊆ seen ∧ Issued v d plan a (planScope v d a plan) seen i := by
  obtain ⟨plan, hin, hinf, seen, hsub, hval⟩ := planned_of_validate h hi
  exact ⟨plan, hin, hinf, seen, hsub, issued_of_validatePlan hval⟩

end Validator

end Investor.Execution
