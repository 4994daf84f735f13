import Investor.Execution.EntryStops
import Investor.Execution.EntryLedger
import Investor.Execution.OneOrderPerPlan
import Investor.Execution.RefusedBatch

/-!
# The intents the bridge writes down

`materialize_cio_decision` validates a decision against the keys of the orders on file and submits
from that. The order intents are written by `build_intents_from_decision`, which validates the
decision once more: without those keys, and with the symbols of the horizon books in upper case. The
two validations agree on everything but these two, so they agree on the intents exactly if

* no exit that could be sent is on file already (`ExitsUnseen`). The first validation refuses such
  an exit by itself and goes on; the second issues it, and it is written down beside the others.
* each entry is sized the same with the books read in upper case (`EntriesAlike`).

`revalidate_iff` says so of the two validations, by one turn of both loops at a time, and
`bridged_intents_iff` of the rows that a run of the bridge leaves.
-/

namespace Investor.Execution

open Lib Schema Market Risk Universe Core

section Again

variable {v : ExecutionValidator} {d : CIODecision} {plan : SymbolActionPlan}
  {a : ValidateArgs} {s : PlanScope} {seen seen' : List String} {price stop : ℚ}
  {i j : ValidatedOrderIntent} {r r' : ExecutionValidationResult}

variable {o : PlanOutcome}

section

variable [Casing]

def ValidateArgs.again (a : ValidateArgs) : ValidateArgs :=
  { a with seenIdempotencyKeys := [], horizonBySymbol := upperHorizons a.horizonBySymbol }

structure SameOrder (i j : ValidatedOrderIntent) : Prop where
  symbol : i.symbol = j.symbol
  side : i.side = j.side
  quantity : i.quantity = j.quantity

/-! ## The size of an entry -/

/-- What an entry asks the engine for under a multiplier of its risk. -/
def askedQty (v : ExecutionValidator) (a : ValidateArgs) (plan : SymbolActionPlan)
    (price stop mult : ℚ) : ℚ :=
  match positionSize v.engine.limits a.portfolio.equity price stop none 0 mult with
  | .ok sizing => requestedQty sizing.shares plan.targetPositionPct price a.portfolio.equity
  | .error _ => 0

def entryTrade (v : ExecutionValidator) (d : CIODecision) (a : ValidateArgs)
    (plan : SymbolActionPlan) (price stop : ℚ) : TradeIntent :=
  entryTradeIntent d plan a (planScope v d a plan) price stop 0

def engineSizing (v : ExecutionValidator) (d : CIODecision) (a : ValidateArgs)
    (plan : SymbolActionPlan) (price stop : ℚ) : Except RiskError SizingResult :=
  let factor := baseFactor v.settings v.engine a.portfolio (entryTrade v d a plan price stop)
  positionSize v.engine.limits a.portfolio.equity (price * factor) (stop * factor) none
    (existingValue a.portfolio.positions (Casing.upper plan.symbol)
      (planScope v d a plan).venue.value) 1

def engineShares (v : ExecutionValidator) (d : CIODecision) (a : ValidateArgs)
    (plan : SymbolActionPlan) (price stop : ℚ) : ℚ :=
  match engineSizing v d a plan price stop with
  | .ok sizing => sizing.shares
  | .error _ => 0

variable {qty : ℚ}

theorem entrySize_ok_iff : entrySize v d plan a s seen price = .ok (.ok qty) ↔
    ∃ stop, plan.stopLoss = some stop ∧
      0 < askedQty v a plan price stop (entryRiskMult v.settings a (Casing.upper plan.symbol)) ∧
      ∃ pre, evaluatePretrade v.settings v.engine a.portfolio
          (entryTradeIntent d plan a s price stop (askedQty v a plan price stop
            (entryRiskMult v.settings a (Casing.upper plan.symbol)))) (entryInputs a s seen) =
              .ok pre ∧
        pre.approved ∧ qty = pre.adjustedQuantity.getD 0 := by
  unfold entrySize askedQty
  cases hstop : plan.stopLoss with
  | none =>
    refine iff_of_false ?_ ?_
    · intro h
      cases h
    · rintro ⟨stop, h, -⟩
      cases h
  | some stop =>
    dsimp only
    cases hsize : positionSize v.engine.limits a.portfolio.equity price stop none 0
        (entryRiskMult v.settings a (Casing.upper plan.symbol)) with
    | error err =>
      refine iff_of_false ?_ ?_
      · intro h
        cases h
      · rintro ⟨stop', h, hpos, -⟩
        cases h
        rw [hsize] at hpos
        exact absurd hpos (lt_irrefl 0)
    | ok sizing =>
      simp only [Option.some.injEq, exists_eq_left', hsize, bind, Except.bind]
      generalize requestedQty sizing.shares plan.targetPositionPct price a.portfolio.equity = asked
      by_cases hpos : asked ≤ 0
      · rw [if_pos hpos]
        refine iff_of_false ?_ fun h => absurd h.1 (not_lt.mpr hpos)
        intro h
        cases h
      · rw [and_iff_right (not_le.mp hpos), if_neg hpos]
        cases hpre : evaluatePretrade v.settings v.engine a.portfolio
            (entryTradeIntent d plan a s price stop asked) (entryInputs a s seen) with
        | error err =>
          refine iff_of_false ?_ ?_
          · intro h
            cases h
          · rintro ⟨pre, h, -⟩
            cases h
        | ok pre =>
          dsimp only
          by_cases happroved : pre.approved
          · rw [if_neg (by simpa using happroved)]
            constructor
            · intro h
              cases h
              exact ⟨pre, rfl, happroved, rfl⟩
            · rintro ⟨pre', h, -, rfl⟩
              cases h
              rfl
          · rw [if_pos (by simpa using happroved)]
            refine iff_of_false ?_ ?_
            · intro h
              cases h
            · rintro ⟨pre', h, happroved', -⟩
              cases h
              exact happroved happroved'

theorem entrySize_quantity
    (h : entrySize v d plan a (planScope v d a plan) seen price = .ok (.ok qty))
    (hstop : plan.stopLoss = some stop) :
    0 < askedQty v a plan price stop (entryRiskMult v.settings a (Casing.upper plan.symbol)) ∧
      qty = min (askedQty v a plan price stop
        (entryRiskMult v.settings a (Casing.upper plan.symbol)))
        (engineShares v d a plan price stop) := by
  obtain ⟨stop', hstop', hpos, pre, hpre, happroved, rfl⟩ := entrySize_ok_iff.mp h
  obtain rfl := Option.some.inj (hstop.symm.trans hstop')
  refine ⟨hpos, ?_⟩
  obtain ⟨sizing, hsizing, -, hqty⟩ := evaluatePretrade_adjusted hpre happroved rfl rfl
  rw [entryTradeIntent_venue] at hsizing
  have hown : engineSizing v d a plan price stop = .ok sizing := by
    unfold engineSizing
    rw [← Casing.upper_upper plan.symbol]
    exact hsizing
  rw [hqty, engineShares, hown]
  rfl

theorem sizedPart_asked (asked : ℚ)
    (hconv : (entryTrade v d a plan price stop).currencyOf v.settings = a.portfolio.baseCcy ∨
      (fxRate v.engine.fxRates ((entryTrade v d a plan price stop).currencyOf v.settings)
        a.portfolio.baseCcy).isSome) :
    sizedPart v.settings v.engine a.portfolio
        (entryTradeIntent d plan a (planScope v d a plan) price stop asked) =
      (sizeBuy v.engine a.portfolio
        (entryTradeIntent d plan a (planScope v d a plan) price stop asked)
        (planScope v d a plan).venue.value stop
        (baseFactor v.settings v.engine a.portfolio (entryTrade v d a plan price stop))).map
          some := by
  have h := @sizedPart_of_stop _ v.settings v.engine a.portfolio
    (entryTradeIntent d plan a (planScope v d a plan) price stop asked) stop rfl rfl hconv
  rw [entryTradeIntent_venue] at h
  exact h

theorem evaluatePretrade_asked {asked asked' : ℚ} {inp : PretradeInputs}
    (hconv : (entryTrade v d a plan price stop).currencyOf v.settings = a.portfolio.baseCcy ∨
      (fxRate v.engine.fxRates ((entryTrade v d a plan price stop).currencyOf v.settings)
        a.portfolio.baseCcy).isSome)
    (hmin : min asked (engineShares v d a plan price stop) =
      min asked' (engineShares v d a plan price stop)) :
    evaluatePretrade v.settings v.engine a.portfolio
        (entryTradeIntent d plan a (planScope v d a plan) price stop asked) inp =
      evaluatePretrade v.settings v.engine a.portfolio
        (entryTradeIntent d plan a (planScope v d a plan) price stop asked') inp := by
  have hsized : sizeBuy v.engine a.portfolio
        (entryTradeIntent d plan a (planScope v d a plan) price stop asked)
        (planScope v d a plan).venue.value stop
        (baseFactor v.settings v.engine a.portfolio (entryTrade v d a plan price stop)) =
      sizeBuy v.engine a.portfolio
        (entryTradeIntent d plan a (planScope v d a plan) price stop asked')
        (planScope v d a plan).venue.value stop
        (baseFactor v.settings v.engine a.portfolio (entryTrade v d a plan price stop)) := by
    unfold sizeBuy
    simp only [entryTradeIntent, Option.map_none, Casing.upper_upper]
    unfold engineShares engineSizing at hmin
    dsimp only at hmin
    generalize positionSize v.engine.limits a.portfolio.equity _ _ none _ 1 = sizing at hmin ⊢
    cases sizing with
    | error err => rfl
    | ok sizing =>
      dsimp only at hmin
      simp only [bind, Except.bind, hmin]
  unfold evaluatePretrade
  rw [sizedPart_asked asked hconv, sizedPart_asked asked' hconv, hsized]
  generalize sizeBuy v.engine a.portfolio
    (entryTradeIntent d plan a (planScope v d a plan) price stop asked') _ _ _ = sized
  cases sized <;> rfl

/-! ## One turn of both loops -/

/-- The books in upper case leave the entry a place, and it is sized the same under both. -/
structure AlikeAt (v : ExecutionValidator) (d : CIODecision) (a : ValidateArgs)
    (plan : SymbolActionPlan) : Prop where
  place : horizonCapViolation (Casing.upper plan.symbol) a.again.horizonBySymbol
    (planScope v d a plan).heldSymbols = none
  size : ∀ price stop, usablePrice v.settings a (Casing.upper plan.symbol) = .ok price →
    plan.stopLoss = some stop →
    let asked := askedQty v a plan price stop
      (entryRiskMult v.settings a (Casing.upper plan.symbol))
    let askedAgain := askedQty v a plan price stop
      (entryRiskMult v.settings a.again (Casing.upper plan.symbol))
    0 < askedAgain ∧ min askedAgain (engineShares v d a plan price stop) =
      min asked (engineShares v d a plan price stop)

theorem pretradeKey_not_mem {pre : PreTradeRiskResult}
    (h : evaluatePretrade v.settings v.engine a.portfolio
      (entryTradeIntent d plan a s price stop qty) (entryInputs a s seen) = .ok pre)
    (happroved : pre.approved) : s!"{d.decisionId}:{Casing.upper plan.symbol}:buy" ∉ seen := by
  intro hmem
  have hdup : CheckResult.mk "duplicate_idempotency_key" false true ∈
      tradeChecks v.engine.limits (entryTradeIntent d plan a s price stop qty)
        (entryInputs a s seen) := by
    have hne : s!"{d.decisionId}:{Casing.upper plan.symbol}:buy" ≠ "" := by
      intro hempty
      have hparts := congrArg String.length hempty
      simp at hparts
      exact absurd hparts.2 (by decide)
    refine List.mem_append_right _ ?_
    simp [entryTradeIntent, entryInputs, hmem, hne]
  have hpassed := gates_of_approved h happroved _
    (List.mem_append_left _ (List.mem_append_right _ hdup)) rfl
  cases hpassed

theorem entrySize_again_iff (hsub : ∀ k ∈ seen', k ∈ seen) (hstop : plan.stopLoss = some stop)
    (h : entrySize v d plan a (planScope v d a plan) seen price = .ok (.ok qty)) :
    entrySize v d plan a.again (planScope v d a plan) seen' price = .ok (.ok qty) ↔
      0 < askedQty v a plan price stop
        (entryRiskMult v.settings a.again (Casing.upper plan.symbol)) ∧
      min (askedQty v a plan price stop
          (entryRiskMult v.settings a.again (Casing.upper plan.symbol)))
          (engineShares v d a plan price stop) =
        min (askedQty v a plan price stop (entryRiskMult v.settings a (Casing.upper plan.symbol)))
          (engineShares v d a plan price stop) := by
  obtain ⟨-, hqty⟩ := entrySize_quantity h hstop
  constructor
  · intro hagain
    obtain ⟨hpos, hqty'⟩ := entrySize_quantity (a := a.again) hagain hstop
    exact ⟨hpos, hqty'.symm.trans hqty⟩
  · rintro ⟨hpos, hmin⟩
    obtain ⟨stop', hstop', -, pre, hpre, happroved, hpreqty⟩ := entrySize_ok_iff.mp h
    obtain rfl := Option.some.inj (hstop.symm.trans hstop')
    have hconv := convertible_of_gates rfl (gates_of_approved hpre happroved)
    have hnot := pretradeKey_not_mem hpre happroved
    have hkeys : s!"{d.decisionId}:{Casing.upper plan.symbol}:buy" ∈ seen' ↔
        s!"{d.decisionId}:{Casing.upper plan.symbol}:buy" ∈ seen :=
      iff_of_false (fun hmem => hnot (hsub _ hmem)) hnot
    rw [entrySize_congr hkeys]
    refine entrySize_ok_iff.mpr ⟨stop, hstop, hpos, pre, ?_, happroved, hpreqty⟩
    exact (evaluatePretrade_asked hconv hmin).trans hpre

theorem entry_turn (hentry : plan.action.isEntry) (hsub : ∀ k ∈ seen', k ∈ seen)
    (h : validatePlan v d plan a (planScope v d a plan) seen = .ok (.intent i)) :
    (∃ j, validatePlan v d plan a.again (planScope v d a plan) seen' = .ok (.intent j) ∧
      j.quantity = i.quantity) ↔ AlikeAt v d a plan := by
  have hissued := issued_of_validatePlan h
  obtain ⟨price, orderType, hprice, hsize, hterms, -⟩ := terms_of_validatePlan h
  obtain ⟨hside, hsize⟩ := planSize_entry hentry hsize
  obtain ⟨stop, hstop⟩ := Option.isSome_iff_exists.mp (entrySize_pos hsize).2
  have hagain := entrySize_again_iff hsub hstop hsize
  obtain ⟨hallowed, hskip, happroval, hdoc, -⟩ := (entryGate_eq_none_iff hentry).mp hissued.gate
  constructor
  · rintro ⟨j, hj, hqty⟩
    have hissued' := issued_of_validatePlan hj
    obtain ⟨-, -, -, -, hplace⟩ := (entryGate_eq_none_iff hentry).mp hissued'.gate
    obtain ⟨price', -, hprice', hsize', -⟩ := terms_of_validatePlan hj
    obtain rfl : price = price' := Except.ok.inj (hprice.symm.trans hprice')
    refine ⟨hplace, ?_⟩
    intro price' stop' hprice'' hstop'
    obtain rfl : price = price' := Except.ok.inj (hprice.symm.trans hprice'')
    obtain rfl := Option.some.inj (hstop.symm.trans hstop')
    exact hagain.mp (hqty ▸ (planSize_entry hentry hsize').2)
  · intro halike
    have hgate : entryGate d plan a.again (planScope v d a plan) = none :=
      (entryGate_eq_none_iff hentry).mpr ⟨hallowed, hskip, happroval, hdoc, halike.place⟩
    have hsize' := hagain.mpr (halike.size price stop hprice hstop)
    have hprice' : usablePrice v.settings a.again (Casing.upper plan.symbol) = .ok price := hprice
    have hplanSize : planSize v d plan a.again (planScope v d a plan) seen' price =
        .ok (.ok (i.quantity, .buy)) := by
      rw [planSize, if_pos hentry, hsize']
      rfl
    have hfresh : intentKey (keyScope d a.again) (Casing.upper plan.symbol) .buy plan.action ∉
        seen' := by
      intro hmem
      refine hissued.fresh (hsub _ ?_)
      rw [hissued.key, hside]
      exact hmem
    unfold validatePlan
    rw [hgate]
    dsimp only
    rw [hprice']
    dsimp only
    rw [hplanSize]
    simp only [Except.map, finishPlan, hterms, if_neg hfresh]
    exact ⟨_, rfl, rfl⟩

/-- No exit that could be sent has its key among those seen before the call. -/
def ExitsUnseen (v : ExecutionValidator) (d : CIODecision) (a : ValidateArgs) : Prop :=
  ∀ plan ∈ d.symbolActions, plan.action.isExit →
    ∀ q, ExitOpen v a (Casing.upper plan.symbol) q →
      intentKey (keyScope d a) (Casing.upper plan.symbol) (exitSide q) plan.action ∉
        a.seenIdempotencyKeys

/-- Each entry that is not skipped has a place and the same size under the books in upper case. -/
def EntriesAlike (v : ExecutionValidator) (d : CIODecision) (a : ValidateArgs) : Prop :=
  skipEntries d a = false → ∀ plan ∈ d.symbolActions, plan.action.isEntry → AlikeAt v d a plan

/-- The outcomes of one plan in the two loops, where no entry is refused: an intent in both under
    one key, an intent in neither, or one in the second alone, under a key that the first has
    seen. -/
inductive Turn (act : SymbolAction) (seen : List String) : PlanOutcome → PlanOutcome → Prop
  | both {i j : ValidatedOrderIntent} (key : j.idempotencyKey = i.idempotencyKey)
      (symbol : j.symbol = i.symbol) (side : j.side = i.side)
      (quantity : act.isExit → j.quantity = i.quantity) : Turn act seen (.intent i) (.intent j)
  | neither {o o' : PlanOutcome} (first : o.key? = none) (second : o'.key? = none) :
      Turn act seen o o'
  | second {o : PlanOutcome} {j : ValidatedOrderIntent} (exit : act.isExit) (first : o.key? = none)
      (key : j.idempotencyKey ∈ seen) : Turn act seen o (.intent j)

/-- **One turn of both loops**, the second having seen no more keys. -/
theorem turn_of_outcomes {o' : PlanOutcome} (hinf : ¬ plan.action.isInformational)
    (hsub : ∀ k ∈ seen', k ∈ seen)
    (ho : validatePlan v d plan a (planScope v d a plan) seen = .ok o)
    (ho' : validatePlan v d plan a.again (planScope v d a plan) seen' = .ok o')
    (hok : plan.action.isExit ∨ ∀ reason, o ≠ .rejected reason)
    (hok' : plan.action.isExit ∨ ∀ reason, o' ≠ .rejected reason) : Turn plan.action seen o o' := by
  by_cases hexit : plan.action.isExit
  · rcases @validatePlan_exit _ v d plan a (planScope v d a plan) seen hexit with
      ⟨q, i, hopen, hnew, hval, hqty, hside⟩ | ⟨hold, reason, hval⟩
    · obtain rfl := Except.ok.inj (hval.symm.trans ho)
      rcases @validatePlan_exit _ v d plan a.again (planScope v d a plan) seen' hexit with
        ⟨q', j, hopen', hnew', hval', hqty', hside'⟩ | ⟨hold', reason, hval'⟩
      · obtain rfl := Except.ok.inj (hval'.symm.trans ho')
        obtain rfl : q' = q := ExitOpen.unique (a := a) hopen' hopen
        have hi := issued_of_validatePlan ho
        have hj := issued_of_validatePlan ho'
        have hsides : j.side = i.side := hside'.trans hside.symm
        refine .both ?_ (hj.symbol.trans hi.symbol.symm) hsides fun _ => hqty'.trans hqty.symm
        rw [hj.key, hi.key, hsides]
        rfl
      · exact absurd (hsub _ (hold' q hopen)) hnew
    · obtain rfl := Except.ok.inj (hval.symm.trans ho)
      cases o' with
      | intent j =>
        refine .second hexit rfl ?_
        rcases @validatePlan_exit _ v d plan a.again (planScope v d a plan) seen' hexit with
          ⟨q', j', hopen', hnew', hval', hqty', hside'⟩ | ⟨hold', reason, hval'⟩
        · cases hval'.symm.trans ho'
          have hj := issued_of_validatePlan ho'
          rw [hj.key, hside']
          exact hold q' hopen'
        · cases hval'.symm.trans ho'
      | rejected reason' => exact .neither rfl rfl
      | skipped => exact .neither rfl rfl
  · have hentry : plan.action.isEntry := SymbolAction.isEntry_of_not hexit hinf
    have hnone := hok.resolve_left hexit
    have hnone' := hok'.resolve_left hexit
    cases o with
    | rejected reason => exact absurd rfl (hnone reason)
    | skipped =>
      cases o' with
      | rejected reason => exact absurd rfl (hnone' reason)
      | skipped => exact .neither rfl rfl
      | intent j =>
        rcases validatePlan_entry seen hentry with href | ⟨hyes, -⟩ | ⟨-, -, i, hi, -⟩
        · rw [ho] at href
          cases href
        · exact absurd (issued_of_validatePlan ho').gate ((entryGate_skip hentry).2 hyes)
        · rw [ho] at hi
          cases hi
    | intent i =>
      have hi := issued_of_validatePlan ho
      cases o' with
      | rejected reason => exact absurd rfl (hnone' reason)
      | skipped =>
        rcases validatePlan_entry seen' hentry with href | ⟨hyes, -⟩ | ⟨-, -, j, hj, -⟩
        · rw [ho'] at href
          cases href
        · exact absurd hi.gate ((entryGate_skip hentry).2 hyes)
        · rw [ho'] at hj
          cases hj
      | intent j =>
        have hj := issued_of_validatePlan ho'
        obtain ⟨_, _, hsize⟩ := hi.sized
        obtain ⟨_, _, hsize'⟩ := hj.sized
        have hsides : j.side = i.side :=
          (planSize_entry hentry hsize').1.trans (planSize_entry hentry hsize).1.symm
        refine .both ?_ (hj.symbol.trans hi.symbol.symm) hsides fun h => absurd h hexit
        rw [hj.key, hi.key, hsides]
        rfl

end

/-! ## The two loops -/

theorem intentsOf_cons_of_key {rest : List (SymbolActionPlan × PlanOutcome)} (h : o.key? = none) :
    intentsOf ((plan, o) :: rest) = intentsOf rest := by
  cases o with
  | intent i => cases h
  | rejected reason => rfl
  | skipped => rfl

variable [Casing]

variable {plans : List SymbolActionPlan} {outs : List (SymbolActionPlan × PlanOutcome)}

theorem length_intents_le {outs' : List (SymbolActionPlan × PlanOutcome)}
    (hsub : ∀ k ∈ seen', k ∈ seen) (h : planOutcomes v d a seen plans = .ok outs)
    (hnone : rejectionsOf false outs = []) (h' : planOutcomes v d a.again seen' plans = .ok outs')
    (hnone' : rejectionsOf false outs' = []) :
    (intentsOf outs).length ≤ (intentsOf outs').length := by
  induction plans generalizing seen seen' outs outs' with
  | nil =>
    cases h
    exact Nat.zero_le _
  | cons plan plans ih =>
    by_cases hinf : plan.action.isInformational
    · rw [planOutcomes, if_pos hinf] at h h'
      exact ih hsub h hnone h' hnone'
    · obtain ⟨o, rest, ho, hrest, rfl⟩ := planOutcomes_cons hinf h
      obtain ⟨o', rest', ho', hrest', rfl⟩ := planOutcomes_cons hinf h'
      obtain ⟨hok, hnone⟩ := rejectionsOf_cons_eq_nil_iff.mp hnone
      obtain ⟨hok', hnone'⟩ := rejectionsOf_cons_eq_nil_iff.mp hnone'
      cases turn_of_outcomes hinf hsub ho ho' hok hok' with
      | @both i j key symbol side quantity =>
        have hsub' : ∀ k ∈ j.idempotencyKey :: seen', k ∈ i.idempotencyKey :: seen := by
          rw [key]
          exact List.cons_subset_cons _ hsub
        exact Nat.succ_le_succ (ih hsub' hrest hnone hrest' hnone')
      | neither first second =>
        rw [first] at hrest
        rw [second] at hrest'
        rw [intentsOf_cons_of_key first, intentsOf_cons_of_key second]
        exact ih hsub hrest hnone hrest' hnone'
      | @second _ j exit first key =>
        rw [first] at hrest
        rw [intentsOf_cons_of_key first]
        refine (ih ?_ hrest hnone hrest' hnone').trans (Nat.le_succ _)
        exact List.forall_mem_cons.mpr ⟨key, hsub⟩

/-- **Where the second loop issues the same, its books and keys made no difference.** -/
theorem alike_of_outcomes {outs' : List (SymbolActionPlan × PlanOutcome)}
    (hsub : ∀ k ∈ seen', k ∈ seen) (hstart : ∀ k ∈ a.seenIdempotencyKeys, k ∈ seen)
    (hnew : ∀ k ∈ seen', k ∉ a.seenIdempotencyKeys) (h : planOutcomes v d a seen plans = .ok outs)
    (hnone : rejectionsOf false outs = []) (h' : planOutcomes v d a.again seen' plans = .ok outs')
    (hnone' : rejectionsOf false outs' = [])
    (hsame : List.Forall₂ SameOrder (intentsOf outs') (intentsOf outs)) :
    ∀ plan ∈ plans,
      (plan.action.isExit → ∀ q, ExitOpen v a (Casing.upper plan.symbol) q →
        intentKey (keyScope d a) (Casing.upper plan.symbol) (exitSide q) plan.action ∉
          a.seenIdempotencyKeys) ∧
      (plan.action.isEntry → skipEntries d a = false → AlikeAt v d a plan) := by
  induction plans generalizing seen seen' outs outs' with
  | nil => exact List.forall_mem_nil _
  | cons plan plans ih =>
    rw [List.forall_mem_cons]
    by_cases hinf : plan.action.isInformational
    · rw [planOutcomes, if_pos hinf] at h h'
      refine ⟨?_, ih hsub hstart hnew h hnone h' hnone' hsame⟩
      exact ⟨fun hexit => absurd hinf (SymbolAction.not_isInformational_of_isExit hexit),
        fun hentry => absurd hinf (SymbolAction.not_isInformational_of_isEntry hentry)⟩
    · obtain ⟨o, rest, ho, hrest, rfl⟩ := planOutcomes_cons hinf h
      obtain ⟨o', rest', ho', hrest', rfl⟩ := planOutcomes_cons hinf h'
      obtain ⟨hok, hnone⟩ := rejectionsOf_cons_eq_nil_iff.mp hnone
      obtain ⟨hok', hnone'⟩ := rejectionsOf_cons_eq_nil_iff.mp hnone'
      cases turn_of_outcomes hinf hsub ho ho' hok hok' with
      | @both i j key symbol side quantity =>
        obtain ⟨hhead, hsame⟩ := List.forall₂_cons.mp hsame
        have hfresh : i.idempotencyKey ∉ seen := (issued_of_validatePlan ho).fresh
        have hsub' : ∀ k ∈ j.idempotencyKey :: seen', k ∈ i.idempotencyKey :: seen := by
          rw [key]
          exact List.cons_subset_cons _ hsub
        have hnew' : ∀ k ∈ j.idempotencyKey :: seen', k ∉ a.seenIdempotencyKeys := by
          refine List.forall_mem_cons.mpr ⟨?_, hnew⟩
          rw [key]
          exact fun hmem => hfresh (hstart _ hmem)
        refine ⟨⟨?_, ?_⟩, ih hsub' (fun k hk => List.mem_cons_of_mem _ (hstart k hk)) hnew' hrest
          hnone hrest' hnone' hsame⟩
        · intro hexit q hopen hmem
          rcases @validatePlan_exit _ v d plan a (planScope v d a plan) seen hexit with
            ⟨q', _, hopen', hkey, -⟩ | ⟨-, reason, hval⟩
          · obtain rfl := hopen.unique hopen'
            exact hkey (hstart _ hmem)
          · rw [ho] at hval
            cases hval
        · intro hentry _
          exact (entry_turn hentry hsub ho).mp ⟨j, ho', hhead.quantity⟩
      | neither first second =>
        rw [first] at hrest
        rw [second] at hrest'
        rw [intentsOf_cons_of_key first, intentsOf_cons_of_key second] at hsame
        refine ⟨⟨?_, ?_⟩, ih hsub hstart hnew hrest hnone hrest' hnone' hsame⟩
        · intro hexit q hopen
          rcases @validatePlan_exit _ v d plan a.again (planScope v d a plan) seen' hexit with
            ⟨_, j, -, -, hval, -⟩ | ⟨hold, -⟩
          · cases hval.symm.trans ho'
            cases second
          · exact hnew _ (hold q hopen)
        · intro hentry hskip
          rcases validatePlan_entry seen hentry with href | ⟨hyes, -⟩ | ⟨-, -, i, hi, -⟩
          · exfalso
            rw [ho] at href
            cases o with
            | intent i => cases href
            | skipped => cases href
            | rejected reason =>
              exact hok.elim (SymbolAction.not_isExit_of_isEntry hentry) fun hne => hne reason rfl
          · exact absurd (hskip.symm.trans hyes) Bool.false_ne_true
          · cases hi.symm.trans ho
            cases first
      | @second _ j exit first key =>
        -- then the second loop issues more
        exfalso
        rw [first] at hrest
        rw [intentsOf_cons_of_key first] at hsame
        have hle := length_intents_le (List.forall_mem_cons.mpr ⟨key, hsub⟩) hrest hnone hrest'
          hnone'
        have hlen := hsame.length_eq
        rw [intentsOf_cons] at hlen
        simp at hlen
        omega

theorem validatePlan_again_skipped (hentry : plan.action.isEntry) (hskip : s.skipEntries = true)
    (h : validatePlan v d plan a s seen = .ok .skipped) :
    validatePlan v d plan a.again s seen' = .ok .skipped := by
  have hgates : entryGate d plan a.again s = entryGate d plan a s := by
    unfold entryGate
    simp [hskip]
  unfold validatePlan at h ⊢
  rw [hgates]
  cases hgate : entryGate d plan a s with
  | some early =>
    rw [hgate] at h
    exact h
  | none => exact absurd hgate ((entryGate_skip hentry).2 hskip)

theorem turn_again (hinf : ¬ plan.action.isInformational) (hsub : ∀ k ∈ seen', k ∈ seen)
    (honly : ∀ k ∈ seen, k ∈ seen' ∨ k ∈ a.seenIdempotencyKeys)
    (hexits : plan.action.isExit → ∀ q, ExitOpen v a (Casing.upper plan.symbol) q →
      intentKey (keyScope d a) (Casing.upper plan.symbol) (exitSide q) plan.action ∉
        a.seenIdempotencyKeys)
    (hentries : skipEntries d a = false → plan.action.isEntry → AlikeAt v d a plan)
    (ho : validatePlan v d plan a (planScope v d a plan) seen = .ok o)
    (hok : plan.action.isExit ∨ ∀ reason, o ≠ .rejected reason) :
    ∃ o', validatePlan v d plan a.again (planScope v d a plan) seen' = .ok o' ∧
      (plan.action.isExit ∨ ∀ reason, o' ≠ .rejected reason) ∧
      ((o.key? = none ∧ o'.key? = none) ∨ ∃ i j, o = .intent i ∧ o' = .intent j ∧
        j.idempotencyKey = i.idempotencyKey ∧ SameOrder j i) := by
  by_cases hexit : plan.action.isExit
  · have hturn : ∃ o', validatePlan v d plan a.again (planScope v d a plan) seen' = .ok o' := by
      rcases @validatePlan_exit _ v d plan a.again (planScope v d a plan) seen' hexit with
        ⟨_, _, -, -, hval, -⟩ | ⟨-, _, hval⟩
      · exact ⟨_, hval⟩
      · exact ⟨_, hval⟩
    obtain ⟨o', ho'⟩ := hturn
    refine ⟨o', ho', Or.inl hexit, ?_⟩
    cases turn_of_outcomes hinf hsub ho ho' hok (Or.inl hexit) with
    | @both i j key symbol side quantity =>
      exact Or.inr ⟨i, j, rfl, rfl, key, symbol, side, quantity hexit⟩
    | neither first second => exact Or.inl ⟨first, second⟩
    | @second _ j exit first key =>
      exfalso
      rcases honly _ key with hmem | hmem
      · exact (issued_of_validatePlan ho').fresh hmem
      · rcases @validatePlan_exit _ v d plan a.again (planScope v d a plan) seen' hexit with
          ⟨q, j', hopen, -, hval, -, hside⟩ | ⟨-, _, hval⟩
        · cases hval.symm.trans ho'
          refine hexits hexit q hopen ?_
          rw [← hside]
          exact (issued_of_validatePlan ho').key ▸ hmem
        · cases hval.symm.trans ho'
  · have hentry : plan.action.isEntry := SymbolAction.isEntry_of_not hexit hinf
    rcases validatePlan_entry seen hentry with href | ⟨hyes, hval⟩ | ⟨hskip, -, i, hi, -⟩
    · exfalso
      rw [ho] at href
      cases o with
      | intent i => cases href
      | skipped => cases href
      | rejected reason => exact hok.resolve_left hexit reason rfl
    · cases hval.symm.trans ho
      refine ⟨.skipped, validatePlan_again_skipped hentry hyes hval, Or.inr ?_, Or.inl ⟨rfl, rfl⟩⟩
      intro reason heq
      cases heq
    · cases hi.symm.trans ho
      obtain ⟨j, hj, hqty⟩ := (entry_turn hentry hsub hi).mpr (hentries hskip hentry)
      have hok' : plan.action.isExit ∨ ∀ reason, PlanOutcome.intent j ≠ .rejected reason := by
        refine Or.inr fun reason heq => ?_
        cases heq
      refine ⟨.intent j, hj, hok', Or.inr ⟨i, j, rfl, rfl, ?_⟩⟩
      cases turn_of_outcomes hinf hsub hi hj hok hok' with
      | both key symbol side quantity => exact ⟨key, symbol, side, hqty⟩
      | neither first second => cases first
      | second exit first key => cases first

theorem outcomes_again (hsub : ∀ k ∈ seen', k ∈ seen)
    (honly : ∀ k ∈ seen, k ∈ seen' ∨ k ∈ a.seenIdempotencyKeys)
    (hexits : ∀ plan ∈ plans, plan.action.isExit →
      ∀ q, ExitOpen v a (Casing.upper plan.symbol) q →
        intentKey (keyScope d a) (Casing.upper plan.symbol) (exitSide q) plan.action ∉
          a.seenIdempotencyKeys)
    (hentries : skipEntries d a = false → ∀ plan ∈ plans, plan.action.isEntry →
      AlikeAt v d a plan) (h : planOutcomes v d a seen plans = .ok outs)
    (hnone : rejectionsOf false outs = []) :
    ∃ outs', planOutcomes v d a.again seen' plans = .ok outs' ∧ rejectionsOf false outs' = [] ∧
      List.Forall₂ SameOrder (intentsOf outs') (intentsOf outs) := by
  induction plans generalizing seen seen' outs with
  | nil =>
    cases h
    exact ⟨[], rfl, rfl, .nil⟩
  | cons plan plans ih =>
    rw [List.forall_mem_cons] at hexits
    have hhead := fun hskip => (List.forall_mem_cons.mp (hentries hskip)).1
    have htail := fun hskip => (List.forall_mem_cons.mp (hentries hskip)).2
    by_cases hinf : plan.action.isInformational
    · rw [planOutcomes, if_pos hinf] at h ⊢
      exact ih hsub honly hexits.2 htail h hnone
    · obtain ⟨o, rest, ho, hrest, rfl⟩ := planOutcomes_cons hinf h
      obtain ⟨hok, hnone⟩ := rejectionsOf_cons_eq_nil_iff.mp hnone
      obtain ⟨o', ho', hok', hturn⟩ := turn_again hinf hsub honly hexits.1 hhead ho hok
      have hcons : ∀ {outs'}, planOutcomes v d a.again (o'.key?.toList ++ seen') plans = .ok outs' →
          planOutcomes v d a.again seen' (plan :: plans) = .ok ((plan, o') :: outs') := by
        intro outs' hrest'
        have ho'' : validatePlan v d plan a.again (planScope v d a.again plan) seen' = .ok o' := ho'
        rw [planOutcomes, if_neg hinf, ho'']
        simp [bind, Except.bind, hrest', pure, Except.pure]
      rcases hturn with ⟨first, second⟩ | ⟨i, j, rfl, rfl, key, same⟩
      · rw [first] at hrest
        obtain ⟨outs', hrest', hnone', hsame⟩ := ih hsub honly hexits.2 htail hrest hnone
        refine ⟨_, hcons (by rw [second]; exact hrest'), rejectionsOf_cons_eq_nil_iff.mpr
          ⟨hok', hnone'⟩, ?_⟩
        rw [intentsOf_cons_of_key first, intentsOf_cons_of_key second]
        exact hsame
      · have hsub' : ∀ k ∈ j.idempotencyKey :: seen', k ∈ i.idempotencyKey :: seen := by
          rw [key]
          exact List.cons_subset_cons _ hsub
        have honly' : ∀ k ∈ i.idempotencyKey :: seen,
            k ∈ j.idempotencyKey :: seen' ∨ k ∈ a.seenIdempotencyKeys := by
          rw [key, List.forall_mem_cons]
          exact ⟨Or.inl List.mem_cons_self,
            fun k hk => (honly k hk).imp_left (List.mem_cons_of_mem _)⟩
        obtain ⟨outs', hrest', hnone', hsame⟩ := ih hsub' honly' hexits.2 htail hrest hnone
        exact ⟨_, hcons hrest', rejectionsOf_cons_eq_nil_iff.mpr ⟨hok', hnone'⟩, .cons same hsame⟩

/-! ## The two validations -/

/-- The second check issues the same orders exactly if keys and books make no difference. -/
theorem revalidate_iff (h : validate v d a = .ok r) (hne : r.intents ≠ []) :
    (∃ r', validate v d a.again = .ok r' ∧ List.Forall₂ SameOrder r'.intents r.intents) ↔
      ExitsUnseen v d a ∧ EntriesAlike v d a := by
  obtain ⟨outs, houts, hnone, hintents⟩ := outcomes_of_approved h (approved_of_intents h hne)
  constructor
  · rintro ⟨r', h', hsame⟩
    have hne' : r'.intents ≠ [] := by
      intro hnil
      rw [hnil] at hsame
      exact hne (List.forall₂_nil_left_iff.mp hsame)
    obtain ⟨outs', houts', hnone', hintents'⟩ :=
      outcomes_of_approved h' (approved_of_intents h' hne')
    rw [hintents, hintents'] at hsame
    have hall := alike_of_outcomes (List.nil_subset _) (fun k hk => hk) (List.forall_mem_nil _)
      houts hnone houts' hnone' hsame
    exact ⟨fun plan hplan hexit => (hall plan hplan).1 hexit,
      fun hskip plan hplan hentry => (hall plan hplan).2 hentry hskip⟩
  · rintro ⟨hexits, hentries⟩
    obtain ⟨outs', houts', hnone', hsame⟩ := outcomes_again (List.nil_subset _)
      (fun k hk => Or.inr hk) hexits hentries houts hnone
    have hreleased : BatchReleased v d a := by
      by_contra hnot
      exact hne (validate_withheld hnot h)
    obtain ⟨hcontrols, happroval, -⟩ := batchReleased_iff.mp hreleased
    have hagain : BatchReleased v d a.again :=
      batchReleased_iff.mpr ⟨hcontrols, happroval, outs', houts', hnone'⟩
    obtain ⟨r', outs'', h', houts'', hintents'⟩ := validate_released hagain
    obtain rfl := Except.ok.inj (houts'.symm.trans houts'')
    refine ⟨r', h', ?_⟩
    rw [hintents, hintents']
    exact hsame

end Again

/-! ## The rows -/

structure WrittenFor (row : OrderIntent) (i : ValidatedOrderIntent) : Prop where
  symbol : row.symbol = i.symbol
  side : row.side = i.side.value
  quantity : row.quantity = some i.quantity

/-- The rows that were added are of these orders, one for each and in their order. -/
def IntentsMatch (t₀ t : Tables) (intents : List ValidatedOrderIntent) : Prop :=
  ∃ rows, t.intents.rows = t₀.intents.rows ++ rows ∧ List.Forall₂ WrittenFor rows intents

/-- A usable session has exactly the rows of these orders beside those it had. -/
def Written (w₀ : World) (intents : List ValidatedOrderIntent) (w : World) : Prop :=
  w.db.broken = false → w₀.db.broken = false ∧
    IntentsMatch w₀.db.working w.db.working intents

theorem calm_written (w₀ : World) (intents : List ValidatedOrderIntent) :
    Calm (Written w₀ intents) where
  tick := fun _ h => h
  abort := fun _ _ hb => absurd hb (by simp)

theorem submitFree_written (w₀ : World) (intents : List ValidatedOrderIntent) :
    SubmitFree (Written w₀ intents) where
  toCalm := calm_written w₀ intents
  set := fun _ h => h
  insert := fun _ h => h
  accept := fun _ h => h
  send := fun _ h => h

theorem Written.refl (w : World) : Written w [] w :=
  fun hb => ⟨hb, [], (List.append_nil _).symm, .nil⟩

variable {decision : CIODecision}

section Rows

variable {env : Env} {cfg : Settings} {feed : FirmFeed} {v : ExecutionValidator}
  {d : CIODecision} {a : MaterializeArgs} {args : ValidateArgs} {w₀ : World}

theorem Written.add [Casing] {intents : List ValidatedOrderIntent} {w : World} (h : Written w₀ intents w)
    {i : ValidatedOrderIntent} (hupper : Casing.upper i.symbol = i.symbol)
    (rejections : List String) (hz : Option String) (workflowId : Option String)
    (latestPrices : Dict ℚ) :
    Written w₀ (intents ++ [i]) { w with
      db := w.db.write (addIntent (newIntent i rejections hz workflowId latestPrices)) } := by
  intro hb
  obtain ⟨hb₀, rows, hrows, hsame⟩ := h hb
  refine ⟨hb₀, rows ++ [newIntent i rejections hz workflowId latestPrices
    (freshIntentId w.db.working)], ?_, ?_⟩
  · have hnew : ¬ w.db.working.intents.HasKey (freshIntentId w.db.working) :=
      foldl_max_succ_notMem _
    show (addIntent _ w.db.working).intents.rows = _
    unfold addIntent
    cases hins : w.db.working.intents.insert (newIntent i rejections hz workflowId latestPrices
        (freshIntentId w.db.working)) with
    | none => exact absurd (KeyedTable.insert_eq_none_iff.mp hins) hnew
    | some intents' =>
      dsimp only
      rw [(KeyedTable.insert_eq_some hins).2, hrows, List.append_assoc]
  · exact List.rel_append hsame (.cons ⟨hupper, rfl, rfl⟩ .nil)

theorem addIntents_written [Casing] {rejections : List String} {horizons : Dict String}
    {workflowId : Option String} {latestPrices : Dict ℚ} {vs : List ValidatedOrderIntent}
    (hupper : ∀ i ∈ vs, Casing.upper i.symbol = i.symbol) (intents : List ValidatedOrderIntent) :
    Eff.Goes (Written w₀ intents) (addIntents rejections horizons workflowId latestPrices vs)
      fun _ => Written w₀ (intents ++ vs) := by
  induction vs generalizing intents with
  | nil => exact Eff.Spec.pure fun w hw => (List.append_nil intents).symm ▸ hw
  | cons i vs ih =>
    rw [List.forall_mem_cons] at hupper
    refine Eff.Spec.bind (M := fun _ => Written w₀ intents) (Eff.Spec.read fun w hw => hw)
      fun w => ?_
    refine Eff.Spec.bind (M := fun _ => Written w₀ (intents ++ [i])) (Eff.Spec.edit ?_) fun _ => ?_
    · exact fun w hw => hw.add hupper.1 rejections _ workflowId latestPrices
    · have hrest := ih hupper.2 (intents ++ [i])
      rw [List.append_assoc] at hrest
      exact Eff.Spec.bind hrest fun _ => Eff.Spec.pure fun w hw => hw

theorem upper_symbol_of_validate [Casing] {r : ExecutionValidationResult} (h : validate v d args = .ok r) :
    ∀ i ∈ r.intents, Casing.upper i.symbol = i.symbol := by
  intro i hi
  obtain ⟨plan, -, -, _, -, hissued⟩ := issued_of_validate h hi
  rw [hissued.symbol]
  exact Casing.upper_upper _

theorem raiseRisk_ends {α : Type} {r : Except RiskError α} :
    Eff.Spec (· = w₀) (raiseRisk r) (fun x w => w = w₀ ∧ r = .ok x)
      (fun _ w => w = w₀ ∧ ∃ err, r = .error err) := by
  cases r with
  | ok x => exact Eff.Spec.pure fun w hw => ⟨hw, rfl⟩
  | error err => exact Eff.Spec.throw fun w hw => ⟨hw, err, rfl⟩

theorem buildIntents_written [Casing] : Eff.Spec (· = w₀) (buildIntentsFromDecision env v d args)
    (fun _ w => ∃ r, validate v d args.again = .ok r ∧ Written w₀ r.intents w)
    (fun e w => e = .cancelled ∨ w.db.broken = true ∨
      (w = w₀ ∧ ∃ err, validate v d args.again = .error err)) := by
  refine Eff.Spec.bind (raiseRisk_ends.weaken (fun _ hw => hw) (fun _ _ hw => hw)
    fun _ _ hw => Or.inr (Or.inr hw)) fun r => Eff.Spec.assume fun hval => ?_
  refine Eff.Spec.bind (M := fun _ => Written w₀ r.intents) ?_ fun ids => ?_
  · refine (addIntents_written (upper_symbol_of_validate hval) []).weaken ?_ (fun _ _ hw => hw)
      fun _ _ hw => hw.elim
    exact fun w hw => hw ▸ Written.refl w₀
  · refine Eff.Spec.bind ((flush_stops (calm_written w₀ r.intents)).weaken (fun _ hw => hw)
      (fun _ _ hw => hw.1) fun _ _ hw => hw.2.imp_right Or.inl) fun _ => ?_
    exact Eff.Spec.pure fun w hw => ⟨r, hval, hw⟩

def createdOf [Casing] (v : ExecutionValidator) (d : CIODecision) (args : ValidateArgs) (create : Bool)
    (validation : ExecutionValidationResult) : List ValidatedOrderIntent :=
  if create && !validation.intents.isEmpty then
    match validate v d args.again with
    | .ok r => r.intents
    | .error _ => []
  else []

theorem createIntents_written [Casing] {validation : ExecutionValidationResult} :
    Eff.Spec (· = w₀) (createIntents env cfg feed d a args validation)
      (fun _ => Written w₀
        (createdOf (feed.validator cfg w₀.ticks) d args a.createIntents validation))
      (fun _ _ => True) := by
  unfold createIntents createdOf
  split
  · refine Eff.Spec.bind (M := fun w₁ w => w = w₀ ∧ w₁ = w₀) (Eff.Spec.read fun w hw => ⟨hw, hw⟩)
      fun w₁ => Eff.Spec.assume fun h₁ => ?_
    rw [h₁]
    refine Eff.Spec.tryCatch (buildIntents_written.weaken (fun _ hw => hw) ?_ fun _ _ hw => hw)
      fun e => ?_
    · rintro ids w ⟨r, hval, hw⟩
      rw [hval]
      exact hw
    · refine Eff.Spec.ite (fun hexc => Eff.Spec.pure ?_) fun _ => Eff.Spec.throw fun _ _ => trivial
      rintro w (rfl | hbroken | ⟨rfl, err, herr⟩)
      · cases hexc
      · exact fun hb => absurd (hbroken.symm.trans hb) (by decide)
      · rw [herr]
        exact Written.refl w
  · exact Eff.Spec.pure fun w hw => hw ▸ Written.refl w₀

theorem keeps_autoSubmit [Casing] {validation : ExecutionValidationResult} {I : World → Prop}
    (hI : SubmitFree I) : Eff.Keeps I (autoSubmit env cfg feed d a validation) := by
  refine Eff.Keeps.ite ?_ Eff.keeps_pure
  exact Keeps.exceptException (keeps_submitAndSync hI.toCalm fun _ _ =>
    keeps_submitValidated_free hI) fun _ => Eff.keeps_pure

theorem query_ends {α : Type} {f : Tables → α} :
    Eff.Spec (· = w₀) (query env f) (fun x w => w = w₀.tick ∧ x = f w₀.db.working)
      (fun _ _ => True) := by
  have hawait : Eff.Spec (· = w₀) (suspend env) (fun _ w => w = w₀.tick) (fun _ _ => True) := by
    rintro w rfl
    unfold suspend
    by_cases hcut : w.timed && env.cut w.ticks
    · rw [if_pos hcut]
      trivial
    · rw [if_neg hcut]
  refine Eff.Spec.bind hawait fun _ => ?_
  refine Eff.Spec.bind (M := fun w₁ w => w = w₀.tick ∧ w₁ = w) (Eff.Spec.read fun w hw => ⟨hw, rfl⟩)
    fun w₁ => Eff.Spec.ite (fun _ => Eff.Spec.throw fun _ _ => trivial) fun _ => Eff.Spec.pure ?_
  rintro w ⟨rfl, rfl⟩
  exact ⟨rfl, rfl⟩

/-- The arguments that the bridge validates with, in the world it has the prices in. -/
def bridgeArgs (env : Env) (a : MaterializeArgs) (prices : Dict ℚ) (w : World) : ValidateArgs :=
  a.validateArgs prices (w.db.working.orders.rows.map (·.idempotencyKey)) (env.now w.tick.ticks)

theorem materializeAt_written [Casing] {prices : Dict ℚ} :
    Eff.Spec (· = w₀) (materializeAt env cfg feed d a prices)
      (fun _ w => ∃ validation,
        validate (feed.validator cfg w₀.tick.ticks) d (bridgeArgs env a prices w₀) =
          .ok validation ∧
        Written w₀ (createdOf (feed.validator cfg w₀.tick.ticks) d (bridgeArgs env a prices w₀)
          a.createIntents validation) w)
      (fun _ _ => True) := by
  unfold materializeAt
  refine Eff.Spec.bind query_ends fun seen => Eff.Spec.assume fun hseen => ?_
  refine Eff.Spec.bind (M := fun w₁ w => w = w₀.tick ∧ w₁ = w₀.tick)
    (Eff.Spec.read fun w hw => ⟨hw, hw⟩) fun w₁ => Eff.Spec.assume fun hw₁ => ?_
  subst hseen hw₁
  dsimp only
  refine Eff.Spec.bind (raiseRisk_ends.weaken (fun _ hw => hw) (fun _ _ hw => hw)
    fun _ _ _ => trivial) fun validation => Eff.Spec.assume fun hval => ?_
  have hsame : ∀ intents w, Written w₀.tick intents w → Written w₀ intents w := fun _ _ hw => hw
  refine Eff.Spec.bind (createIntents_written.weaken (fun _ hw => hw) (fun _ w => hsame _ w)
    fun _ _ hw => hw) fun ids => ?_
  refine Eff.Spec.bind ((keeps_autoSubmit (submitFree_written w₀ _)).weaken (fun _ hw => hw)
    (fun _ _ hw => hw) fun _ _ _ => trivial) fun sent => ?_
  exact Eff.Spec.pure fun w hw => ⟨validation, hval, hw⟩

/-- The bridge comes to validate the decision `d` at these prices, in the world `w₁`. -/
structure ReachesValidation [Casing] (env : Env) (cfg : Settings) (feed : FirmFeed) (decision : CIODecision)
    (a : MaterializeArgs) (w₀ : World) (d : CIODecision) (prices : Dict ℚ) (w₁ : World) : Prop where
  fetched : ∃ pnls w, callService env feed.closePnls w₀ = (.ok pnls, w) ∧
    d = closedTradeFilter pnls decision ∧
    executionPrices env cfg feed (neededSymbols d) a.latestPrices w = (.ok prices, w₁)
  needed : neededSymbols d ≠ []
  priced : (requiresLiveMarketPrices cfg && prices.isEmpty) = false

theorem ReachesValidation.run [Casing] {d : CIODecision} {prices : Dict ℚ} {w₁ : World}
    (h : ReachesValidation env cfg feed decision a w₀ d prices w₁) :
    materializeCioDecision env cfg feed decision a w₀ =
      materializeAt env cfg feed d a prices w₁ := by
  obtain ⟨pnls, w, hpnls, rfl, hprices⟩ := h.fetched
  unfold materializeCioDecision
  rw [Eff.bind_of_ok hpnls]
  rw [if_neg h.needed, Eff.bind_of_ok hprices, if_neg (by rw [h.priced]; exact Bool.false_ne_true)]

theorem ReachesValidation.unwritten [Casing] {d : CIODecision} {prices : Dict ℚ} {w₁ : World}
    (h : ReachesValidation env cfg feed decision a w₀ d prices w₁) : w₁.db.broken = false →
      w₀.db.broken = false ∧ w₁.db.working = w₀.db.working := by
  obtain ⟨pnls, w, hpnls, -, hprices⟩ := h.fetched
  have hcalm : Calm fun w : World => w.db.broken = false →
      w₀.db.broken = false ∧ w.db.working = w₀.db.working :=
    ⟨fun _ h => h, fun _ _ hb => absurd hb (by simp)⟩
  have hw := (keeps_callService hcalm).of_ok (fun hb => ⟨hb, rfl⟩) hpnls
  exact (keeps_executionPrices hcalm).of_ok hw hprices

theorem forall₂_writtenFor_iff {rows : List OrderIntent} {made intents : List ValidatedOrderIntent}
    (h : List.Forall₂ WrittenFor rows made) :
    List.Forall₂ WrittenFor rows intents ↔ List.Forall₂ SameOrder made intents := by
  induction h generalizing intents with
  | nil => simp only [List.forall₂_nil_left_iff]
  | @cons row i rows made hrow hrows ih =>
    cases intents with
    | nil => exact iff_of_false (fun h => by cases h) fun h => by cases h
    | cons j intents =>
      rw [List.forall₂_cons, List.forall₂_cons, ih]
      refine and_congr_left fun _ => ⟨fun h => ⟨hrow.symbol.symm.trans h.symbol, ?_, ?_⟩, fun h =>
        ⟨hrow.symbol.trans h.symbol, ?_, ?_⟩⟩
      · have hside := hrow.side.symm.trans h.side
        revert hside
        cases i.side <;> cases j.side <;> decide
      · exact Option.some.inj (hrow.quantity.symm.trans h.quantity)
      · exact hrow.side.trans (congrArg Side.value h.side)
      · exact hrow.quantity.trans (congrArg some h.quantity)

/-- **The intents the bridge writes down are those of the validation it submits from exactly if**
    intents are to be written, no exit that could be sent is on file, and each entry has a place and
    the same size with the books in upper case. Where the validation has none, none are written. -/
theorem bridged_intents_iff [Casing] {decision d : CIODecision} {prices : Dict ℚ} {w₁ : World}
    {result : MaterializeResult} (hcome : ReachesValidation env cfg feed decision a w₀ d prices w₁)
    (hreturns : (materializeCioDecision env cfg feed decision a w₀).1 = .ok result)
    (husable : (materializeCioDecision env cfg feed decision a w₀).2.db.broken = false) :
    ∃ validation, validate (feed.validator cfg w₁.tick.ticks) d (bridgeArgs env a prices w₁) =
        .ok validation ∧
      (validation.intents = [] → IntentsMatch w₀.db.working
        (materializeCioDecision env cfg feed decision a w₀).2.db.working validation.intents) ∧
      (validation.intents ≠ [] → (IntentsMatch w₀.db.working
          (materializeCioDecision env cfg feed decision a w₀).2.db.working validation.intents ↔
        a.createIntents = true ∧
          ExitsUnseen (feed.validator cfg w₁.tick.ticks) d (bridgeArgs env a prices w₁) ∧
          EntriesAlike (feed.validator cfg w₁.tick.ticks) d (bridgeArgs env a prices w₁))) := by
  rw [hcome.run] at hreturns husable ⊢
  obtain ⟨validation, hval, hwritten⟩ := (@materializeAt_written env cfg feed d a w₁ _ prices).of_ok
    rfl (Prod.ext hreturns rfl)
  obtain ⟨hb₁, hmatch⟩ := hwritten husable
  obtain ⟨-, hworking⟩ := hcome.unwritten hb₁
  rw [hworking] at hmatch
  obtain ⟨rows, hrows, hmade⟩ := hmatch
  -- the rows are there once
  have hiff : IntentsMatch w₀.db.working (materializeAt env cfg feed d a prices w₁).2.db.working
      validation.intents ↔ List.Forall₂ SameOrder (createdOf (feed.validator cfg w₁.tick.ticks) d
        (bridgeArgs env a prices w₁) a.createIntents validation) validation.intents := by
    rw [← forall₂_writtenFor_iff hmade]
    constructor
    · rintro ⟨rows', hrows', hsame⟩
      exact List.append_cancel_left (hrows.symm.trans hrows') ▸ hsame
    · exact fun hsame => ⟨rows, hrows, hsame⟩
  refine ⟨validation, hval, fun hnil => ?_, fun hne => ?_⟩
  · rw [hiff, hnil, createdOf, hnil, if_neg (by simp)]
    exact .nil
  · rw [hiff, ← revalidate_iff hval hne, createdOf]
    by_cases hcreate : a.createIntents = true
    · rw [if_pos (by simp [hcreate, hne]), and_iff_right hcreate]
      cases validate (feed.validator cfg w₁.tick.ticks) d (bridgeArgs env a prices w₁).again with
      | error err =>
        refine iff_of_false (fun h => hne (List.forall₂_nil_left_iff.mp h)) ?_
        rintro ⟨r, h, -⟩
        cases h
      | ok r =>
        refine ⟨fun h => ⟨r, rfl, h⟩, ?_⟩
        rintro ⟨r', h, hsame⟩
        cases h
        exact hsame
    · rw [if_neg (by simp [hcreate])]
      exact iff_of_false (fun h => hne (List.forall₂_nil_left_iff.mp h)) fun h => hcreate h.1

end Rows

/-! ## An exit on file -/

section Sample

attribute [local instance] asciiCasing

def heldArgs : MaterializeArgs :=
  { autoArgs with
    portfolio := bookOf 2500 [rowOf "AAPL" 10 "US", rowOf "MSFT" 10 "US"]
    latestPrices := [("AAPL", 100), ("MSFT", 100)] }

def bridgeHeld (decision : CIODecision) (w₀ : World) : Except Fault MaterializeResult × World :=
  materializeCioDecision (acceptingEnv fun _ => false) autoSettings quietFeed decision heldArgs w₀

def sellMsft : CIODecision := decisionOf .sell [planOf "MSFT" .sell]

def sellBoth : CIODecision := decisionOf .sell [planOf "AAPL" .sell, planOf "MSFT" .sell]

def soldWorld : World := (bridgeHeld sellMsft emptyWorld).2

def heldPrices (decision : CIODecision) : Dict ℚ :=
  resolveExecutionPrices autoSettings (neededSymbols decision) heldArgs.latestPrices []

def heldBridgeArgs (decision : CIODecision) (w₀ : World) : ValidateArgs :=
  bridgeArgs (acceptingEnv fun _ => false) heldArgs (heldPrices decision) w₀.tick

def heldValidator (w₀ : World) : ExecutionValidator :=
  quietFeed.validator autoSettings w₀.tick.tick.ticks

theorem reaches_held (w₀ : World) (hfilter : decision = closedTradeFilter [] decision)
    (hneeded : neededSymbols decision ≠ [])
    (hgiven : missingPrices autoSettings (neededSymbols decision) heldArgs.latestPrices = [])
    (hpriced : (heldPrices decision).isEmpty = false) :
    ReachesValidation (acceptingEnv fun _ => false) autoSettings quietFeed decision heldArgs w₀
      decision (heldPrices decision) w₀.tick where
  fetched := by
    refine ⟨[], w₀.tick, callService_goes (Bool.and_false _) rfl, hfilter, ?_⟩
    unfold executionPrices
    rw [if_pos hgiven]
    rfl
  needed := hneeded
  priced := by rw [hpriced, Bool.and_false]

theorem reaches_sellMsft (w₀ : World) : ReachesValidation (acceptingEnv fun _ => false)
    autoSettings quietFeed sellMsft heldArgs w₀ sellMsft (heldPrices sellMsft) w₀.tick :=
  reaches_held w₀ (by decide +kernel) (by decide +kernel) (by decide +kernel) (by decide +kernel)

theorem reaches_sellBoth (w₀ : World) : ReachesValidation (acceptingEnv fun _ => false)
    autoSettings quietFeed sellBoth heldArgs w₀ sellBoth (heldPrices sellBoth) w₀.tick :=
  reaches_held w₀ (by decide +kernel) (by decide +kernel) (by decide +kernel) (by decide +kernel)

/-- **The exit on file is written down beside the one that is sent.** -/
theorem bridged_intents_extra :
    ¬ ∀ (env : Env) (cfg : Settings) (feed : FirmFeed) (decision : CIODecision)
      (a : MaterializeArgs) (w₀ : World) (d : CIODecision) (prices : Dict ℚ) (w₁ : World)
      (result : MaterializeResult) (validation : ExecutionValidationResult),
      ReachesValidation env cfg feed decision a w₀ d prices w₁ →
      (materializeCioDecision env cfg feed decision a w₀).1 = .ok result →
      (materializeCioDecision env cfg feed decision a w₀).2.db.broken = false →
      validate (feed.validator cfg w₁.tick.ticks) d (bridgeArgs env a prices w₁) = .ok validation →
      IntentsMatch w₀.db.working (materializeCioDecision env cfg feed decision a w₀).2.db.working
        validation.intents := by
  intro hall
  have hcount : (match validate (heldValidator soldWorld) sellBoth
        (heldBridgeArgs sellBoth soldWorld) with
      | .ok validation => decide (validation.intents.length = 1)
      | .error _ => false) = true := by decide +kernel
  cases hval : validate (heldValidator soldWorld) sellBoth (heldBridgeArgs sellBoth soldWorld) with
  | error err =>
    rw [hval] at hcount
    cases hcount
  | ok validation =>
    rw [hval] at hcount
    obtain ⟨rows, hrows, hmade⟩ := hall _ _ _ sellBoth heldArgs soldWorld _ _ _
      { validationApproved := true, validationRejections := ["MSFT:duplicate_idempotency_key"],
        intentIds := [2, 3], ordersSubmitted := 1, paperAutoSubmitAllowed := true,
        liveTradingBlocked := true, positionSyncFailed := false }
      validation (reaches_sellBoth soldWorld) (by decide +kernel) (by decide +kernel) hval
    have hlength := congrArg List.length hrows
    rw [List.length_append, hmade.length_eq, of_decide_eq_true hcount] at hlength
    revert hlength
    decide +kernel

theorem bridged_intents_iff_sellMsft :
    ∃ validation, validate (heldValidator emptyWorld) sellMsft
        (heldBridgeArgs sellMsft emptyWorld) = .ok validation ∧
      (validation.intents = [] → IntentsMatch emptyWorld.db.working soldWorld.db.working
        validation.intents) ∧
      (validation.intents ≠ [] → (IntentsMatch emptyWorld.db.working soldWorld.db.working
          validation.intents ↔
        heldArgs.createIntents = true ∧
          ExitsUnseen (heldValidator emptyWorld) sellMsft (heldBridgeArgs sellMsft emptyWorld) ∧
          EntriesAlike (heldValidator emptyWorld) sellMsft
            (heldBridgeArgs sellMsft emptyWorld))) :=
  @bridged_intents_iff _ _ _ _ _ _ _ _ _ _
    { validationApproved := true, validationRejections := [], intentIds := [1],
      ordersSubmitted := 1, paperAutoSubmitAllowed := true, liveTradingBlocked := true,
      positionSyncFailed := false }
    (reaches_sellMsft emptyWorld) (by decide +kernel) (by decide +kernel)

end Sample

end Investor.Execution
