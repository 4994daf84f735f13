import Investor.Execution.ExitBatch

/-!
# Entries that are blocked

Where new entries are blocked, an entry plan is to leave the exits of its batch alone: the verdict
is to be the one of the decision without its entries. `_validate_plan` skips such a plan, but
looks first whether its symbol is on the allowlist, and a plan that is not is refused, with all of
the batch.

The exits of a blocked batch have the outcomes they have by themselves (`outcomes_exitsOnly`), so
that the two verdicts differ only where an entry is refused that way (`blocked_entries_iff`).
-/

namespace Investor.Execution

open Lib Schema Market Risk Universe

def exitsOnly (d : CIODecision) : CIODecision :=
  { d with symbolActions := d.symbolActions.filter fun plan => !plan.action.isEntry }

def batchVerdict (r : ExecutionValidationResult) : Bool × List ValidatedOrderIntent :=
  (r.approved, r.intents)

def exitOutcomes (outs : List (SymbolActionPlan × PlanOutcome)) :
    List (SymbolActionPlan × PlanOutcome) :=
  outs.filter fun o => !o.1.action.isEntry

section Blocked

variable {v : ExecutionValidator} {d : CIODecision} {a : ValidateArgs}
  {plan : SymbolActionPlan} {plans : List SymbolActionPlan} {seen : List String}
  {outs : List (SymbolActionPlan × PlanOutcome)}

/-! ## One plan -/

section

variable [Casing]

def Listed (v : ExecutionValidator) (d : CIODecision) (a : ValidateArgs) (plan : SymbolActionPlan) :
    Prop :=
  Casing.upper plan.symbol ∈ (planScope v d a plan).allowlist

theorem validatePlan_entry_blocked (hblocked : skipEntries d a = true)
    (hentry : plan.action.isEntry) :
    (Listed v d a plan ∧
        validatePlan v d plan a (planScope v d a plan) seen = .ok .skipped) ∨
      ¬ Listed v d a plan ∧
        ∃ reason, validatePlan v d plan a (planScope v d a plan) seen = .ok (.rejected reason) := by
  have hskip : (planScope v d a plan).skipEntries = true := hblocked
  by_cases hlisted : Listed v d a plan
  · refine .inl ⟨hlisted, ?_⟩
    have hgate : entryGate d plan a (planScope v d a plan) = some .skipped := by
      simp only [entryGate, hentry, Bool.not_true, Bool.false_eq_true, if_false]
      exact (if_neg (not_not.mpr hlisted)).trans (if_pos hskip)
    rw [validatePlan, hgate]
  · have hgate : entryGate d plan a (planScope v d a plan) =
        some (.rejected s!"{Casing.upper plan.symbol}:not_in_allowlist") := by
      simp only [entryGate, hentry, Bool.not_true, Bool.false_eq_true, if_false]
      exact if_pos hlisted
    exact .inr ⟨hlisted, _, by rw [validatePlan, hgate]⟩

def GoesThrough (v : ExecutionValidator) (d : CIODecision) (a : ValidateArgs)
    (plan : SymbolActionPlan) : Prop :=
  plan.action.isExit ∧ ∃ q, ExitOpen v a (Casing.upper plan.symbol) q ∧
    intentKey (keyScope d a) (Casing.upper plan.symbol) (exitSide q) plan.action ∉
      a.seenIdempotencyKeys

/-! ## The loop -/

/-- A blocked book judges its exits as if no entry were planned. -/
theorem outcomes_exitsOnly (hblocked : skipEntries d a = true) (seen : List String)
    (plans : List SymbolActionPlan) :
    ∃ outs, planOutcomes v d a seen plans = .ok outs ∧
      planOutcomes v (exitsOnly d) a seen (plans.filter fun plan => !plan.action.isEntry) =
        .ok (exitOutcomes outs) := by
  induction plans generalizing seen with
  | nil => exact ⟨[], rfl, rfl⟩
  | cons plan plans ih =>
    rcases plan.action.group with ⟨hentry, -, hinf⟩ | ⟨hentry, hexit, hinf⟩ | ⟨hentry, -, hinf⟩
    · obtain ⟨outs, houts, hexits⟩ := ih seen
      have hout : ∃ outcome, validatePlan v d plan a (planScope v d a plan) seen = .ok outcome ∧
          outcome.key? = none := by
        rcases @validatePlan_entry_blocked v d a plan seen _ hblocked hentry with
          ⟨-, hval⟩ | ⟨-, reason, hval⟩
        · exact ⟨_, hval, rfl⟩
        · exact ⟨_, hval, rfl⟩
      obtain ⟨outcome, hval, hkey⟩ := hout
      refine ⟨(plan, outcome) :: outs, ?_, ?_⟩
      · rw [planOutcomes, if_neg hinf, hval]
        simp only [bind, Except.bind, hkey, Option.toList_none, List.nil_append, houts]
        rfl
      · rw [List.filter_cons_of_neg (by simp [hentry]), hexits, exitOutcomes, exitOutcomes,
          List.filter_cons_of_neg (by simp [hentry])]
    · have hout : ∃ outcome, validatePlan v d plan a (planScope v d a plan) seen = .ok outcome := by
        rcases validatePlan_exit (v := v) (d := d) (a := a) (s := planScope v d a plan) seen hexit with
          ⟨q, i, -, -, hval, -⟩ | ⟨-, reason, hval⟩
        · exact ⟨_, hval⟩
        · exact ⟨_, hval⟩
      obtain ⟨outcome, hval⟩ := hout
      have hval' : validatePlan v (exitsOnly d) plan a (planScope v (exitsOnly d) a plan) seen =
          .ok outcome := hval
      obtain ⟨outs, houts, hexits⟩ := ih (outcome.key?.toList ++ seen)
      refine ⟨(plan, outcome) :: outs, ?_, ?_⟩
      · rw [planOutcomes, if_neg hinf, hval]
        simp only [bind, Except.bind, houts]
        rfl
      · rw [List.filter_cons_of_pos (by simp [hentry]), planOutcomes, if_neg hinf, hval']
        simp only [bind, Except.bind, hexits, exitOutcomes]
        rw [List.filter_cons_of_pos (by simp [hentry])]
        rfl
    · obtain ⟨outs, houts, hexits⟩ := ih seen
      refine ⟨outs, ?_, ?_⟩
      · rw [planOutcomes, if_pos hinf, houts]
      · rw [List.filter_cons_of_pos (by simp [hentry]), planOutcomes, if_pos hinf, hexits]

theorem entry_outcome (hblocked : skipEntries d a = true)
    (houts : planOutcomes v d a seen plans = .ok outs) {outcome : PlanOutcome}
    (hmem : (plan, outcome) ∈ outs) (hentry : plan.action.isEntry) :
    (Listed v d a plan ∧ outcome = .skipped) ∨
      ¬ Listed v d a plan ∧ ∃ reason, outcome = .rejected reason := by
  obtain ⟨-, -, seen', -, hval⟩ := planOutcomes_mem houts hmem
  rcases @validatePlan_entry_blocked v d a plan seen' _ hblocked hentry with
    ⟨hlisted, hskipped⟩ | ⟨hlisted, reason, hrejected⟩
  · exact .inl ⟨hlisted, Except.ok.inj (hval.symm.trans hskipped)⟩
  · exact .inr ⟨hlisted, reason, Except.ok.inj (hval.symm.trans hrejected)⟩

end

theorem rejectionsOf_eq_nil_iff {ofExits : Bool} : rejectionsOf ofExits outs = [] ↔
    ∀ plan reason, (plan, PlanOutcome.rejected reason) ∈ outs → plan.action.isExit ≠ ofExits := by
  unfold rejectionsOf
  rw [List.filterMap_eq_nil_iff]
  constructor
  · intro h plan reason hmem hexit
    have hnone := h _ hmem
    dsimp only at hnone
    rw [if_pos hexit] at hnone
    cases hnone
  · rintro h ⟨plan, outcome⟩ hmem
    cases outcome with
    | rejected reason => exact if_neg (h plan reason hmem)
    | intent i => rfl
    | skipped => rfl

theorem no_entry_refused_iff [Casing] (hblocked : skipEntries d a = true)
    (houts : planOutcomes v d a seen plans = .ok outs) :
    rejectionsOf false outs = [] ↔
      ∀ plan ∈ plans, plan.action.isEntry → Listed v d a plan := by
  rw [rejectionsOf_eq_nil_iff]
  constructor
  · intro h plan hplan hentry
    have hexit : plan.action.isExit = false :=
      Bool.eq_false_iff.mpr (SymbolAction.not_isExit_of_isEntry hentry)
    obtain ⟨outcome, hmem⟩ := mem_planOutcomes houts hplan
      (SymbolAction.not_isInformational_of_isEntry hentry)
    rcases entry_outcome hblocked houts hmem hentry with ⟨hlisted, -⟩ | ⟨-, reason, rfl⟩
    · exact hlisted
    · exact absurd hexit (h plan reason hmem)
  · intro h plan reason hmem hexit
    obtain ⟨hplan, hinf, -⟩ := planOutcomes_mem houts hmem
    have hentry : plan.action.isEntry :=
      SymbolAction.isEntry_of_not (Bool.eq_false_iff.mp hexit) hinf
    rcases entry_outcome hblocked houts hmem hentry with ⟨-, heq⟩ | ⟨hnot, -⟩
    · cases heq
    · exact hnot (h plan hplan hentry)

theorem no_intents_iff [Casing] (hblocked : skipEntries d a = true)
    (houts : planOutcomes v d a a.seenIdempotencyKeys plans = .ok outs) :
    intentsOf outs = [] ↔ ∀ plan ∈ plans, ¬ GoesThrough v d a plan := by
  induction plans generalizing outs with
  | nil =>
    cases houts
    exact iff_of_true rfl fun plan hplan => absurd hplan List.not_mem_nil
  | cons plan plans ih =>
    rw [List.forall_mem_cons]
    by_cases hinf : plan.action.isInformational
    · rw [planOutcomes, if_pos hinf] at houts
      rw [ih houts]
      refine (and_iff_right fun hgoes => ?_).symm
      exact SymbolAction.not_isInformational_of_isExit hgoes.1 hinf
    · obtain ⟨outcome, rest, hval, hrest, rfl⟩ := planOutcomes_cons hinf houts
      by_cases hexit : plan.action.isExit
      · rcases validatePlan_exit (v := v) (d := d) (a := a) (s := planScope v d a plan)
          a.seenIdempotencyKeys hexit with ⟨q, i, hopen, hnew, hval', -⟩ | ⟨hall, reason, hval'⟩
        · cases hval.symm.trans hval'
          exact iff_of_false (List.cons_ne_nil _ _) fun h => h.1 ⟨hexit, q, hopen, hnew⟩
        · cases hval.symm.trans hval'
          rw [intentsOf_cons, List.nil_append, ih hrest]
          refine (and_iff_right ?_).symm
          rintro ⟨-, q, hopen, hnew⟩
          exact hnew (hall q hopen)
      · have hentry : plan.action.isEntry := SymbolAction.isEntry_of_not hexit hinf
        have hnot : ¬ GoesThrough v d a plan := fun hgoes => hexit hgoes.1
        rcases entry_outcome hblocked houts List.mem_cons_self hentry with
          ⟨-, rfl⟩ | ⟨-, reason, rfl⟩
        · rw [intentsOf_cons, List.nil_append, ih hrest, and_iff_right hnot]
        · rw [intentsOf_cons, List.nil_append, ih hrest, and_iff_right hnot]

theorem exit_refused_iff [Casing] (houts : planOutcomes v d a seen plans = .ok outs)
    (hnone : intentsOf outs = []) :
    rejectionsOf true outs ≠ [] ↔ ∃ plan ∈ plans, plan.action.isExit := by
  rw [Ne, rejectionsOf_eq_nil_iff]
  push Not
  constructor
  · rintro ⟨plan, reason, hmem, hexit⟩
    exact ⟨plan, (planOutcomes_mem houts hmem).1, hexit⟩
  · rintro ⟨plan, hplan, hexit⟩
    have hinf : ¬ plan.action.isInformational := SymbolAction.not_isInformational_of_isExit hexit
    obtain ⟨outcome, hmem⟩ := mem_planOutcomes houts hplan hinf
    obtain ⟨-, -, seen', -, hval⟩ := planOutcomes_mem houts hmem
    rcases validatePlan_exit (v := v) (d := d) (a := a) (s := planScope v d a plan) seen' hexit with
      ⟨q, i, -, -, hval', -⟩ | ⟨-, reason, hval'⟩
    · cases hval.symm.trans hval'
      have hin : i ∈ intentsOf outs := mem_intentsOf.mpr ⟨plan, hmem⟩
      rw [hnone] at hin
      cases hin
    · cases hval.symm.trans hval'
      exact ⟨plan, reason, hmem, hexit⟩

/-! ## The verdicts -/

theorem filterMap_exitOutcomes {β : Type*} {f : SymbolActionPlan × PlanOutcome → Option β}
    (h : ∀ o ∈ outs, o.1.action.isEntry → f o = none) :
    (exitOutcomes outs).filterMap f = outs.filterMap f := by
  induction outs with
  | nil => rfl
  | cons o outs ih =>
    have hrest := ih fun o' ho' => h o' (List.mem_cons_of_mem _ ho')
    unfold exitOutcomes at hrest ⊢
    by_cases hentry : o.1.action.isEntry
    · rw [List.filter_cons_of_neg (by simp [hentry]), hrest,
        List.filterMap_cons_none (h o List.mem_cons_self hentry)]
    · rw [List.filter_cons_of_pos (by simp [hentry]), List.filterMap_cons, List.filterMap_cons, hrest]

theorem batchVerdict_settle_iff {outs' : List (SymbolActionPlan × PlanOutcome)}
    (hintents : intentsOf outs' = intentsOf outs)
    (hexits : rejectionsOf true outs' = rejectionsOf true outs)
    (hentries : rejectionsOf false outs' = []) :
    batchVerdict (settle outs) = batchVerdict (settle outs') ↔
      rejectionsOf false outs = [] ∨ intentsOf outs = [] ∧ rejectionsOf true outs ≠ [] := by
  unfold settle batchVerdict
  rw [hintents, hexits, hentries]
  by_cases hrefused : rejectionsOf false outs = []
  · simp [hrefused]
  · by_cases hnone : intentsOf outs = []
    · by_cases hexit : rejectionsOf true outs = []
      · simp [hrefused, hnone, hexit]
      · simp [hrefused, hnone, hexit]
    · simp [hrefused, hnone]

/-- The gates before the loop stop the decision, with and without its entries. -/
def GateShut (v : ExecutionValidator) (d : CIODecision) : Prop :=
  ¬ v.controls.isNewOrderAllowed ∨ (d.portfolioAction.isRiskIncreasing ∧ ¬ d.riskApproval)

theorem validate_open [Casing] (hopen : ¬ GateShut v d) :
    validate v d a = (planOutcomes v d a a.seenIdempotencyKeys d.symbolActions).map settle := by
  unfold GateShut at hopen
  push Not at hopen
  obtain ⟨hallowed, happroved⟩ := hopen
  unfold validate
  rw [if_neg (by simpa using hallowed), if_neg (by simpa using happroved)]
  split
  · rename_i hempty
    rw [hempty.2]
    rfl
  · rfl

/-- **When blocked entries leave the verdict of their batch alone.** -/
theorem blocked_entries_iff [Casing] (v : ExecutionValidator) (d : CIODecision) (a : ValidateArgs)
    (hblocked : skipEntries d a = true) :
    (validate v d a).map batchVerdict = (validate v (exitsOnly d) a).map batchVerdict ↔
      GateShut v d ∨ (∀ plan ∈ d.symbolActions, plan.action.isEntry → Listed v d a plan) ∨
        (∃ plan ∈ d.symbolActions, plan.action.isExit) ∧
          ∀ plan ∈ d.symbolActions, ¬ GoesThrough v d a plan := by
  by_cases hshut : GateShut v d
  · refine iff_of_true ?_ (.inl hshut)
    unfold validate
    rcases hshut with hallowed | ⟨hrisk, happroved⟩
    · rw [if_pos (by simpa using hallowed), if_pos (by simpa using hallowed)]
    · have hstop : (d.portfolioAction.isRiskIncreasing && !d.riskApproval) = true := by
        simp [hrisk, happroved]
      have hstop' : ((exitsOnly d).portfolioAction.isRiskIncreasing && !(exitsOnly d).riskApproval) =
        true := hstop
      rw [if_pos hstop, if_pos hstop']
  · obtain ⟨outs, houts, hexits⟩ :=
      outcomes_exitsOnly (v := v) hblocked a.seenIdempotencyKeys d.symbolActions
    have hopen' : ¬ GateShut v (exitsOnly d) := hshut
    have hmade : ∀ o ∈ outs, o.1.action.isEntry → ∀ i, o.2 ≠ .intent i := by
      rintro ⟨plan, outcome⟩ ho hentry i rfl
      rcases entry_outcome hblocked houts ho hentry with ⟨-, heq⟩ | ⟨-, reason, heq⟩
      · cases heq
      · cases heq
    have hintents : intentsOf (exitOutcomes outs) = intentsOf outs := by
      refine filterMap_exitOutcomes fun o ho hentry => ?_
      have hnot := hmade o ho hentry
      split
      · rename_i i hi
        exact absurd hi (hnot i)
      · rfl
    have hrefused : rejectionsOf true (exitOutcomes outs) = rejectionsOf true outs := by
      refine filterMap_exitOutcomes fun o ho hentry => ?_
      split
      · exact if_neg (SymbolAction.not_isExit_of_isEntry hentry)
      · rfl
    have hentries : rejectionsOf false (exitOutcomes outs) = [] := by
      refine rejectionsOf_eq_nil_iff.mpr fun plan reason hmem hexit => ?_
      obtain ⟨hmem, hentry⟩ := List.mem_filter.mp hmem
      obtain ⟨-, hinf, -⟩ := planOutcomes_mem houts hmem
      have hyes := SymbolAction.isEntry_of_not (Bool.eq_false_iff.mp hexit) hinf
      simp [hyes] at hentry
    rw [validate_open hshut, validate_open hopen', houts]
    have hexits' : planOutcomes v (exitsOnly d) a a.seenIdempotencyKeys (exitsOnly d).symbolActions =
      .ok (exitOutcomes outs) := hexits
    rw [hexits', or_iff_right hshut]
    have hverdict := batchVerdict_settle_iff hintents hrefused hentries
    rw [no_entry_refused_iff hblocked houts] at hverdict
    refine Iff.trans ⟨Except.ok.inj, congrArg Except.ok⟩ (hverdict.trans (or_congr_right ?_))
    constructor
    · rintro ⟨hnone, hexit⟩
      exact ⟨(exit_refused_iff houts hnone).mp hexit, (no_intents_iff hblocked houts).mp hnone⟩
    · rintro ⟨hexit, hgoes⟩
      have hnone := (no_intents_iff hblocked houts).mpr hgoes
      exact ⟨hnone, (exit_refused_iff houts hnone).mpr hexit⟩

end Blocked

/-! ## An entry that is not listed -/

section Sample

attribute [local instance] asciiCasing

def heldWith (symbol : String) : CIODecision :=
  decisionOf .hold [planOf symbol .buy, planOf "AAPL" .sell]

/-- The sale of ten AAPL goes with the entry of a symbol that is not listed. -/
theorem unlisted_entry_suppresses :
    ¬ ∀ (v : ExecutionValidator) (d : CIODecision) (a : ValidateArgs), skipEntries d a = true →
      (validate v d a).map batchVerdict = (validate v (exitsOnly d) a).map batchVerdict := by
  intro h
  have hsame := congrArg Except.toOption
    (h mockValidator (heldWith "ZZZ") (argsOf (bookOf 2500 [rowOf "AAPL" 10 "US"])) rfl)
  revert hsame
  decide +kernel

/-- One that is listed leaves it alone. -/
theorem blocked_entries_msft :
    (validate mockValidator (heldWith "MSFT") (argsOf (bookOf 2500 [rowOf "AAPL" 10 "US"]))).map
        batchVerdict =
      (validate mockValidator (exitsOnly (heldWith "MSFT"))
        (argsOf (bookOf 2500 [rowOf "AAPL" 10 "US"]))).map batchVerdict := by
  refine (blocked_entries_iff mockValidator (heldWith "MSFT") _ rfl).mpr (.inr (.inl ?_))
  unfold Listed
  decide +kernel

end Sample

end Investor.Execution
