import Investor.Lib.Run
import Investor.Performance.Evaluations

/-!
# Reruns of the evaluation

A rerun deletes the pending rows and evaluates what has no `cio` row. The rows of one decision are
stored together, but they become final at different times, and the two steps look at different
things: the deletion at each row's own status, the selection at the `cio` row alone. A decision
whose `cio` row is final and that has a pending plan loses the plan's row at the next refresh and
never gets it back; one whose `cio` row is pending and that has a final plan gets this plan's row
twice. So a decision ends with one row each if it is never evaluated while some of its horizons
are over and others are not (`TakesWhole`).
-/

namespace Investor.Performance

open Lib Market

def rowsOf (decisionId : String) (evals : EvaluationTable) : EvaluationTable :=
  evals.filter fun e => e.decisionId = decisionId

section Reruns

variable {decisions : DecisionTable} {str : Json → String} {d : CIODecisionRecord}

/-- **The decision is evaluated once**: one `cio` row, one `cio_symbol` row for each plan, and
    none of them pending. -/
structure EvaluatedOnce [Casing] (str : Json → String) (d : CIODecisionRecord) (evals : EvaluationTable) :
    Prop where
  portfolio : ((rowsOf d.decisionId evals).filter fun e => e.decisionType = .cio).length = 1
  plans : ((rowsOf d.decisionId evals).filter fun e => e.decisionType = .cioSymbol).map
      (·.symbol) = (scoredPlans str d.payload).map fun plan => some (planSymbol str plan)
  final : ∀ e ∈ rowsOf d.decisionId evals, e.status ≠ .pending

/-! ## Horizons -/

def PortfolioOver [Casing] (str : Json → String) (env : EvalEnv) (scope : EvalScope)
    (d : CIODecisionRecord) : Prop :=
  (resolverOf env scope).HorizonOver d.decisionTimestamp (primaryBook str env d.payload)
    (portfolioExplicit d.payload)

def PlanOver [Casing] (str : Json → String) (env : EvalEnv) (scope : EvalScope) (d : CIODecisionRecord)
    (plan : Dict Json) : Prop :=
  (resolverOf env scope).HorizonOver d.decisionTimestamp (universeHorizonForPlan str env plan)
    (planExplicit str d.payload plan)

def AllOver [Casing] (str : Json → String) (env : EvalEnv) (scope : EvalScope) (d : CIODecisionRecord) :
    Prop :=
  PortfolioOver str env scope d ∧ ∀ plan ∈ scoredPlans str d.payload, PlanOver str env scope d plan

def NoneOver [Casing] (str : Json → String) (env : EvalEnv) (scope : EvalScope) (d : CIODecisionRecord) :
    Prop :=
  ¬ PortfolioOver str env scope d ∧
    ∀ plan ∈ scoredPlans str d.payload, ¬ PlanOver str env scope d plan

theorem statusOf_pending_iff {price : ℚ} {horizon : ResolvedPrice} :
    statusOf price horizon = .pending ↔ horizon.source = .pending := by
  unfold statusOf
  by_cases hpending : horizon.source = .pending
  · rw [if_pos hpending]
    exact iff_of_true rfl hpending
  · rw [if_neg hpending]
    split
    · exact iff_of_false nofun hpending
    · exact iff_of_false nofun hpending

variable {bench : Option ℚ}

section

variable [Casing]

theorem portfolioRow_pending_iff {env : EvalEnv} {scope : EvalScope} :
    (portfolioRow str env scope d bench).status = .pending ↔ ¬ PortfolioOver str env scope d :=
  statusOf_pending_iff.trans (Resolver.horizonPrice_pending_iff _)

theorem planRow_pending_iff {env : EvalEnv} {scope : EvalScope} {plan : Dict Json} :
    (planRow str env scope d bench plan).status = .pending ↔ ¬ PlanOver str env scope d plan :=
  statusOf_pending_iff.trans (Resolver.horizonPrice_pending_iff _)

/-! ## What one evaluation stores -/

def storedRows (str : Json → String) (env : EvalEnv) (scope : EvalScope) (d : CIODecisionRecord)
    (bench : Option ℚ) : EvaluationTable :=
  (scoredPlans str d.payload).map (planRow str env scope d bench) ++
    [portfolioRow str env scope d bench]

theorem evaluateRow_eq {env : EvalEnv} {scope : EvalScope} {stored : EvaluationTable}
    (h : evaluateRow str env scope d = .ok stored) :
    ∃ bench, stored = storedRows str env scope d bench := by
  unfold evaluateRow at h
  cases hbench : portfolioBenchmark str env scope d with
  | error e => rw [hbench] at h; cases h
  | ok bench => rw [hbench] at h; cases h; exact ⟨bench, rfl⟩

theorem mem_storedRows {env : EvalEnv} {scope : EvalScope} {e : DecisionEvaluationRecord}
    (h : e ∈ storedRows str env scope d bench) :
    e = portfolioRow str env scope d bench ∨
      ∃ plan ∈ scoredPlans str d.payload, e = planRow str env scope d bench plan := by
  rcases List.mem_append.mp h with hplan | hcio
  · obtain ⟨plan, hmem, heq⟩ := List.mem_map.mp hplan
    exact Or.inr ⟨plan, hmem, heq.symm⟩
  · exact Or.inl (List.mem_singleton.mp hcio)

theorem decisionId_stored {env : EvalEnv} {scope : EvalScope} :
    ∀ e ∈ storedRows str env scope d bench, e.decisionId = d.decisionId := by
  intro e he
  rcases mem_storedRows he with rfl | ⟨plan, _, rfl⟩ <;> rfl

theorem evaluatedOnce_stored {env : EvalEnv} {scope : EvalScope} {evals : EvaluationTable}
    (hover : AllOver str env scope d)
    (h : rowsOf d.decisionId evals = storedRows str env scope d bench) :
    EvaluatedOnce str d evals := by
  have hplans : ∀ t : DecisionType, ((scoredPlans str d.payload).map
      (planRow str env scope d bench)).filter (fun e => e.decisionType = t) =
        if t = .cioSymbol then (scoredPlans str d.payload).map (planRow str env scope d bench)
        else [] := by
    intro t
    split
    · rename_i ht
      rw [List.filter_eq_self]
      intro e he
      obtain ⟨plan, _, rfl⟩ := List.mem_map.mp he
      rw [ht]
      rfl
    · rename_i ht
      rw [List.filter_eq_nil_iff]
      intro e he
      obtain ⟨plan, _, rfl⟩ := List.mem_map.mp he
      exact fun heq => ht (of_decide_eq_true heq).symm
  constructor
  · rw [h]
    unfold storedRows
    rw [List.filter_append, hplans]
    rfl
  · rw [h]
    unfold storedRows
    rw [List.filter_append, hplans, if_pos rfl, List.map_append, List.map_map]
    exact List.append_nil _
  · rw [h]
    intro e he hpending
    rcases mem_storedRows he with rfl | ⟨plan, hplan, rfl⟩
    · exact portfolioRow_pending_iff.mp hpending hover.1
    · exact planRow_pending_iff.mp hpending (hover.2 plan hplan)

end

/-! ## Selection -/

theorem evaluated_iff {evals : EvaluationTable} {decisionId : String} :
    evaluated evals decisionId = true ↔
      ∃ e ∈ rowsOf decisionId evals, e.decisionType = .cio := by
  unfold evaluated rowsOf
  rw [List.any_eq_true]
  constructor
  · rintro ⟨e, he, hboth⟩
    obtain ⟨hid, htype⟩ := Bool.and_eq_true_iff.mp hboth
    exact ⟨e, List.mem_filter.mpr ⟨he, hid⟩, of_decide_eq_true htype⟩
  · rintro ⟨e, he, htype⟩
    obtain ⟨hmem, hid⟩ := List.mem_filter.mp he
    exact ⟨e, hmem, Bool.and_eq_true_iff.mpr ⟨hid, decide_eq_true htype⟩⟩

def InScope [Casing] (str : Json → String) (env : EvalEnv) (scope : EvalScope) (d : CIODecisionRecord) :
    Prop :=
  scope.periodStart ≤ d.decisionTimestamp ∧ d.decisionTimestamp ≤ scope.periodEnd ∧
    (Casing.upper (scope.venue.getD "") = "US" ∨ Casing.upper (scope.venue.getD "") = "AU" →
      cioRowVenue str env d = Casing.upper (scope.venue.getD ""))

variable {skipEvaluated : Bool}

theorem mem_candidates [Casing] {env : EvalEnv} {scope : EvalScope} {evals : EvaluationTable} :
    d ∈ evalCandidates str env decisions scope skipEvaluated evals ↔
      d ∈ decisions.rows ∧ InScope str env scope d ∧
        ¬ (skipEvaluated ∧ evaluated evals d.decisionId) := by
  unfold evalCandidates InScope
  dsimp only
  rw [List.mem_mergeSort, List.mem_filter, decide_eq_true_iff]
  tauto

variable {limit : ℕ}

theorem nodup_picked [Casing] {env : EvalEnv} {scope : EvalScope} {evals : EvaluationTable} :
    ((cioEvalSelection str env decisions scope limit skipEvaluated evals).1.map
      (·.decisionId)).Nodup := by
  have hcandidates : ((evalCandidates str env decisions scope skipEvaluated evals).map
      (·.decisionId)).Nodup := by
    unfold evalCandidates
    dsimp only
    exact ((List.mergeSort_perm _ _).map _).nodup_iff.mpr
      (decisions.unique.sublist (List.filter_sublist.map _))
  exact hcandidates.sublist ((List.take_sublist _ _).map _)

theorem candidate_of_picked [Casing] {env : EvalEnv} {scope : EvalScope} {evals : EvaluationTable}
    (h : d ∈ (cioEvalSelection str env decisions scope limit skipEvaluated evals).1) :
    d ∈ evalCandidates str env decisions scope skipEvaluated evals :=
  List.mem_of_mem_take h

theorem mem_picked [Casing] {env : EvalEnv} {scope : EvalScope} {limit : ℕ} {skipEvaluated : Bool}
    {evals : EvaluationTable} (h : d ∈ evalCandidates str env decisions scope skipEvaluated evals)
    (hlimit : (evalCandidates str env decisions scope skipEvaluated evals).length ≤ limit) :
    d ∈ (cioEvalSelection str env decisions scope limit skipEvaluated evals).1 := by
  unfold cioEvalSelection
  dsimp only
  rw [List.take_of_length_le hlimit]
  exact h

/-! ## Batches -/

section Batches

variable {env : EvalEnv} {scope : EvalScope} {evals : EvaluationTable}

theorem rowsOf_append {decisionId : String} {stored : EvaluationTable} :
    rowsOf decisionId (evals ++ stored) = rowsOf decisionId evals ++ rowsOf decisionId stored :=
  List.filter_append ..

theorem rowsOf_stored [Casing] :
    rowsOf d.decisionId (storedRows str env scope d bench) = storedRows str env scope d bench :=
  List.filter_eq_self.mpr fun e he => decide_eq_true (decisionId_stored e he)

theorem rowsOf_stored_other [Casing] {row : CIODecisionRecord} (h : row.decisionId ≠ d.decisionId) :
    rowsOf d.decisionId (storedRows str env scope row bench) = [] := by
  unfold rowsOf
  rw [List.filter_eq_nil_iff]
  intro e he heq
  exact h ((decisionId_stored e he).symm.trans (of_decide_eq_true heq))

theorem rowsOf_deletePending (evals : EvaluationTable) (rows : List CIODecisionRecord)
    (decisionId : String) :
    rowsOf decisionId (deletePending rows evals) =
      if (rows.map (·.decisionId)).contains decisionId then
        (rowsOf decisionId evals).filter fun e => e.status ≠ .pending
      else rowsOf decisionId evals := by
  unfold rowsOf deletePending
  rw [List.filter_filter]
  split
  · rename_i hmem
    rw [List.filter_filter]
    refine List.filter_congr fun e _ => ?_
    by_cases hid : e.decisionId = decisionId
    · simp only [hid, hmem, true_and, decide_true, Bool.true_and, Bool.and_true, ne_eq]
    · simp only [hid, decide_false, Bool.false_and, Bool.and_false]
  · rename_i hmem
    refine List.filter_congr fun e _ => ?_
    by_cases hid : e.decisionId = decisionId
    · simp only [hid, hmem, Bool.false_eq_true, false_and, not_false_eq_true, decide_true,
        Bool.and_true]
    · simp only [hid, decide_false, Bool.false_and]

theorem evaluateRows_cases [Casing] (str : Json → String) (env : EvalEnv) (scope : EvalScope)
    (evals : EvaluationTable) (hd : d ∈ decisions.rows) {rows : List CIODecisionRecord}
    (hrows : ∀ row ∈ rows, row ∈ decisions.rows) (hunique : (rows.map (·.decisionId)).Nodup) :
    (rowsOf d.decisionId (evaluateRows str env scope rows evals).1 = rowsOf d.decisionId evals ∧
      (d ∈ rows → (evaluateRows str env scope rows evals).2 ≠ none)) ∨
    (d ∈ rows ∧ ∃ bench, rowsOf d.decisionId (evaluateRows str env scope rows evals).1 =
      rowsOf d.decisionId evals ++ storedRows str env scope d bench) := by
  induction rows generalizing evals with
  | nil => exact Or.inl ⟨rfl, fun h => absurd h List.not_mem_nil⟩
  | cons row rows ih =>
    rw [List.map_cons, List.nodup_cons] at hunique
    have hrest : ∀ row ∈ rows, row ∈ decisions.rows :=
      fun row hrow => hrows row (List.mem_cons_of_mem _ hrow)
    unfold evaluateRows
    cases hrow : evaluateRow str env scope row with
    | error e => exact Or.inl ⟨rfl, fun _ => nofun⟩
    | ok stored =>
      obtain ⟨bench, rfl⟩ := evaluateRow_eq hrow
      have hrest' := @ih (evals ++ storedRows str env scope row bench) hrest hunique.2
      rw [rowsOf_append] at hrest'
      dsimp only
      by_cases hid : row.decisionId = d.decisionId
      · -- the decision itself: what is left of the loop is about others
        have hrowd : row = d :=
          KeyedTable.eq_of_key_eq (hrows row (List.mem_cons_self ..)) hd hid
        subst hrowd
        rw [rowsOf_stored] at hrest'
        rcases hrest' with ⟨hsame, _⟩ | ⟨hmem, _⟩
        · exact Or.inr ⟨List.mem_cons_self .., bench, hsame⟩
        · exact absurd (List.mem_map_of_mem hmem) hunique.1
      · rw [rowsOf_stored_other hid, List.append_nil] at hrest'
        rcases hrest' with ⟨hsame, hreached⟩ | ⟨hmem, bench', hstored⟩
        · refine Or.inl ⟨hsame, fun hmem => hreached ?_⟩
          exact (List.mem_cons.mp hmem).resolve_left fun heq => hid (congrArg _ heq.symm)
        · exact Or.inr ⟨List.mem_cons_of_mem _ hmem, bench', hstored⟩

/-- A batch stores a decision's rows anew, or leaves them. -/
theorem batch_cases [Casing] (str : Json → String) (env : EvalEnv) (scope : EvalScope) (limit : ℕ)
    (hd : d ∈ decisions.rows)
    (hfresh : evaluated evals d.decisionId = false → rowsOf d.decisionId evals = []) :
    (rowsOf d.decisionId
        (evaluateDecisionsBatch str env decisions scope limit true evals).1 =
        rowsOf d.decisionId evals ∧
      (d ∈ (cioEvalSelection str env decisions scope limit true evals).1 → ∃ e,
        (evaluateDecisionsBatch str env decisions scope limit true evals).2 = .error e)) ∨
    (d ∈ (cioEvalSelection str env decisions scope limit true evals).1 ∧ ∃ bench,
      rowsOf d.decisionId
        (evaluateDecisionsBatch str env decisions scope limit true evals).1 =
        storedRows str env scope d bench) := by
  generalize hpicked : cioEvalSelection str env decisions scope limit true evals = picked
  have hrows : ∀ row ∈ picked.1, row ∈ decisions.rows := fun row hrow => by
    rw [← hpicked] at hrow
    exact (mem_candidates.mp (candidate_of_picked hrow)).1
  have hunique : (picked.1.map (·.decisionId)).Nodup := by
    rw [← hpicked]
    exact nodup_picked
  -- the pending rows that a batch deletes are of decisions without any
  have hkept : rowsOf d.decisionId (deletePending picked.1 evals) = rowsOf d.decisionId evals ∧
      (d ∈ picked.1 → rowsOf d.decisionId evals = []) := by
    have hempty : d ∈ picked.1 → rowsOf d.decisionId evals = [] := fun hmem => by
      rw [← hpicked] at hmem
      obtain ⟨_, _, hskip⟩ := mem_candidates.mp (candidate_of_picked hmem)
      exact hfresh (Bool.eq_false_of_not_eq_true fun h => hskip ⟨rfl, h⟩)
    refine ⟨?_, hempty⟩
    rw [rowsOf_deletePending]
    split
    · rename_i hmem
      obtain ⟨row, hrow, hid⟩ := List.mem_map.mp (List.contains_iff_mem.mp hmem)
      rw [KeyedTable.eq_of_key_eq (hrows row hrow) hd hid] at hrow
      rw [hempty hrow]
      rfl
    · rfl
  have hloop := evaluateRows_cases str env scope (deletePending picked.1 evals) hd hrows hunique
  rw [hkept.1] at hloop
  unfold evaluateDecisionsBatch
  rw [hpicked]
  dsimp only
  generalize evaluateRows str env scope picked.1 (deletePending picked.1 evals) = res at hloop ⊢
  obtain ⟨stored, error⟩ := res
  rcases hloop with ⟨hsame, hreached⟩ | ⟨hmem, bench, hstored⟩
  · refine Or.inl ?_
    cases error with
    | some e => exact ⟨hsame, fun _ => ⟨e, rfl⟩⟩
    | none =>
      dsimp only
      split
      · exact ⟨hsame, fun hmem => absurd rfl (hreached hmem)⟩
      · exact ⟨hsame, fun hmem => absurd rfl (hreached hmem)⟩
  · refine Or.inr ⟨hmem, bench, ?_⟩
    rw [hkept.2 hmem, List.nil_append] at hstored
    cases error with
    | some e => exact hstored
    | none =>
      dsimp only
      split <;> exact hstored

end Batches

/-! ## Runs -/

inductive EvalOp
  | refresh (env : EvalEnv) (scope : EvalScope)
  | batch (env : EvalEnv) (scope : EvalScope) (limit : ℕ)

variable [Casing]

def evalStep (decisions : DecisionTable) (str : Json → String) (evals : EvaluationTable) :
    EvalOp → EvaluationTable
  | .refresh env scope => refreshPendingEvaluations str env decisions scope evals
  | .batch env scope limit =>
    (evaluateDecisionsBatch str env decisions scope limit true evals).1

/-- **The condition on a step**: if it picks the decision, the horizons of the decision are over
    together or not at all. -/
def TakesWhole (decisions : DecisionTable) (str : Json → String) (d : CIODecisionRecord)
    (evals : EvaluationTable) : EvalOp → Prop
  | .refresh _ _ => True
  | .batch env scope limit =>
    d ∈ (cioEvalSelection str env decisions scope limit true evals).1 →
      AllOver str env scope d ∨ NoneOver str env scope d

/-- The rows of a decision are of one kind: there are none, or they are all pending with the `cio`
    row among them, or the decision is evaluated. -/
def Unsplit (str : Json → String) (d : CIODecisionRecord) (evals : EvaluationTable) : Prop :=
  rowsOf d.decisionId evals = [] ∨
    (evaluated evals d.decisionId ∧ ∀ e ∈ rowsOf d.decisionId evals, e.status = .pending) ∨
    EvaluatedOnce str d evals

section Runs

variable {env : EvalEnv} {scope : EvalScope} {evals evals' : EvaluationTable}

theorem EvaluatedOnce.congr (h : EvaluatedOnce str d evals)
    (hsame : rowsOf d.decisionId evals' = rowsOf d.decisionId evals) :
    EvaluatedOnce str d evals' := by
  obtain ⟨hportfolio, hplans, hfinal⟩ := h
  rw [← hsame] at hportfolio hplans hfinal
  exact ⟨hportfolio, hplans, hfinal⟩

theorem EvaluatedOnce.evaluated (h : EvaluatedOnce str d evals) :
    evaluated evals d.decisionId = true := by
  obtain ⟨e, he⟩ := List.length_eq_one_iff.mp h.portfolio
  have hmem : e ∈ (rowsOf d.decisionId evals).filter fun e => e.decisionType = .cio := by
    rw [he]
    exact List.mem_singleton_self e
  obtain ⟨hrow, htype⟩ := List.mem_filter.mp hmem
  exact evaluated_iff.mpr ⟨e, hrow, of_decide_eq_true htype⟩

theorem Unsplit.congr (h : Unsplit str d evals)
    (hsame : rowsOf d.decisionId evals' = rowsOf d.decisionId evals) : Unsplit str d evals' := by
  rcases h with hnone | ⟨hcio, hpending⟩ | honce
  · exact Or.inl (hsame.trans hnone)
  · refine Or.inr (Or.inl ⟨?_, ?_⟩)
    · rw [evaluated_iff] at hcio ⊢
      rw [hsame]
      exact hcio
    · rw [hsame]
      exact hpending
  · exact Or.inr (Or.inr (honce.congr hsame))

theorem Unsplit.fresh (h : Unsplit str d evals) (hcio : evaluated evals d.decisionId = false) :
    rowsOf d.decisionId evals = [] := by
  rcases h with hnone | ⟨hcio', _⟩ | honce
  · exact hnone
  · rw [hcio] at hcio'
    cases hcio'
  · have hcio' := honce.evaluated
    rw [hcio] at hcio'
    cases hcio'

theorem pending_stored (hnone : NoneOver str env scope d)
    (h : rowsOf d.decisionId evals = storedRows str env scope d bench) : Unsplit str d evals := by
  refine Or.inr (Or.inl ⟨evaluated_iff.mpr ?_, ?_⟩)
  · rw [h]
    exact ⟨portfolioRow str env scope d bench,
      List.mem_append_right _ (List.mem_singleton_self _), rfl⟩
  · rw [h]
    intro e he
    rcases mem_storedRows he with rfl | ⟨plan, hplan, rfl⟩
    · exact portfolioRow_pending_iff.mpr hnone.1
    · exact planRow_pending_iff.mpr (hnone.2 plan hplan)

/-- A refresh leaves a decision it takes without rows, or evaluated once. -/
theorem refresh_cases (h : Unsplit str d evals) :
    Unsplit str d (refreshPendingEvaluations str env decisions scope evals) ∧
    (d ∈ (cioEvalSelection str env decisions scope 10000 false evals).1 →
      rowsOf d.decisionId (refreshPendingEvaluations str env decisions scope evals) = [] ∨
        EvaluatedOnce str d (refreshPendingEvaluations str env decisions scope evals)) := by
  have hrows := rowsOf_deletePending evals
    (cioEvalSelection str env decisions scope 10000 false evals).1 d.decisionId
  unfold refreshPendingEvaluations
  by_cases hmem : ((cioEvalSelection str env decisions scope 10000 false evals).1.map
      (·.decisionId)).contains d.decisionId = true
  · rw [if_pos hmem] at hrows
    have hsettled : rowsOf d.decisionId (deletePending
        (cioEvalSelection str env decisions scope 10000 false evals).1 evals) = [] ∨
        EvaluatedOnce str d (deletePending
          (cioEvalSelection str env decisions scope 10000 false evals).1 evals) := by
      rcases h with hnone | ⟨_, hpending⟩ | honce
      · exact Or.inl (by rw [hrows, hnone]; rfl)
      · refine Or.inl (hrows.trans (List.filter_eq_nil_iff.mpr fun e he hkept => ?_))
        exact of_decide_eq_true hkept (hpending e he)
      · refine Or.inr (honce.congr (hrows.trans (List.filter_eq_self.mpr fun e he => ?_)))
        exact decide_eq_true (honce.final e he)
    exact ⟨hsettled.imp_right Or.inr, fun _ => hsettled⟩
  · rw [if_neg hmem] at hrows
    exact ⟨h.congr hrows,
      fun hd => absurd (List.contains_iff_mem.mpr (List.mem_map_of_mem hd)) hmem⟩

theorem unsplit_step (hd : d ∈ decisions.rows) {op : EvalOp} (h : Unsplit str d evals)
    (hwhole : TakesWhole decisions str d evals op) :
    Unsplit str d (evalStep decisions str evals op) := by
  cases op with
  | refresh env scope => exact (refresh_cases h).1
  | batch env scope limit =>
    rcases batch_cases str env scope limit hd h.fresh with
      ⟨hsame, _⟩ | ⟨hpicked, bench, hstored⟩
    · exact h.congr hsame
    · rcases hwhole hpicked with hall | hnone
      · exact Or.inr (Or.inr (evaluatedOnce_stored hall hstored))
      · exact pending_stored hnone hstored

/-! ## The last rerun -/

/-- A call of `evaluate_decisions_batch`. -/
structure Chunk where
  env : EvalEnv
  scope : EvalScope
  limit : ℕ

structure Rerun where
  env : EvalEnv
  scope : EvalScope
  chunks : List Chunk
  lastChunk : Chunk

def Chunk.op (c : Chunk) : EvalOp := .batch c.env c.scope c.limit

def Rerun.beforeLast (decisions : DecisionTable) (str : Json → String) (r : Rerun)
    (evals : EvaluationTable) : EvaluationTable :=
  runFrom (evalStep decisions str) (refreshPendingEvaluations str r.env decisions r.scope evals)
    (r.chunks.map Chunk.op)

def Rerun.run (decisions : DecisionTable) (str : Json → String) (r : Rerun)
    (evals : EvaluationTable) : EvaluationTable :=
  evalStep decisions str (r.beforeLast decisions str evals) r.lastChunk.op

/-- The batch went through and leaves nothing: it says so, or there was nothing to pick. -/
def Finished (limit : ℕ) : Except EvalError BatchResult → Prop
  | .ok result => result.remainingDecisions = 0
  | .error .unboundBenchmark => 0 < limit
  | .error .badNumber => False

/-- A rerun that settles a decision: the refresh takes the decision up, the chunks find all its
    horizons over, and the last one, with the decision in its scope, leaves nothing. -/
structure Rerun.Settles (decisions : DecisionTable) (str : Json → String) (d : CIODecisionRecord)
    (evals : EvaluationTable) (r : Rerun) : Prop where
  taken : d ∈ (cioEvalSelection str r.env decisions r.scope 10000 false evals).1
  ended : ∀ c ∈ r.lastChunk :: r.chunks, AllOver str c.env c.scope d
  inScope : InScope str r.lastChunk.env r.lastChunk.scope d
  finished : Finished r.lastChunk.limit (evaluateDecisionsBatch str r.lastChunk.env decisions
    r.lastChunk.scope r.lastChunk.limit true (r.beforeLast decisions str evals)).2

theorem evaluateRows_error {rows : List CIODecisionRecord} {e : EvalError}
    (h : (evaluateRows str env scope rows evals).2 = some e) : e = .badNumber := by
  induction rows generalizing evals with
  | nil => cases h
  | cons row rows ih =>
    unfold evaluateRows at h
    cases hrow : evaluateRow str env scope row with
    | ok stored =>
      rw [hrow] at h
      exact ih h
    | error e' =>
      rw [hrow] at h
      unfold evaluateRow at hrow
      cases hbench : portfolioBenchmark str env scope row with
      | ok bench => rw [hbench] at hrow; cases hrow
      | error e'' =>
        rw [hbench] at hrow
        cases hrow
        cases h
        unfold portfolioBenchmark at hbench
        split at hbench
        · cases hbench
        · split at hbench
          · cases hbench
          · exact (Except.error.inj hbench).symm

theorem batch_result (str : Json → String) (env : EvalEnv) (decisions : DecisionTable)
    (scope : EvalScope) (limit : ℕ) (evals : EvaluationTable) :
    (evaluateDecisionsBatch str env decisions scope limit true evals).2 = .error .badNumber ∨
    ((cioEvalSelection str env decisions scope limit true evals).1 = [] ∧
      (evaluateDecisionsBatch str env decisions scope limit true evals).2 =
        .error .unboundBenchmark) ∨
    (evaluateDecisionsBatch str env decisions scope limit true evals).2 =
      .ok { decisionsProcessed :=
              (cioEvalSelection str env decisions scope limit true evals).1.length
            remainingDecisions :=
              (cioEvalSelection str env decisions scope limit true evals).2 } := by
  unfold evaluateDecisionsBatch
  dsimp only
  generalize cioEvalSelection str env decisions scope limit true evals = picked
  cases hres : evaluateRows str env scope picked.1 (deletePending picked.1 evals) with
  | mk stored error =>
    cases error with
    | some e =>
      have hbad : e = .badNumber := evaluateRows_error (congrArg Prod.snd hres)
      rw [hbad]
      exact Or.inl rfl
    | none =>
      dsimp only
      split
      · rename_i hempty
        exact Or.inr (Or.inl ⟨List.isEmpty_iff.mp hempty, rfl⟩)
      · exact Or.inr (Or.inr rfl)

theorem mem_picked_of_finished (h : d ∈ evalCandidates str env decisions scope true evals)
    (hfinished : Finished limit
      (evaluateDecisionsBatch str env decisions scope limit true evals).2) :
    d ∈ (cioEvalSelection str env decisions scope limit true evals).1 := by
  have hall := fun hlength => @mem_picked decisions str d _ env scope limit true evals h hlength
  rcases batch_result str env decisions scope limit evals with hbad | ⟨hempty, hunbound⟩ | hok
  · rw [hbad] at hfinished
    exact hfinished.elim
  · rw [hunbound] at hfinished
    refine hall ?_
    have htake : (evalCandidates str env decisions scope true evals).take limit = [] := hempty
    rcases List.take_eq_nil_iff.mp htake with hzero | hnil
    · exact absurd hzero (Nat.ne_of_gt hfinished)
    · rw [hnil]
      exact Nat.zero_le _
  · rw [hok] at hfinished
    exact hall (Nat.le_of_sub_eq_zero hfinished)

/-- What a batch leaves of a decision whose horizons are over. -/
def Settled (str : Json → String) (d : CIODecisionRecord) (evals : EvaluationTable) : Prop :=
  rowsOf d.decisionId evals = [] ∨ EvaluatedOnce str d evals

theorem Settled.fresh (h : Settled str d evals) :
    evaluated evals d.decisionId = false → rowsOf d.decisionId evals = [] :=
  Unsplit.fresh (h.imp_right Or.inr)

theorem settled_chunk (hd : d ∈ decisions.rows) {c : Chunk} (h : Settled str d evals)
    (hover : AllOver str c.env c.scope d) :
    Settled str d (evalStep decisions str evals c.op) := by
  rcases batch_cases str c.env c.scope c.limit hd h.fresh with ⟨hsame, _⟩ | ⟨_, bench, hstored⟩
  · exact h.imp (fun hnone => hsame.trans hnone) fun honce => honce.congr hsame
  · exact Or.inr (evaluatedOnce_stored hover hstored)

theorem settled_chunks (hd : d ∈ decisions.rows) {chunks : List Chunk} (h : Settled str d evals)
    (hover : ∀ c ∈ chunks, AllOver str c.env c.scope d) :
    Settled str d (runFrom (evalStep decisions str) evals (chunks.map Chunk.op)) := by
  induction chunks generalizing evals with
  | nil => exact h
  | cons c chunks ih =>
    exact ih (settled_chunk hd h (hover c (List.mem_cons_self ..)))
      fun c' hc' => hover c' (List.mem_cons_of_mem _ hc')

/-- The last chunk evaluates a settled decision once. -/
theorem evaluatedOnce_last (hd : d ∈ decisions.rows) {c : Chunk} (h : Settled str d evals)
    (hover : AllOver str c.env c.scope d) (hscope : InScope str c.env c.scope d)
    (hfinished : Finished c.limit
      (evaluateDecisionsBatch str c.env decisions c.scope c.limit true evals).2) :
    EvaluatedOnce str d (evalStep decisions str evals c.op) := by
  have hcases := batch_cases str c.env c.scope c.limit hd h.fresh
  rcases h with hnone | honce
  · -- without rows the decision is a candidate, and a finished batch picks all candidates
    have hcandidate : d ∈ evalCandidates str c.env decisions c.scope true evals := by
      refine mem_candidates.mpr ⟨hd, hscope, fun hskip => ?_⟩
      obtain ⟨e, he, _⟩ := evaluated_iff.mp hskip.2
      rw [hnone] at he
      exact absurd he List.not_mem_nil
    have hpicked := mem_picked_of_finished hcandidate hfinished
    rcases hcases with ⟨_, herror⟩ | ⟨_, bench, hstored⟩
    · obtain ⟨e, he⟩ := herror hpicked
      rcases batch_result str c.env decisions c.scope c.limit evals with hbad | ⟨hempty, _⟩ | hok
      · rw [hbad] at hfinished
        exact hfinished.elim
      · rw [hempty] at hpicked
        exact absurd hpicked List.not_mem_nil
      · rw [hok] at he
        cases he
    · exact evaluatedOnce_stored hover hstored
  · rcases hcases with ⟨hsame, _⟩ | ⟨_, bench, hstored⟩
    · exact honce.congr hsame
    · exact evaluatedOnce_stored hover hstored

/-- **One row each**, after a rerun that settles the decision, whatever the steps before it were,
    as long as none of them split the decision. -/
theorem evaluated_once (hd : d ∈ decisions.rows) {ops : List EvalOp} {r : Rerun}
    (hnew : rowsOf d.decisionId evals = [])
    (hwhole : StepsMeet (evalStep decisions str) (TakesWhole decisions str d) evals ops)
    (hsettles : r.Settles decisions str d (runFrom (evalStep decisions str) evals ops)) :
    EvaluatedOnce str d (r.run decisions str (runFrom (evalStep decisions str) evals ops)) := by
  have hunsplit : Unsplit str d (runFrom (evalStep decisions str) evals ops) :=
    run_invariant_of_meets (fun _ _ h hop => unsplit_step hd h hop) (Or.inl hnew) hwhole
  have hsettled : Settled str d (r.beforeLast decisions str
      (runFrom (evalStep decisions str) evals ops)) :=
    settled_chunks hd ((refresh_cases hunsplit).2 hsettles.taken)
      fun c hc => hsettles.ended c (List.mem_cons_of_mem _ hc)
  exact evaluatedOnce_last hd hsettled (hsettles.ended _ (List.mem_cons_self ..)) hsettles.inScope
    hsettles.finished

end Runs

end Reruns

/-! ## A plan that is lost -/

section Examples

attribute [local instance] asciiCasing

def decisionOn (plans : List (String × String)) : CIODecisionRecord :=
  { decisionId := "d1", workflowId := none, decisionTimestamp := 0, portfolioAction := "BUY",
    payload :=
      { venue := .str "US", bookVenue := .null
        symbolActions := plans.map fun p =>
          .obj [("symbol", .str p.1), ("universe_horizon", .str p.2)]
        referencePrice := .null, decisionPrice := .null, horizonPrice := .null,
        benchmarkReturn := .null, symbolHorizonPrices := [] } }

def decisionTable (d : CIODecisionRecord) : DecisionTable := ⟨[d], List.nodup_singleton _⟩

def noText : Json → String := fun _ => ""

def envAfter (days : Int) : EvalEnv :=
  { cfg := mockSettings, primaryBenchmark := none, primaryBenchmarkAu := none,
    now := minutes (days * 1440), snapshots := [], watchlistHorizon := [], workflowVenues := [],
    sets := ⟨fun xs => xs.dedup, fun _ => List.Perm.refl _⟩ }

def scopeAfter (days : Int) : EvalScope :=
  { periodStart := minutes ((days - 90) * 1440), periodEnd := minutes (days * 1440),
    venue := some "US" }

def chunkAfter (days : Int) : Chunk := ⟨envAfter days, scopeAfter days, 12⟩

def rerunAfter (days : Int) : Rerun :=
  { env := envAfter days, scope := scopeAfter days, chunks := [], lastChunk := chunkAfter days }

def dayDecision : CIODecisionRecord := decisionOn [("AAPL", "day"), ("MSFT", "day")]

def mixedDecision : CIODecisionRecord :=
  decisionOn [("AAPL", "day"), ("MSFT", "day"), ("NVDA", "medium")]

theorem evaluated_once_day :
    EvaluatedOnce noText dayDecision ((rerunAfter 1).run (decisionTable dayDecision) noText
      (runFrom (evalStep (decisionTable dayDecision) noText) [] [(chunkAfter 0).op])) := by
  refine evaluated_once (List.mem_singleton_self _) rfl ⟨fun _ => Or.inr ?_, trivial⟩
    { taken := ?_, ended := ?_, inScope := ?_, finished := ?_ }
  · unfold NoneOver PortfolioOver PlanOver
    decide +kernel
  · refine mem_picked (mem_candidates.mpr ⟨List.mem_singleton_self _, ?_, nofun⟩) (by decide +kernel)
    unfold InScope
    decide +kernel
  · intro c hc
    rw [List.mem_singleton.mp hc]
    unfold AllOver PortfolioOver PlanOver
    decide +kernel
  · unfold InScope
    decide +kernel
  · have hresult : (evaluateDecisionsBatch noText (envAfter 1) (decisionTable dayDecision)
        (scopeAfter 1) 12 true ((rerunAfter 1).beforeLast (decisionTable dayDecision) noText
          (runFrom (evalStep (decisionTable dayDecision) noText) [] [(chunkAfter 0).op]))).2 =
        .ok { decisionsProcessed := 1, remainingDecisions := 0 } := by decide +kernel
    show Finished 12 (evaluateDecisionsBatch noText (envAfter 1) _ (scopeAfter 1) 12 true _).2
    rw [hresult]
    rfl

/-- **The plan of 60 days is lost**: it is pending when the decision is evaluated after a session,
    the next refresh deletes its row, and the decision is not evaluated again. -/
theorem pending_plan_lost :
    AllOver noText (envAfter 61) (scopeAfter 61) mixedDecision ∧
    ((rerunAfter 61).run (decisionTable mixedDecision) noText
      ((rerunAfter 1).run (decisionTable mixedDecision) noText [])).map (·.symbol) =
        [some "AAPL", some "MSFT", none] ∧
    ¬ EvaluatedOnce noText mixedDecision ((rerunAfter 61).run (decisionTable mixedDecision) noText
      ((rerunAfter 1).run (decisionTable mixedDecision) noText [])) := by
  refine ⟨?_, by decide +kernel, fun honce => ?_⟩
  · unfold AllOver PortfolioOver PlanOver
    decide +kernel
  · have hplans := honce.plans
    revert hplans
    decide +kernel

end Examples

end Investor.Performance
