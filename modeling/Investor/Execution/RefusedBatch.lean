import Investor.Execution.ExitBatch
import Investor.Execution.Sending

/-!
# The batch of a decision without risk approval

Of a decision whose risk approval was refused, `validate` releases exits alone. The batch is
withheld where the posture adds risk, and where an entry is refused instead of skipped; in a
released batch every exit of an open symbol under a new key is an intent (`intent_of_exit`), and
a market order. Together with what `_submit_one` holds back this says when such a decision sends
something (`ExitGoes`).
-/

namespace Investor.Execution

open Lib Schema Market Risk Universe Core

section Refused

variable [Casing] {v : ExecutionValidator} {d : CIODecision} {a : ValidateArgs}

/-! ## When it is released -/

/-- The posture adds no risk, and each entry is one the validator skips. -/
structure ReleasesExits (v : ExecutionValidator) (d : CIODecision) (a : ValidateArgs) : Prop where
  posture : ¬ d.portfolioAction.isRiskIncreasing
  entries : ∀ plan ∈ d.symbolActions, plan.action.isEntry →
    Casing.upper plan.symbol ∈ (planScope v d a plan).allowlist ∧ skipEntries d a = true

theorem entryGate_refused {plan : SymbolActionPlan} (hrisk : d.riskApproval = false)
    (hentry : plan.action.isEntry) {s : PlanScope} :
    entryGate d plan a s ≠ none ∧ (entryGate d plan a s = some .skipped ↔
      Casing.upper plan.symbol ∈ s.allowlist ∧ s.skipEntries = true) := by
  unfold entryGate
  dsimp only
  rw [if_neg (by simp [hentry])]
  by_cases hlisted : Casing.upper plan.symbol ∈ s.allowlist
  · rw [if_neg (by simpa using hlisted)]
    by_cases hskip : s.skipEntries = true
    · rw [if_pos hskip]
      exact ⟨by simp, iff_of_true rfl ⟨hlisted, hskip⟩⟩
    · rw [if_neg hskip, if_pos (by simp [hrisk])]
      exact ⟨by simp, iff_of_false (by simp) fun h => hskip h.2⟩
  · rw [if_pos hlisted]
    exact ⟨by simp, iff_of_false (by simp) fun h => hlisted h.1⟩

variable {plan : SymbolActionPlan} {s : PlanScope} {seen : List String}

theorem refuses_refused (hrisk : d.riskApproval = false) (hentry : plan.action.isEntry) :
    ¬ refuses (validatePlan v d plan a s seen) ↔
      Casing.upper plan.symbol ∈ s.allowlist ∧ s.skipEntries = true := by
  obtain ⟨hgate, hskipped⟩ := @entryGate_refused _ d a plan hrisk hentry s
  rw [← hskipped]
  unfold validatePlan
  cases h : entryGate d plan a s with
  | none => exact absurd h hgate
  | some early =>
    cases early with
    | intent i => exact absurd h entryGate_not_intent
    | rejected reason => simp [refuses]
    | skipped => simp [refuses]

theorem batchReleased_refused (hrisk : d.riskApproval = false)
    (hactive : v.controls.isNewOrderAllowed) : BatchReleased v d a ↔ ReleasesExits v d a := by
  constructor
  · intro h
    refine ⟨fun hposture => h.approval (by simp [hposture, hrisk]), fun plan hplan hentry => ?_⟩
    exact (refuses_refused hrisk hentry).mp (h.entries plan hplan hentry)
  · intro h
    refine ⟨hactive, fun hboth => h.posture (by simp_all), fun plan hplan hentry => ?_,
      fun hskip => ?_⟩
    · exact (refuses_refused hrisk hentry).mpr (h.entries plan hplan hentry)
    · -- an entry would be skipped
      have hnone : entryKeys d a d.symbolActions = [] := by
        unfold entryKeys
        rw [List.map_eq_nil_iff, List.filter_eq_nil_iff]
        intro plan hplan hentry
        rw [(h.entries plan hplan hentry).2] at hskip
        cases hskip
      rw [hnone]
      exact List.nodup_nil

/-! ## What it is made of -/

variable {x : ValidatedOrderIntent}

theorem Issued.isExit_refused (h : Issued v d plan a s seen x) (hrisk : d.riskApproval = false)
    (hinf : ¬ plan.action.isInformational) : plan.action.isExit := by
  by_contra hexit
  exact absurd h.gate (entryGate_refused hrisk (SymbolAction.isEntry_of_not hexit hinf)).1

theorem market_of_validatePlan (hexit : plan.action.isExit)
    (h : validatePlan v d plan a s seen = .ok (.intent x)) : x.orderType = "market" := by
  have hentry : ¬ plan.action.isEntry := SymbolAction.not_isEntry_of_isExit hexit
  unfold validatePlan at h
  rw [entryGate_exit hentry] at h
  dsimp only at h
  cases hprice : usablePrice v.settings a (Casing.upper plan.symbol) with
  | error reason => rw [hprice] at h; cases h
  | ok price =>
    rw [hprice] at h
    dsimp only at h
    rw [planSize, if_neg hentry] at h
    cases hsize : exitSize plan a with
    | error reason => rw [hsize] at h; cases h
    | ok qs =>
      have hterms : orderTerms v.settings plan price = .ok ("market", none) := by
        simp [orderTerms, hentry]
      rw [hsize] at h
      simp only [Except.map, finishPlan, hterms] at h
      split at h
      · cases h
      · cases h
        rfl

theorem intent_of_exit {q : ℚ} (hexit : plan.action.isExit)
    (hopen : ExitOpen v a (Casing.upper plan.symbol) q) {plans : List SymbolActionPlan}
    {outs : List (SymbolActionPlan × PlanOutcome)}
    (houts : planOutcomes v d a seen plans = .ok outs) (hplan : plan ∈ plans)
    (hnew : intentKey (keyScope d a) (Casing.upper plan.symbol) (exitSide q) plan.action ∉ seen) :
    ∃ x ∈ intentsOf outs, x.idempotencyKey =
      intentKey (keyScope d a) (Casing.upper plan.symbol) (exitSide q) plan.action := by
  induction plans generalizing seen outs with
  | nil => cases hplan
  | cons p plans ih =>
    by_cases hinf : p.action.isInformational
    · rw [planOutcomes, if_pos hinf] at houts
      refine ih houts ?_ hnew
      rcases List.mem_cons.mp hplan with rfl | hplan
      · exact absurd hinf (SymbolAction.not_isInformational_of_isExit hexit)
      · exact hplan
    · obtain ⟨outcome, rest, ho, hrest, rfl⟩ := planOutcomes_cons hinf houts
      by_cases htaken : intentKey (keyScope d a) (Casing.upper plan.symbol) (exitSide q)
          plan.action ∈ outcome.key?.toList
      · cases outcome with
        | intent x =>
          refine ⟨x, mem_intentsOf.mpr ⟨p, List.mem_cons_self⟩, ?_⟩
          simpa [PlanOutcome.key?, eq_comm] using htaken
        | rejected reason => simp [PlanOutcome.key?] at htaken
        | skipped => simp [PlanOutcome.key?] at htaken
      · rcases List.mem_cons.mp hplan with rfl | hplan
        · rcases validatePlan_exit (v := v) (d := d) (a := a) (s := planScope v d a plan) seen
            hexit with ⟨q', x, hopen', _, hval, _, hside⟩ | ⟨hall, _⟩
          · obtain rfl := hopen.unique hopen'
            rw [ho] at hval
            obtain rfl := Except.ok.inj hval
            refine absurd ?_ htaken
            rw [PlanOutcome.key?, (issued_of_validatePlan ho).key, hside]
            exact List.mem_singleton.mpr rfl
          · exact absurd (hall q hopen) hnew
        · have hstill : intentKey (keyScope d a) (Casing.upper plan.symbol) (exitSide q)
              plan.action ∉ outcome.key?.toList ++ seen := fun hmem =>
            (List.mem_append.mp hmem).elim htaken hnew
          obtain ⟨x, hx, hkey⟩ := ih hrest hplan hstill
          obtain ⟨p', hp'⟩ := mem_intentsOf.mp hx
          exact ⟨x, mem_intentsOf.mpr ⟨p', List.mem_cons_of_mem _ hp'⟩, hkey⟩

/-! ## When it sends something -/

/-- An exit plan of an open symbol, under a key that is not on file, and not a partial exit
    while an order of its symbol and side is working. -/
def GoesOut (v : ExecutionValidator) (d : CIODecision) (a : ValidateArgs) (t : Tables)
    (plan : SymbolActionPlan) (q : ℚ) : Prop :=
  let symbol := Casing.upper plan.symbol
  let key := intentKey (keyScope d a) symbol (exitSide q) plan.action
  plan.action.isExit ∧ ExitOpen v a symbol q ∧ key ∉ a.seenIdempotencyKeys ∧
    ¬ (PARTIAL_MARKERS.any (hasPart key) ∧ workingSameSide symbol (exitSide q).value t ≠ [])

structure ExitGoes (v : ExecutionValidator) (d : CIODecision) (a : ValidateArgs) (t : Tables) :
    Prop where
  released : ReleasesExits v d a
  exit : ∃ plan ∈ d.symbolActions, ∃ q, GoesOut v d a t plan q

variable {r : ExecutionValidationResult} {t : Tables}

theorem approved_of_intents (hr : validate v d a = .ok r) (hne : r.intents ≠ []) :
    r.approved = true := by
  rcases settled_of_validate hr with ⟨-, hnone⟩ | ⟨-, -, outs, -, rfl⟩
  · exact absurd hnone hne
  · unfold settle at hne ⊢
    dsimp only at hne ⊢
    split at hne
    · exact absurd rfl hne
    · rename_i hnone
      rw [if_neg hnone]
      split at hne
      · rename_i hintents
        rw [if_pos hintents]
      · split at hne <;> exact absurd rfl hne

theorem exit_of_intent (hrisk : d.riskApproval = false) (hr : validate v d a = .ok r)
    (hx : x ∈ r.intents) :
    x.orderType = "market" ∧ x.isExitIntent ∧ x.idempotencyKey ∉ a.seenIdempotencyKeys ∧
      ∃ plan ∈ d.symbolActions, ∃ q, plan.action.isExit ∧
        ExitOpen v a (Casing.upper plan.symbol) q ∧ x.symbol = Casing.upper plan.symbol ∧
        x.side = exitSide q ∧ x.idempotencyKey =
          intentKey (keyScope d a) (Casing.upper plan.symbol) (exitSide q) plan.action := by
  have hreleased : BatchReleased v d a := by
    by_contra hnot
    rw [validate_withheld hnot hr] at hx
    cases hx
  obtain ⟨r', outs, hr', houts, hintents⟩ := validate_released hreleased
  rw [hr] at hr'
  obtain rfl := Except.ok.inj hr'
  rw [hintents] at hx
  obtain ⟨plan, hmem⟩ := mem_intentsOf.mp hx
  obtain ⟨hplan, hinf, seen, hsub, hval⟩ := planOutcomes_mem houts hmem
  have hissued := issued_of_validatePlan hval
  have hexit := hissued.isExit_refused hrisk hinf
  refine ⟨market_of_validatePlan hexit hval, hissued.isExitIntent_iff.mpr hexit,
    fun hseen => hissued.fresh (hsub hseen), plan, hplan, ?_⟩
  rcases validatePlan_exit (v := v) (d := d) (a := a) (s := planScope v d a plan) seen hexit with
    ⟨q, y, hopen, _, hval', _, hside⟩ | ⟨_, reason, hval'⟩
  · rw [hval] at hval'
    obtain rfl := PlanOutcome.intent.inj (Except.ok.inj hval')
    exact ⟨q, hexit, hopen, hissued.symbol, hside, hside ▸ hissued.key⟩
  · rw [hval] at hval'
    cases hval'

theorem exitGoes_iff (hrisk : d.riskApproval = false) (hactive : v.controls.isNewOrderAllowed)
    (hr : validate v d a = .ok r) :
    ExitGoes v d a t ↔ ∃ x ∈ r.intents, ¬ HeldBack t x := by
  constructor
  · rintro ⟨hreleased, plan, hplan, q, hexit, hopen, hnew, hfree⟩
    obtain ⟨r', outs, hr', houts, hintents⟩ :=
      validate_released ((batchReleased_refused hrisk hactive).mpr hreleased)
    rw [hr] at hr'
    obtain rfl := Except.ok.inj hr'
    obtain ⟨x, hx, hkey⟩ := intent_of_exit hexit hopen houts hplan hnew
    rw [← hintents] at hx
    refine ⟨x, hx, fun hheld => hfree ⟨hkey ▸ hheld.1, ?_⟩⟩
    -- the intent may be of another plan, of the same symbol and side
    obtain ⟨_, _, _, plan', _, q', _, _, hsym, hside, hkey'⟩ := exit_of_intent hrisk hr hx
    obtain ⟨hsame, hsides, _⟩ := intentKey_inj (hkey.symm.trans hkey')
    rw [hsame, hsides, ← hsym, ← hside]
    exact hheld.2
  · rintro ⟨x, hx, hfree⟩
    obtain ⟨_, _, hnew, plan, hplan, q, hexit, hopen, hsym, hside, hkey⟩ :=
      exit_of_intent hrisk hr hx
    have hreleased : BatchReleased v d a := by
      by_contra hnot
      rw [validate_withheld hnot hr] at hx
      cases hx
    refine ⟨(batchReleased_refused hrisk hactive).mp hreleased, plan, hplan, q, hexit, hopen,
      hkey ▸ hnew, fun hheld => hfree ⟨?_, ?_⟩⟩
    · show PARTIAL_MARKERS.any (hasPart x.idempotencyKey) = true
      rw [hkey]
      exact hheld.1
    · rw [hsym, hside]
      exact hheld.2

end Refused

end Investor.Execution
