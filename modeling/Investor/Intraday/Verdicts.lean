import Investor.Intraday.Monitor

/-!
# What the verdict may hide

Every rule of the position either asks for something whatever the verdict was (`Rule.Forces`), or
leaves a verdict that asks for something as it is (`Rule.Keeps`). Of the rules of the quote the last
does neither: a wide spread makes a `WATCH` of anything before it, a halt and a stale quote included.
And the last rule of all, the concentration of the position, raises only a `HEALTHY`: any reason to
watch hides it.

With no rule of the position that forces, these two ways are the only ones in which a verdict
understates what was seen (`verdict_acts_iff`).
-/

namespace Investor.Intraday

open Lib Market Execution Universe

/-! ## Rules -/

def Rule.Forces (rule : Rule) : Prop := ∀ v, (rule.next v).acts

def Rule.Keeps (rule : Rule) : Prop := ∀ v : Verdict, v.acts → (rule.next v).acts

/-- The condition of the rule holds, and by itself asks for something. -/
def Rule.Alarms (rule : Rule) : Prop := rule.fires ∧ (rule.next .healthy).acts

theorem Rule.Keeps.apply {rule : Rule} (h : rule.Keeps) {v : Verdict} (hv : v.acts) :
    (rule.apply v).acts := by
  unfold Rule.apply
  split
  · exact h v hv
  · exact hv

theorem Rule.Forces.apply {rule : Rule} (h : rule.Forces) (hfires : rule.fires) (v : Verdict) :
    (rule.apply v).acts := by
  unfold Rule.apply
  rw [if_pos hfires]
  exact h v

def verdictOf (v : Verdict) (rs : List Rule) : Verdict := rs.foldl (fun v rule => rule.apply v) v

theorem acts_verdictOf {rs : List Rule} (hkeep : ∀ rule ∈ rs, rule.Keeps) {v : Verdict}
    (hv : v.acts) : (verdictOf v rs).acts := by
  induction rs generalizing v with
  | nil => exact hv
  | cons rule rs ih =>
    exact ih (fun r hr => hkeep r (List.mem_cons_of_mem _ hr))
      ((hkeep rule List.mem_cons_self).apply hv)

theorem acts_of_forces {rs : List Rule} (hkeep : ∀ rule ∈ rs, rule.Keeps) {rule : Rule}
    (hmem : rule ∈ rs) (hforces : rule.Forces) (hfires : rule.fires) (v : Verdict) :
    (verdictOf v rs).acts := by
  induction rs generalizing v with
  | nil => cases hmem
  | cons first rs ih =>
    have hrest : ∀ r ∈ rs, r.Keeps := fun r hr => hkeep r (List.mem_cons_of_mem _ hr)
    rcases List.mem_cons.mp hmem with rfl | hmem
    · exact acts_verdictOf hrest (hforces.apply hfires v)
    · exact ih hrest hmem _

theorem forces_unlessEmergency {target v : Verdict} (h : target.acts) :
    (unlessEmergency target v).acts := by
  unfold unlessEmergency
  split
  · exact h
  · rename_i hv
    rw [not_not.mp hv]
    rfl

section Rules

variable (cfg : MonitorSettings) (m : Monitored) (o : Observation)

section

variable [Casing]

theorem keeps_positionRules : ∀ rule ∈ positionRules cfg m o, rule.Keeps := by
  simp only [positionRules, List.forall_mem_cons, List.not_mem_nil, IsEmpty.forall_iff,
    implies_true, and_true]
  refine ⟨?_, ?_, ?_, ?_, ?_, ?_, ?_, ?_, ?_, ?_, ?_, ?_⟩ <;> intro v hv
  all_goals cases v <;> first | rfl | cases hv

/-- The condition of a rule of the position holds that asks for something whatever was before. -/
def positionAlarms : Bool :=
  m.qtyDrifts o || m.reconciliationRequired || m.stopTriggered o || m.takeProfitTriggered o ||
    m.gaveBack o || m.heldTooLong o || decide (o.dailyPnlPct ≤ -cfg.dailyMaxLossPct) ||
    decide (cfg.maxDrawdownPct ≤ o.drawdownPct)

/-- The condition of a rule of the quote holds that asks for something by itself. -/
def quoteAlarms : Bool := (m.mark o).isNone || o.halted || staleQuote cfg o

/-- **What the verdict hides**, where no rule of the position forces it: under a wide spread the
    alarms of the quote and the concentration, and the concentration under any other reason to
    watch, unless the quote alarms. -/
def understates : Bool :=
  !positionAlarms cfg m o &&
    ((spreadWide cfg o && (quoteAlarms cfg m o || concentrated cfg m o)) ||
      (concentrated cfg m o && !quoteAlarms cfg m o &&
        (o.markRejected || m.stopProximity o || m.unprotected o)))

/-! ## The verdict -/

theorem alarms_iff : (∃ rule ∈ rules cfg m o, rule.Alarms) ↔
    positionAlarms cfg m o ∨ quoteAlarms cfg m o ∨ concentrated cfg m o := by
  have hheld : (m.heldTooLong o && flattenOnMaxHolding m) = true ∨
      (m.heldTooLong o && !flattenOnMaxHolding m) = true ↔ m.heldTooLong o = true := by
    cases m.heldTooLong o <;> cases flattenOnMaxHolding m <;> simp
  simp only [rules, quoteRules, positionRules, List.cons_append, List.nil_append, List.mem_cons,
    List.not_mem_nil, or_false, exists_eq_or_imp, exists_eq_left, Rule.Alarms, unlessEmergency,
    orWatch, Verdict.acts, positionAlarms, quoteAlarms, Bool.or_eq_true, ne_eq, reduceCtorEq,
    not_false_eq_true, if_true, if_false, and_true, and_false, false_or, ← hheld]
  grind

theorem forced_of_positionAlarms (h : positionAlarms cfg m o) :
    ∃ rule ∈ positionRules cfg m o, rule.fires ∧ rule.Forces := by
  simp only [positionRules, List.mem_cons, List.not_mem_nil, or_false, exists_eq_or_imp,
    exists_eq_left]
  simp only [positionAlarms, Bool.or_eq_true] at h
  rcases h with ((((((h | h) | h) | h) | h) | h) | h) | h
  · exact .inl ⟨h, fun _ => rfl⟩
  · exact .inr (.inl ⟨h, fun _ => rfl⟩)
  · exact .inr (.inr (.inl ⟨h, fun _ => rfl⟩))
  · exact .inr (.inr (.inr (.inr (.inl ⟨h, fun _ => forces_unlessEmergency rfl⟩))))
  · exact .inr (.inr (.inr (.inr (.inr (.inl ⟨h, fun _ => forces_unlessEmergency rfl⟩)))))
  · cases hflat : flattenOnMaxHolding m with
    | true =>
      exact .inr (.inr (.inr (.inr (.inr (.inr (.inl
        ⟨by simp [h], fun _ => forces_unlessEmergency rfl⟩))))))
    | false =>
      refine .inr (.inr (.inr (.inr (.inr (.inr (.inr (.inl ⟨by simp [h], fun v => ?_⟩)))))))
      cases v <;> rfl
  · exact .inr (.inr (.inr (.inr (.inr (.inr (.inr (.inr (.inr (.inl ⟨h, fun _ => rfl⟩)))))))))
  · exact .inr (.inr (.inr (.inr (.inr (.inr (.inr (.inr (.inr (.inr (.inl
      ⟨h, fun _ => rfl⟩))))))))))

theorem verdictOf_positionRules (h : positionAlarms cfg m o = false) (v : Verdict) :
    verdictOf v (positionRules cfg m o) =
      let w := if m.stopProximity o || m.unprotected o then orWatch v else v
      if concentrated cfg m o ∧ w = .healthy then .riskReviewRequired else w := by
  simp only [positionAlarms, Bool.or_eq_false_iff] at h
  obtain ⟨⟨⟨⟨⟨⟨⟨hdrift, hflag⟩, hstop⟩, htp⟩, hgave⟩, hheld⟩, hdaily⟩, hdraw⟩ := h
  simp only [verdictOf, positionRules, List.foldl_cons, List.foldl_nil, Rule.apply, hdrift, hflag,
    hstop, htp, hgave, hheld, hdaily, hdraw, Bool.false_and, Bool.false_eq_true, if_false]
  generalize m.stopProximity o = near
  generalize m.unprotected o = bare
  generalize concentrated cfg m o = heavy
  revert v
  cases near <;> cases bare <;> cases heavy <;> intro v <;> cases v <;> rfl

end

theorem verdictOf_quoteRules (v : Verdict) :
    verdictOf v (quoteRules cfg m o) =
      if spreadWide cfg o then .watch
      else if o.halted || staleQuote cfg o then .riskReviewRequired
      else if (m.mark o).isNone then
        unlessEmergency .riskReviewRequired (if o.markRejected then .watch else v)
      else if o.markRejected then .watch else v := by
  simp only [verdictOf, quoteRules, List.foldl_cons, List.foldl_nil, Rule.apply]
  generalize spreadWide cfg o = wide
  generalize staleQuote cfg o = stale
  generalize o.halted = halted
  generalize o.markRejected = rejected
  generalize (m.mark o).isNone = unusable
  cases wide <;> cases stale <;> cases halted <;> cases unusable <;> cases rejected <;> rfl

/-- **A verdict asks for something whenever a condition that alone asks for something holds, but for
    what `understates` names.** -/
theorem verdict_acts_iff [Casing] :
    ((∃ rule ∈ rules cfg m o, rule.Alarms) → (PositionMonitor.evaluate cfg m o).verdict.acts) ↔
      understates cfg m o = false := by
  have hsplit : (PositionMonitor.evaluate cfg m o).verdict =
      verdictOf (verdictOf .healthy (quoteRules cfg m o)) (positionRules cfg m o) :=
    List.foldl_append
  rw [hsplit, alarms_iff]
  cases halarm : positionAlarms cfg m o with
  | true =>
    obtain ⟨rule, hmem, hfires, hforces⟩ := forced_of_positionAlarms cfg m o halarm
    refine iff_of_true (fun _ => ?_) (by simp [understates, halarm])
    exact acts_of_forces (keeps_positionRules cfg m o) hmem hforces hfires _
  | false =>
    rw [verdictOf_positionRules cfg m o halarm, verdictOf_quoteRules]
    simp only [understates, quoteAlarms, halarm]
    generalize spreadWide cfg o = wide
    generalize staleQuote cfg o = stale
    generalize o.halted = halted
    generalize o.markRejected = rejected
    generalize (m.mark o).isNone = unusable
    generalize m.stopProximity o = near
    generalize m.unprotected o = bare
    generalize concentrated cfg m o = heavy
    revert wide stale halted rejected unusable near bare heavy
    decide

end Rules

/-! ## A halt under a wide spread -/

section Sample

attribute [local instance] asciiCasing

def restingBhp : Monitored :=
  { id := 1, symbol := "BHP", status := .open, quantity := 100, averageEntryPrice := some 60
    currentPrice := some 60, venue := "AU", currency := none, conId := none, stopPrice := some 57
    protectionSubmitted := true, takeProfitPrice := some 66, openedAt := none
    maxHoldingMinutes := none, overnightAllowed := true, reconciliationRequired := false
    exitPolicy := { horizon := "short", peakPrice := none, troughPrice := none } }

def haltedWide : Observation :=
  { currentPrice := some 60, quoteAgeSeconds := some 0, spreadBps := some 100, halted := true
    brokerQty := some 100, equity := 100000, dailyPnlPct := 0, drawdownPct := 0, now := 0
    histPeak := none, histTrough := none }

/-- The halt asks for a review of the risk, and the wide spread makes a `WATCH` of it. -/
theorem halt_hidden :
    ¬ ∀ (cfg : MonitorSettings) (m : Monitored) (o : Observation),
      (∃ rule ∈ rules cfg m o, rule.Alarms) → (PositionMonitor.evaluate cfg m o).verdict.acts := by
  intro h
  have halarm : ∃ rule ∈ rules mockMonitorSettings restingBhp haltedWide, rule.Alarms := by
    refine ⟨{ fires := haltedWide.halted, next := fun _ => .riskReviewRequired
              reason := "trading_halt" }, ?_, rfl, rfl⟩
    simp [rules, quoteRules]
  have hverdict := h mockMonitorSettings restingBhp haltedWide halarm
  revert hverdict
  decide +kernel

end Sample

end Investor.Intraday
