import Investor.Intraday.Monitor

/-!
# The levels that are stamped

A lifecycle without a stop and a target is given both from the book its symbol is traded under. Both
functions only know longs: the stop is set below the entry and the target above it, for a short
too. Before it is rounded a stop lies strictly between zero and the entry, and a target strictly
above the entry, so that for a long only the rounding to four places can bring them there, and for
a short only the rounding can keep them right.
-/

namespace Investor.Intraday

open Lib Market Execution Universe

section Stamped

/-- A lifecycle after `monitor_all` has stamped what it did not have. -/
def stampMissing [Casing] (watchlistHorizon : Option String) (atr : Option ℚ) (m : Monitored) : Monitored :=
  stampHorizonTakeProfitIfMissing watchlistHorizon (stampHorizonStopIfMissing watchlistHorizon atr m)

def Monitored.Loses (m : Monitored) (level : ℚ) : Prop :=
  if m.longSide then level < m.entry else m.entry < level

def Monitored.Wins (m : Monitored) (level : ℚ) : Prop :=
  if m.longSide then m.entry < level else level < m.entry

/-- What is asked of the levels of a lifecycle: the stop loses, the target wins, and neither is
    reached at the entry. -/
structure LevelsRight [Casing] (cfg : MonitorSettings) (m : Monitored) : Prop where
  stop : ∀ s, m.stopPrice = some s → 0 < s ∧ m.Loses s
  target : ∀ t, m.takeProfitPrice = some t → m.Wins t
  quiet : ∀ o : Observation, m.price o = m.entry →
    "stop_triggered" ∉ (PositionMonitor.evaluate cfg m o).reasons ∧
      "take_profit_triggered" ∉ (PositionMonitor.evaluate cfg m o).reasons

/-! ## Reasons -/

variable {cfg : MonitorSettings} {m : Monitored} {o : Observation}

theorem mem_reasons_iff [Casing] {reason : String} :
    reason ∈ (PositionMonitor.evaluate cfg m o).reasons ↔
      ∃ rule ∈ rules cfg m o, rule.fires ∧ rule.reason = reason := by
  simp [PositionMonitor.evaluate, and_assoc]

theorem stop_triggered_iff [Casing] :
    "stop_triggered" ∈ (PositionMonitor.evaluate cfg m o).reasons ↔ m.stopTriggered o := by
  rw [mem_reasons_iff]
  simp [rules, quoteRules, positionRules]

theorem take_profit_triggered_iff [Casing] :
    "take_profit_triggered" ∈ (PositionMonitor.evaluate cfg m o).reasons ↔ m.takeProfitTriggered o := by
  rw [mem_reasons_iff]
  simp [rules, quoteRules, positionRules]

theorem levelsRight_iff [Casing] : LevelsRight cfg m ↔
    (∀ s, m.stopPrice = some s → 0 < s ∧ m.Loses s) ∧
      ∀ t, m.takeProfitPrice = some t → m.Wins t := by
  refine ⟨fun h => ⟨h.stop, h.target⟩, fun h => ⟨h.1, h.2, fun o hprice => ⟨?_, ?_⟩⟩⟩
  · rw [stop_triggered_iff, Monitored.stopTriggered, hprice, Bool.and_eq_true, not_and]
    intro _ hany
    obtain ⟨s, hs, hagainst⟩ := (Option.any_eq_true _ _).mp hany
    have hloses := (h.1 s hs).2
    unfold Monitored.against at hagainst
    unfold Monitored.Loses at hloses
    split at hagainst <;> rename_i hside
    · rw [if_pos hside] at hloses
      exact absurd (of_decide_eq_true hagainst) hloses.not_ge
    · rw [if_neg hside] at hloses
      exact absurd (of_decide_eq_true hagainst) hloses.not_ge
  · rw [take_profit_triggered_iff, Monitored.takeProfitTriggered, hprice]
    intro hany
    obtain ⟨t, ht, htouch⟩ := (Option.any_eq_true _ _).mp hany
    have hwins := h.2 t ht
    have hreached := (Bool.and_eq_true_iff.mp htouch).2
    unfold Monitored.Wins at hwins
    split at hreached <;> rename_i hside
    · rw [if_pos hside] at hwins
      exact absurd (of_decide_eq_true hreached) hwins.not_ge
    · rw [if_neg hside] at hwins
      exact absurd (of_decide_eq_true hreached).2 hwins.not_ge

/-! ## What is stamped -/

variable {hz : Option String} {atr : Option ℚ} {e : ℚ}

theorem minStopPct_pos {horizon : String} {policy : HorizonPolicy}
    (h : policyFor horizon = some policy) : 0 < policy.minStopPct := by
  unfold policyFor at h
  obtain ⟨hz, -, rfl⟩ := Option.map_eq_some_iff.mp h
  cases hz <;> norm_num [horizonPolicy]

theorem rawLongStop_lt {horizon : String} {policy : HorizonPolicy}
    (h : policyFor horizon = some policy) (he : 0 < e) : rawLongStop policy e atr < e := by
  have hmin := minStopPct_pos h
  refine (min_le_right _ _).trans_lt ?_
  rw [mul_sub, mul_one, sub_lt_self_iff]
  exact mul_pos he hmin

variable [Casing]

def bookStop (hz : Option String) (atr : Option ℚ) (symbol : String) (entry : ℚ) : Option ℚ :=
  ((policyFor (stampHorizon hz symbol)).map fun policy =>
    rawLongStop policy entry (atr.filter (0 < ·))).filter (0 < ·)

def bookTarget (hz : Option String) (symbol : String) (entry : ℚ) : Option ℚ :=
  (playbookFor (stampHorizon hz symbol)).map fun book => entry * (1 + book.targetPct)

theorem suggestedStop_eq (he : 0 < e) (symbol : String) :
    ((policyFor (stampHorizon hz symbol)).bind fun policy =>
      suggestedLongStop policy e (atr.filter (0 < ·))) =
        (bookStop hz atr symbol e).map (roundTo 4) := by
  unfold bookStop
  cases hpolicy : policyFor (stampHorizon hz symbol) with
  | none => rfl
  | some policy =>
    have hlt := @rawLongStop_lt (atr.filter (0 < ·)) e _ policy hpolicy he
    simp only [Option.bind_some, Option.map_some, suggestedLongStop, not_le.mpr he, if_false,
      not_le.mpr hlt, or_false, Option.filter_some]
    by_cases hpos : 0 < rawLongStop policy e (atr.filter (0 < ·))
    · simp [hpos, not_le.mpr hpos]
    · simp [hpos, not_lt.mp hpos]

theorem stampHorizonStop_of_missing (hstop : m.stopPrice = none)
    (hentry : m.averageEntryPrice = some e) (he : 0 < e) :
    (stampHorizonStopIfMissing hz atr m).stopPrice =
        (bookStop hz atr m.symbol e).map (roundTo 4) ∧
      (stampHorizonStopIfMissing hz atr m).takeProfitPrice = m.takeProfitPrice ∧
      (stampHorizonStopIfMissing hz atr m).averageEntryPrice = some e ∧
      (stampHorizonStopIfMissing hz atr m).symbol = m.symbol ∧
      (stampHorizonStopIfMissing hz atr m).quantity = m.quantity := by
  have href : (m.averageEntryPrice.filter (· ≠ 0)) = some e := by
    simp [hentry, he.ne']
  have hsuggest := @suggestedStop_eq hz atr e _ he m.symbol
  simp only [stampHorizonStopIfMissing, hstop, href, Option.isSome_none, Bool.false_eq_true,
    if_false, Option.orElse_some, Option.getD_some, not_le.mpr he, hsuggest]
  cases (bookStop hz atr m.symbol e).map (roundTo 4) with
  | none => exact ⟨hstop, rfl, hentry, rfl, rfl⟩
  | some s => exact ⟨rfl, rfl, hentry, rfl, rfl⟩

theorem stampHorizonTakeProfit_of_missing (htp : m.takeProfitPrice = none)
    (hentry : m.averageEntryPrice = some e) (he : 0 < e) :
    (stampHorizonTakeProfitIfMissing hz m).takeProfitPrice =
        (bookTarget hz m.symbol e).map (roundTo 4) ∧
      (stampHorizonTakeProfitIfMissing hz m).stopPrice = m.stopPrice ∧
      (stampHorizonTakeProfitIfMissing hz m).averageEntryPrice = some e ∧
      (stampHorizonTakeProfitIfMissing hz m).quantity = m.quantity := by
  have htarget : playbookTakeProfit e (stampHorizon hz m.symbol) true =
      (bookTarget hz m.symbol e).map (roundTo 4) := by
    unfold playbookTakeProfit bookTarget
    cases playbookFor (stampHorizon hz m.symbol) with
    | none => rfl
    | some book => simp [not_le.mpr he]
  simp only [stampHorizonTakeProfitIfMissing, htp, hentry, Option.isSome_none, Bool.false_eq_true,
    if_false, Option.getD_some, not_le.mpr he, htarget]
  cases (bookTarget hz m.symbol e).map (roundTo 4) with
  | none => exact ⟨htp, rfl, hentry, rfl⟩
  | some t => exact ⟨rfl, rfl, hentry, rfl⟩

theorem stampMissing_spec (hstop : m.stopPrice = none) (htp : m.takeProfitPrice = none)
    (hentry : m.averageEntryPrice = some e) (he : 0 < e) :
    (stampMissing hz atr m).stopPrice = (bookStop hz atr m.symbol e).map (roundTo 4) ∧
      (stampMissing hz atr m).takeProfitPrice = (bookTarget hz m.symbol e).map (roundTo 4) ∧
      (stampMissing hz atr m).averageEntryPrice = some e ∧
      (stampMissing hz atr m).quantity = m.quantity := by
  obtain ⟨hs, htp', hentry', hsym, hqty⟩ :=
    @stampHorizonStop_of_missing m hz atr e _ hstop hentry he
  obtain ⟨ht, hs', hentry'', hqty'⟩ := @stampHorizonTakeProfit_of_missing _ hz e _
    (htp'.trans htp) hentry' he
  refine ⟨hs'.trans hs, ?_, hentry'', hqty'.trans hqty⟩
  rw [← hsym]
  exact ht

/-! ## Which side they lie on -/

/-- What keeps the stamped levels right. For a long, rounding to four places takes the stop neither
    to zero nor to the entry, and the target not to the entry. A short's stop lies below its entry
    and its target above it, unless rounding takes each past it. -/
structure RoundsRight (hz : Option String) (atr : Option ℚ) (m : Monitored) (e : ℚ) : Prop where
  stop : ∀ x, bookStop hz atr m.symbol e = some x → RoundsAbove 4 x 0 ∧
    if 0 ≤ m.quantity then RoundsBelow 4 x e else RoundsAbove 4 x e
  target : ∀ x, bookTarget hz m.symbol e = some x →
    if 0 ≤ m.quantity then RoundsAbove 4 x e else RoundsBelow 4 x e

/-- **The levels that are stamped lie on the right sides of the entry, and are not reached at it,
    exactly where rounding keeps or puts them there.** -/
theorem stamped_right_iff (cfg : MonitorSettings) (m : Monitored) (hz : Option String)
    (atr : Option ℚ) (e : ℚ) (hstop : m.stopPrice = none) (htp : m.takeProfitPrice = none)
    (hentry : m.averageEntryPrice = some e) (he : 0 < e) :
    LevelsRight cfg (stampMissing hz atr m) ↔ RoundsRight hz atr m e := by
  obtain ⟨hs, ht, hentry', hqty⟩ := @stampMissing_spec m hz atr e _ hstop htp hentry he
  have hlong : (stampMissing hz atr m).longSide = decide (0 ≤ m.quantity) := by
    unfold Monitored.longSide
    rw [hqty]
  have hat : (stampMissing hz atr m).entry = e := by
    unfold Monitored.entry
    rw [hentry', Option.getD_some]
  have hloses : ∀ x, (stampMissing hz atr m).Loses (roundTo 4 x) ↔
      if 0 ≤ m.quantity then RoundsBelow 4 x e else RoundsAbove 4 x e := by
    intro x
    unfold Monitored.Loses
    rw [hlong, hat]
    by_cases hq : 0 ≤ m.quantity
    · simp [hq, roundTo_lt_iff]
    · simp [hq, lt_roundTo_iff]
  have hwins : ∀ x, (stampMissing hz atr m).Wins (roundTo 4 x) ↔
      if 0 ≤ m.quantity then RoundsAbove 4 x e else RoundsBelow 4 x e := by
    intro x
    unfold Monitored.Wins
    rw [hlong, hat]
    by_cases hq : 0 ≤ m.quantity
    · simp [hq, lt_roundTo_iff]
    · simp [hq, roundTo_lt_iff]
  rw [levelsRight_iff, hs, ht]
  constructor
  · rintro ⟨hstops, htargets⟩
    refine ⟨fun x hx => ?_, fun x hx => (hwins x).mp (htargets _ (by rw [hx]; rfl))⟩
    obtain ⟨hpos, hside⟩ := hstops (roundTo 4 x) (by rw [hx]; rfl)
    exact ⟨lt_roundTo_iff.mp hpos, (hloses x).mp hside⟩
  · intro h
    refine ⟨fun s hs => ?_, fun t ht => ?_⟩
    · obtain ⟨x, hx, rfl⟩ := Option.map_eq_some_iff.mp hs
      obtain ⟨hpos, hside⟩ := h.stop x hx
      exact ⟨lt_roundTo_iff.mpr hpos, (hloses x).mpr hside⟩
    · obtain ⟨x, hx, rfl⟩ := Option.map_eq_some_iff.mp ht
      exact (hwins x).mpr (h.target x hx)

end Stamped

/-! ## A short, and a long -/

section Sample

attribute [local instance] asciiCasing

def bareBhp (quantity : ℚ) : Monitored :=
  { id := 1, symbol := "BHP", status := .open, quantity, averageEntryPrice := some 60
    currentPrice := some 60, venue := "AU", currency := none, conId := none, stopPrice := none
    protectionSubmitted := false, takeProfitPrice := none, openedAt := none
    maxHoldingMinutes := none, overnightAllowed := true, reconciliationRequired := false
    exitPolicy := { horizon := "", peakPrice := none, troughPrice := none } }

def markedAtSixty : Observation :=
  { currentPrice := some 60, quoteAgeSeconds := some 0, spreadBps := some 10, halted := false
    brokerQty := none, equity := 100000, dailyPnlPct := 0, drawdownPct := 0, now := 0
    histPeak := none, histTrough := none }

/-- The short's stop is stamped at 58.20 and its target at 61.80: both are triggered at the
    entry. -/
theorem short_stamped_as_long :
    ¬ ∀ (cfg : MonitorSettings) (m : Monitored) (hz : Option String) (atr : Option ℚ) (e : ℚ),
      m.quantity ≠ 0 → m.stopPrice = none → m.takeProfitPrice = none →
      m.averageEntryPrice = some e → 0 < e → LevelsRight cfg (stampMissing hz atr m) := by
  intro h
  have hright := h mockMonitorSettings (bareBhp (-100)) none none 60 (by norm_num [bareBhp]) rfl rfl
    rfl (by norm_num)
  have hquiet := (hright.quiet markedAtSixty (by decide +kernel)).1
  revert hquiet
  decide +kernel

/-- A long's levels are stamped on the right sides. -/
theorem stamped_right_long :
    LevelsRight mockMonitorSettings (stampMissing none none (bareBhp 100)) := by
  have hstop : bookStop none none "BHP" 60 = some (291 / 5) := by decide +kernel
  have htarget : (bookTarget none "BHP" 60).all fun x => decide (60 < roundTo 4 x) := by
    decide +kernel
  refine (stamped_right_iff mockMonitorSettings (bareBhp 100) none none 60 rfl rfl rfl
    (by norm_num)).mpr ⟨fun x hx => ?_, fun x hx => ?_⟩
  · have hx' : x = 291 / 5 := Option.some.inj (hx.symm.trans hstop)
    rw [if_pos (by norm_num [bareBhp]), ← lt_roundTo_iff, ← roundTo_lt_iff, hx']
    decide +kernel
  · rw [if_pos (by norm_num [bareBhp]), ← lt_roundTo_iff]
    have hx' : bookTarget none "BHP" 60 = some x := hx
    rw [hx'] at htarget
    exact of_decide_eq_true htarget

end Sample

end Investor.Intraday
