import Investor.Intraday.StopTests
import Investor.Intraday.StopUpdates

/-!
# A gain that is locked in

The monitor remembers the best print of a position. Once it has come halfway to the target, a mark
on the losing side of the entry closes the position, whatever came in between
(`protective_of_remembered`), and the stop is moved to the entry. The stop is compared with the
entry but set to the entry rounded to four decimals: a stop between the two is moved away from the
price, which is the only way a run of `evaluate` can widen it (`gainsHeld_iff`).
-/

namespace Investor.Intraday

open Lib Market Execution Universe

/-! ## Reasons to close -/

def PROTECTIVE_EXIT_REASONS : List String :=
  ["stop_triggered", "take_profit_triggered", "max_holding_time", "giveback_to_loss"]

/-- `protective_exit_reason`. -/
def protectiveExitReason (reasons : List String) (stopTriggered : Bool) : Option String :=
  if stopTriggered then some "hard_stop" else PROTECTIVE_EXIT_REASONS.find? (· ∈ reasons)

theorem protectiveExitReason_ne_none {reasons : List String} {reason : String}
    (hprotective : reason ∈ PROTECTIVE_EXIT_REASONS) (h : reason ∈ reasons) (stopTriggered : Bool) :
    protectiveExitReason reasons stopTriggered ≠ none := by
  unfold protectiveExitReason
  split
  · simp
  · rw [Ne, List.find?_eq_none]
    intro hnone
    exact hnone reason hprotective (by simpa using h)

/-! ## Sequences of marks -/

/-- A call of `evaluate`: the mark it is given, and what else it is called with. -/
structure Look where
  given : Option PyFloat
  rest : Observation

def finiteOrZero : PyFloat → ℚ
  | .fin q => q
  | .inf | .negInf | .nan => 0

def Look.observation (l : Look) : Observation :=
  { l.rest with currentPrice := l.given.map finiteOrZero }

theorem usableMark_cons (px : Option ℚ) (candidates : List (Option ℚ)) :
    usableMark (px :: candidates) =
      (px.filter isSaneEquityPrice).or (usableMark candidates) := by
  unfold usableMark
  cases h : px.filter isSaneEquityPrice with
  | none => simp [h]
  | some q => simp [h]

theorem usableMark_given (given : Option PyFloat) (candidates : List (Option ℚ)) :
    usableMark (given.map finiteOrZero :: candidates) =
      Floats.usableMark (given :: candidates.map (Option.map .fin)) := by
  have hrest := Floats.usableMark_fin candidates
  unfold Floats.usableMark at hrest ⊢
  rw [usableMark_cons, ← hrest, List.findSome?_cons]
  cases given with
  | none => rfl
  | some y =>
    cases y with
    | fin q =>
      by_cases h : isSaneEquityPrice q
      · simp [Floats.usable, finiteOrZero, h, Option.filter_some]
      · simp [Floats.usable, finiteOrZero, h, Option.filter_some]
    | inf => simp [Floats.usable, finiteOrZero, Option.filter_some, isSaneEquityPrice]
    | negInf => simp [Floats.usable, finiteOrZero, Option.filter_some, isSaneEquityPrice]
    | nan => simp [Floats.usable, finiteOrZero, Option.filter_some, isSaneEquityPrice]

section Watching

def watch [Casing] (m : Monitored) (looks : List Look) : Monitored :=
  runFrom (fun m l => observed m l.observation) m looks

def Monitored.halfway (m : Monitored) (target : ℚ) : ℚ :=
  roundTo 4 (m.entry + 1 / 2 * (target - m.entry))

def Monitored.Narrows [Casing] (m : Monitored) (o : Observation) : Prop :=
  ∀ before after, m.stopPrice = some before → (observed m o).stopPrice = some after →
    m.NoWider after before

def Monitored.MovesToEntry [Casing] (m : Monitored) (o : Observation) : Prop :=
  (observed m o).stopPrice = m.stopPrice ∨ (observed m o).stopPrice = some (roundTo 4 m.entry)

/-- What is asked of a sequence of marks: after one that reached the lock level, each on the losing side
    of the entry gives a reason to close, and the stop only narrows, and only to the rounded entry. -/
structure GainsHeld [Casing] (cfg : MonitorSettings) (m : Monitored) (target : ℚ) (looks : List Look) :
    Prop where
  closes : ∀ done l mid l' rest, looks = done ++ l :: (mid ++ l' :: rest) →
    ∀ x y, l.given = some (.fin x) → isSaneEquityPrice x → m.reaches x (m.halfway target) →
      l'.given = some (.fin y) → isSaneEquityPrice y → m.Loses y → ∀ stopTriggered,
        protectiveExitReason
          (PositionMonitor.evaluate cfg (watch m (done ++ l :: mid)) l'.observation).reasons
          stopTriggered ≠ none
  narrows : StepsMeet (fun m l => observed m l.observation) (fun m l => m.Narrows l.observation) m looks
  moves : StepsMeet (fun m l => observed m l.observation) (fun m l => m.MovesToEntry l.observation) m
    looks

/-- The stop lies strictly between the rounded entry and the entry, on its losing side. -/
def Monitored.StopBetween (m : Monitored) : Prop :=
  ∃ stop, m.stopPrice = some stop ∧ m.Loses stop ∧
    if m.longSide then roundTo 4 m.entry < stop else stop < roundTo 4 m.entry

/-! ## What a mark leaves as it is -/

/-- The columns the lock level and the sides are reckoned from are the same. -/
structure Monitored.SamePlan (m m' : Monitored) : Prop where
  quantity : m'.quantity = m.quantity
  averageEntryPrice : m'.averageEntryPrice = m.averageEntryPrice
  takeProfitPrice : m'.takeProfitPrice = m.takeProfitPrice
  horizon : m'.exitPolicy.horizon = m.exitPolicy.horizon

namespace Monitored.SamePlan

variable {m m' : Monitored}

theorem refl (m : Monitored) : m.SamePlan m := ⟨rfl, rfl, rfl, rfl⟩

theorem longSide (h : m.SamePlan m') : m'.longSide = m.longSide := by
  unfold Monitored.longSide
  rw [h.quantity]

theorem entry (h : m.SamePlan m') : m'.entry = m.entry := by
  unfold Monitored.entry
  rw [h.averageEntryPrice]

theorem reaches (h : m.SamePlan m') : m'.reaches = m.reaches := by
  funext price level
  unfold Monitored.reaches
  rw [h.longSide]

theorem loses (h : m.SamePlan m') (level : ℚ) : m'.Loses level ↔ m.Loses level := by
  unfold Monitored.Loses
  rw [h.longSide, h.entry]

theorem lock [Casing] (h : m.SamePlan m') : m'.lock = m.lock := by
  unfold Monitored.lock
  rw [h.entry, h.takeProfitPrice, h.horizon, h.longSide]

theorem observed [Casing] (h : m.SamePlan m') (o : Observation) : m.SamePlan (Intraday.observed m' o) := by
  unfold Intraday.observed Monitored.trailed
  split
  · exact ⟨h.quantity, h.averageEntryPrice, h.takeProfitPrice, h.horizon⟩
  · exact ⟨h.quantity, h.averageEntryPrice, h.takeProfitPrice, h.horizon⟩

end Monitored.SamePlan

theorem samePlan_watch [Casing] (m : Monitored) (looks : List Look) : m.SamePlan (watch m looks) :=
  run_invariant (fun _ l h => h.observed l.observation) (Monitored.SamePlan.refl m)

/-! ## The best print -/

section BestPrint

variable {m : Monitored} {o : Observation} {level : ℚ}

def Monitored.bestSoFar (m : Monitored) : Option ℚ :=
  if m.longSide then m.exitPolicy.peakPrice else m.exitPolicy.troughPrice

def Monitored.Remembers (m : Monitored) (level : ℚ) : Prop :=
  ∃ best, m.bestSoFar = some best ∧ m.reaches best level

theorem reaches_long {a b : ℚ} (hside : m.longSide = true) : m.reaches a b ↔ b ≤ a := by
  simp [Monitored.reaches, hside]

theorem reaches_short {a b : ℚ} (hside : m.longSide = false) : m.reaches a b ↔ a ≤ b := by
  simp [Monitored.reaches, hside]

theorem reaches_trans {a b c : ℚ} (hab : m.reaches a b) (hbc : m.reaches b c) : m.reaches a c := by
  cases hside : m.longSide with
  | true =>
    rw [reaches_long hside] at hab hbc ⊢
    exact hbc.trans hab
  | false =>
    rw [reaches_short hside] at hab hbc ⊢
    exact hab.trans hbc

theorem rememberPeakPrice_spec (policy : ExitPolicy) (hist : Option ℚ) (price : ℚ) :
    (0 < price → (rememberPeakPrice policy hist price).isSome) ∧
      ∀ peak, rememberPeakPrice policy hist price = some peak →
        price ≤ peak ∧ ∀ p, policy.peakPrice = some p → p ≤ peak := by
  unfold rememberPeakPrice
  have hle : price ≤ ((policy.peakPrice.orElse fun _ => hist).map (max price)).getD price := by
    cases policy.peakPrice.orElse fun _ => hist with
    | none => exact le_rfl
    | some p => exact le_max_left price p
  dsimp only
  split
  · rename_i hnone
    exact ⟨fun hprice => absurd (hle.trans hnone) (not_le.mpr hprice), fun peak h => by cases h⟩
  · refine ⟨fun _ => rfl, fun peak h => ?_⟩
    obtain rfl := Option.some.inj h
    refine ⟨hle, fun p hp => ?_⟩
    rw [hp]
    exact le_max_right price p

theorem rememberTroughPrice_spec (policy : ExitPolicy) (hist : Option ℚ) (price : ℚ) :
    (0 < price → (rememberTroughPrice policy hist price).isSome) ∧
      ∀ trough, rememberTroughPrice policy hist price = some trough →
        trough ≤ price ∧ ∀ p, policy.troughPrice = some p → trough ≤ p := by
  unfold rememberTroughPrice
  split
  · rename_i hnone
    exact ⟨fun hprice => absurd hnone (not_le.mpr hprice), fun trough h => by cases h⟩
  · refine ⟨fun _ => rfl, fun trough h => ?_⟩
    obtain rfl := Option.some.inj h
    constructor
    · cases policy.troughPrice.orElse fun _ => hist.filter (0 < ·) with
      | none => exact le_rfl
      | some p => exact min_le_left price p
    · intro p hp
      rw [hp]
      exact min_le_right price p

theorem best_isSome (hprice : 0 < m.price o) : (m.best o).isSome := by
  unfold Monitored.best
  split
  · exact (rememberPeakPrice_spec _ _ _).1 hprice
  · exact (rememberTroughPrice_spec _ _ _).1 hprice

theorem best_reaches {best : ℚ} (h : m.best o = some best) :
    m.reaches best (m.price o) ∧ ∀ p, m.bestSoFar = some p → m.reaches best p := by
  unfold Monitored.best at h
  unfold Monitored.bestSoFar
  cases hside : m.longSide with
  | true =>
    rw [hside] at h
    simpa [reaches_long hside] using (rememberPeakPrice_spec _ _ _).2 best h
  | false =>
    rw [hside] at h
    simpa [reaches_short hside] using (rememberTroughPrice_spec _ _ _).2 best h

theorem bestSoFar_observed [Casing] :
    (observed m o).bestSoFar = (m.best o).orElse fun _ => m.bestSoFar := by
  unfold Monitored.bestSoFar Monitored.best
  rw [((Monitored.SamePlan.refl m).observed o).longSide]
  split
  · rfl
  · rfl

theorem loses_iff : (if m.longSide then decide (level < m.entry) else decide (m.entry < level)) = true ↔
    m.Loses level := by
  unfold Monitored.Loses
  split
  · exact decide_eq_true_iff
  · exact decide_eq_true_iff

theorem remembers_of_reached [Casing] (hprice : 0 < m.price o) (h : m.reaches (m.price o) level) :
    (observed m o).Remembers level := by
  obtain ⟨best, hbest⟩ := Option.isSome_iff_exists.mp (best_isSome hprice)
  refine ⟨best, by simp [bestSoFar_observed, hbest], ?_⟩
  rw [((Monitored.SamePlan.refl m).observed o).reaches]
  exact reaches_trans (best_reaches hbest).1 h

theorem Monitored.Remembers.observed [Casing] (h : m.Remembers level) (o : Observation) :
    (Intraday.observed m o).Remembers level := by
  obtain ⟨p, hp, hreach⟩ := h
  rw [Monitored.Remembers, bestSoFar_observed, ((Monitored.SamePlan.refl m).observed o).reaches]
  cases hbest : m.best o with
  | none => exact ⟨p, hp, hreach⟩
  | some best => exact ⟨best, rfl, reaches_trans ((best_reaches hbest).2 p hp) hreach⟩

theorem remembers_watch [Casing] (looks : List Look) (h : m.Remembers level) :
    (watch m looks).Remembers level := by
  induction looks generalizing m with
  | nil => exact h
  | cons l looks ih => exact ih (h.observed l.observation)

theorem giveback_to_loss_iff [Casing] {cfg : MonitorSettings} :
    "giveback_to_loss" ∈ (PositionMonitor.evaluate cfg m o).reasons ↔ m.gaveBack o := by
  rw [mem_reasons_iff]
  simp [rules, quoteRules, positionRules]

theorem protective_of_remembered [Casing] (cfg : MonitorSettings) {price : ℚ} (hopen : m.quantity ≠ 0)
    (hentry : 0 < m.entry) (hlock : m.lock = some level) (h : m.Remembers level)
    (hmark : m.mark o = some price) (hsane : isSaneEquityPrice price) (hloses : m.Loses price)
    (stopTriggered : Bool) :
    protectiveExitReason (PositionMonitor.evaluate cfg m o).reasons stopTriggered ≠ none := by
  have hprice : m.price o = price := by
    rw [Monitored.price, hmark]
    rfl
  by_cases htp : m.takeProfitTriggered o
  · exact protectiveExitReason_ne_none (by simp [PROTECTIVE_EXIT_REASONS])
      (take_profit_triggered_iff.mpr htp) stopTriggered
  · have hpos : 0 < m.price o := hprice ▸ Floats.pos_of_sane hsane
    obtain ⟨best, hbest⟩ := Option.isSome_iff_exists.mp (best_isSome hpos)
    obtain ⟨p, hp, hreach⟩ := h
    have hlevel : m.reaches best level := reaches_trans ((best_reaches hbest).2 p hp) hreach
    have hgave : m.gaveBack o := by
      simp [Monitored.gaveBack, Monitored.priced, hmark, hopen, hentry, hbest, hlock, hlevel, hprice,
        loses_iff.mpr hloses, htp]
    exact protectiveExitReason_ne_none (by simp [PROTECTIVE_EXIT_REASONS])
      (giveback_to_loss_iff.mpr hgave) stopTriggered

end BestPrint

/-! ## The stop -/

section Stop

variable {m : Monitored} {o : Observation}

theorem stop_observed [Casing] : (observed m o).stopPrice =
    if m.trails o then some (roundTo 4 m.entry) else m.stopPrice := by
  unfold observed Monitored.trailed
  split
  · rfl
  · rfl

theorem loses_of_trails [Casing] (h : m.trails o) : ∃ stop, m.stopPrice = some stop ∧ m.Loses stop := by
  unfold Monitored.trails at h
  obtain ⟨stop, hstop, hside⟩ := (Option.any_eq_true _ _).mp ((Bool.and_eq_true _ _).mp h).2
  exact ⟨stop, hstop, loses_iff.mp hside⟩

theorem movesToEntry [Casing] (m : Monitored) (o : Observation) : m.MovesToEntry o := by
  rw [Monitored.MovesToEntry, stop_observed]
  split
  · exact Or.inr rfl
  · exact Or.inl rfl

theorem moves_run [Casing] (m : Monitored) (looks : List Look) :
    StepsMeet (fun m l => observed m l.observation) (fun m l => m.MovesToEntry l.observation) m
      looks := by
  induction looks generalizing m with
  | nil => exact StepsMeet.nil m
  | cons l looks ih => exact ⟨movesToEntry m l.observation, ih _⟩

theorem noWider_entry_iff {stop : ℚ} (hstop : m.stopPrice = some stop) (hloses : m.Loses stop) :
    m.NoWider (roundTo 4 m.entry) stop ↔ ¬ m.StopBetween := by
  have hbetween : m.StopBetween ↔
      if m.longSide then roundTo 4 m.entry < stop else stop < roundTo 4 m.entry := by
    constructor
    · intro h
      obtain ⟨stop', hstop', -, hbetween⟩ := h
      cases hstop.symm.trans hstop'
      exact hbetween
    · intro h
      exact ⟨stop, hstop, hloses, h⟩
  rw [hbetween]
  unfold Lifecycle.NoWider Monitored.longSide
  by_cases hlong : 0 ≤ m.quantity
  · simp [hlong]
  · simp [hlong]

theorem narrows_iff [Casing] : m.Narrows o ↔ (m.trails o → ¬ m.StopBetween) := by
  unfold Monitored.Narrows
  rw [stop_observed]
  by_cases htrails : m.trails o
  · obtain ⟨stop, hstop, hloses⟩ := loses_of_trails htrails
    rw [if_pos htrails, hstop, ← noWider_entry_iff hstop hloses]
    simp [htrails]
  · rw [if_neg htrails]
    refine iff_of_true (fun before after hbefore hafter => ?_) (fun h => absurd h htrails)
    cases hbefore.symm.trans hafter
    unfold Lifecycle.NoWider
    split
    · exact le_rfl
    · exact le_rfl

theorem not_between_of_trails [Casing] (h : m.trails o) : ¬ (observed m o).StopBetween := by
  intro hbetween
  obtain ⟨stop, hstop, -, hside⟩ := hbetween
  rw [stop_observed, if_pos h] at hstop
  cases hstop
  rw [((Monitored.SamePlan.refl m).observed o).entry] at hside
  split at hside
  · exact lt_irrefl _ hside
  · exact lt_irrefl _ hside

theorem between_observed [Casing] (h : m.trails o = false) :
    (observed m o).StopBetween ↔ m.StopBetween := by
  have hplan := (Monitored.SamePlan.refl m).observed o
  unfold Monitored.StopBetween
  rw [stop_observed, h, hplan.entry, hplan.longSide]
  simp [hplan.loses]

/-- A run only narrows a stop exactly if none in between is trailed. -/
theorem narrows_run_iff [Casing] (m : Monitored) (looks : List Look) :
    StepsMeet (fun m l => observed m l.observation) (fun m l => m.Narrows l.observation) m looks ↔
      (m.StopBetween →
        StepsMeet (fun m l => observed m l.observation) (fun m l => m.trails l.observation = false) m
          looks) := by
  induction looks generalizing m with
  | nil => simp
  | cons l looks ih =>
    rw [StepsMeet.cons_iff, StepsMeet.cons_iff, ih, narrows_iff]
    by_cases hbetween : m.StopBetween
    · cases htrails : m.trails l.observation with
      | true => simp [hbetween]
      | false => simp [hbetween, (between_observed htrails).mpr hbetween]
    · cases htrails : m.trails l.observation with
      | true => simp [hbetween, not_between_of_trails htrails]
      | false => simp [hbetween, mt (between_observed htrails).mp hbetween]

end Stop

/-! ## Any sequence of marks -/

section AnySequence

variable {m : Monitored} {target : ℚ}

theorem lock_of_wins [Casing] (hentry : 0 < m.entry) (htarget : m.takeProfitPrice = some target)
    (hwins : m.Wins target) : m.lock = some (m.halfway target) := by
  have hside : decide (m.entry < target) = m.longSide := by
    unfold Monitored.Wins at hwins
    cases hlong : m.longSide with
    | true => simpa [hlong] using hwins
    | false =>
      rw [hlong] at hwins
      simpa using (show target < m.entry from hwins).le
  simp [Monitored.lock, lockLevel, hentry, not_le.mpr hentry, htarget, hside, Monitored.halfway]

theorem mark_of_look {l : Look} {x : ℚ} (hgiven : l.given = some (.fin x))
    (hsane : isSaneEquityPrice x) : m.mark l.observation = some x := by
  simp [Monitored.mark, Look.observation, hgiven, finiteOrZero, usableMark, hsane, Option.filter_some]

theorem closes_run [Casing] (cfg : MonitorSettings) (hopen : m.quantity ≠ 0) (hentry : 0 < m.entry)
    (htarget : m.takeProfitPrice = some target) (hwins : m.Wins target) (done mid : List Look)
    {l l' : Look} {x y : ℚ} (hx : l.given = some (.fin x)) (hxsane : isSaneEquityPrice x)
    (hreach : m.reaches x (m.halfway target)) (hy : l'.given = some (.fin y))
    (hysane : isSaneEquityPrice y) (hloses : m.Loses y) (stopTriggered : Bool) :
    protectiveExitReason
      (PositionMonitor.evaluate cfg (watch m (done ++ l :: mid)) l'.observation).reasons
      stopTriggered ≠ none := by
  -- the level is remembered from the mark on
  have hreached : (observed (watch m done) l.observation).Remembers (m.halfway target) := by
    have hprice : (watch m done).price l.observation = x := by
      rw [Monitored.price, mark_of_look hx hxsane]
      rfl
    apply remembers_of_reached
    · rw [hprice]
      exact Floats.pos_of_sane hxsane
    · rw [hprice, (samePlan_watch m done).reaches]
      exact hreach
  have hremembers : (watch m (done ++ l :: mid)).Remembers (m.halfway target) := by
    rw [watch, runFrom_append, runFrom_cons]
    exact remembers_watch mid hreached
  have hplan := samePlan_watch m (done ++ l :: mid)
  exact protective_of_remembered cfg (hplan.quantity.symm ▸ hopen) (hplan.entry.symm ▸ hentry)
    (hplan.lock.trans (lock_of_wins hentry htarget hwins)) hremembers (mark_of_look hy hysane) hysane
    ((hplan.loses y).mpr hloses) stopTriggered

/-- **A gain is held in a sequence of marks exactly if it does not trail a stop that lies between the
    rounded entry and the entry.** -/
theorem gainsHeld_iff [Casing] (cfg : MonitorSettings) (looks : List Look) (hopen : m.quantity ≠ 0)
    (hentry : 0 < m.entry) (htarget : m.takeProfitPrice = some target) (hwins : m.Wins target) :
    GainsHeld cfg m target looks ↔
      (m.StopBetween →
        StepsMeet (fun m l => observed m l.observation) (fun m l => m.trails l.observation = false) m
          looks) := by
  rw [← narrows_run_iff]
  constructor
  · intro h
    exact h.narrows
  · intro hnarrows
    refine ⟨?_, hnarrows, moves_run m looks⟩
    intro done l mid l' rest _ x y hx hxsane hreach hy hysane hloses
    exact closes_run cfg hopen hentry htarget hwins done mid hx hxsane hreach hy hysane hloses

end AnySequence

end Watching

section Sample

attribute [local instance] asciiCasing

private def boughtAboveTen (stop : ℚ) : Monitored :=
  { bareBhp 100 with
    averageEntryPrice := some (1000004 / 100000), currentPrice := some 10, stopPrice := some stop
    takeProfitPrice := some 11 }

private def upAndDown : List Look :=
  [⟨some (.fin (106 / 10)), markedAtSixty⟩, ⟨some .nan, markedAtSixty⟩,
    ⟨some (.fin (99 / 10)), markedAtSixty⟩]

/-- With its stop at 9.50 the gain is held. -/
theorem gainsHeld_bhp : GainsHeld mockMonitorSettings (boughtAboveTen (95 / 10)) 11 upAndDown := by
  have hbetween : ¬ (boughtAboveTen (95 / 10)).StopBetween := by
    intro h
    obtain ⟨stop, hstop, -, hside⟩ := h
    cases hstop
    revert hside
    decide +kernel
  exact (gainsHeld_iff mockMonitorSettings upAndDown (by decide) (by decide +kernel) rfl
    (show Monitored.Wins _ _ by unfold Monitored.Wins; decide +kernel)).mpr fun h => absurd h hbetween

/-- **The trail lowers a long's stop**: it lies at 10.00002, below the entry, and is moved to 10. -/
theorem trail_widens :
    (boughtAboveTen (1000002 / 100000)).stopPrice = some (1000002 / 100000) ∧
      (watch (boughtAboveTen (1000002 / 100000)) upAndDown).stopPrice = some 10 ∧
      ¬ GainsHeld mockMonitorSettings (boughtAboveTen (1000002 / 100000)) 11 upAndDown := by
  refine ⟨rfl, by decide +kernel, fun h => ?_⟩
  have hnarrow := h.narrows.1 (1000002 / 100000) 10 rfl (by decide +kernel)
  revert hnarrow
  unfold Lifecycle.NoWider
  decide +kernel

end Sample

end Investor.Intraday
