import Investor.Intraday.Monitor

/-!
# Stops that are proposed

`update_exit_policy` hands a proposed stop to `adjust_stop`, which lets it through if it tightens
the stop, and blocks it if it widens it, each under a setting. `adjust_stop` has a branch for
shorts, but its only caller never asks for it: a short's stop is adjusted as a long's, so that
what is let through moves it away from the price. The branch for shorts also lacks the last case of
the branch for longs, a widening that is allowed.
-/

namespace Investor.Intraday

open Lib Market Execution

/-- `side` of `adjust_stop`. -/
inductive PositionSide
  | long | short
  deriving DecidableEq

/-- `adjust_stop`. -/
def adjustStop (cfg : MonitorSettings) (side : PositionSide) (current proposed : ℚ) : ℚ :=
  match side with
  | .long =>
    if proposed < current ∧ ¬ cfg.allowStopWidening then current
    else if current < proposed ∧ cfg.allowStopTightening then proposed
    else if proposed < current ∧ cfg.allowStopWidening then proposed
    else current
  | .short =>
    if current < proposed ∧ ¬ cfg.allowStopWidening then current
    else if proposed < current ∧ cfg.allowStopTightening then proposed
    else current

/-- `update_exit_policy`, of a stop; the side is left at its default. -/
def updateExitPolicy (cfg : MonitorSettings) (stop : Option ℚ) (r : Lifecycle) : Lifecycle :=
  match stop with
  | none => r
  | some proposed =>
    match r.stopPrice with
    | some current => { r with stopPrice := some (adjustStop cfg .long current proposed) }
    | none => { r with stopPrice := some proposed }

/-! ## One proposal -/

section OneProposal

variable {cfg : MonitorSettings} {r : Lifecycle} {c p : ℚ}

theorem adjustStop_long (hwide : cfg.allowStopWidening = false) :
    adjustStop cfg .long c p = if cfg.allowStopTightening then max c p else c := by
  unfold adjustStop
  rcases lt_trichotomy p c with h | rfl | h
  · simp [hwide, h, max_eq_left h.le]
  · simp
  · simp [hwide, h, not_lt.mpr h.le, max_eq_right h.le]

theorem adjustStop_mirror_iff :
    adjustStop cfg .short c p = -adjustStop cfg .long (-c) (-p) ↔
      ¬ (cfg.allowStopWidening ∧ c < p) := by
  unfold adjustStop
  rcases lt_trichotomy p c with h | rfl | h
  · by_cases ht : cfg.allowStopTightening <;> simp [h, ht, not_lt.mpr h.le]
  · simp
  · by_cases hw : cfg.allowStopWidening
    · simp [h, hw, not_lt.mpr h.le, h.ne]
    · simp [h, hw]

theorem stopPrice_update (h : r.stopPrice = some c) :
    (updateExitPolicy cfg (some p) r).stopPrice = some (adjustStop cfg .long c p) := by
  simp [updateExitPolicy, h]

end OneProposal

/-! ## Sequences of proposals -/

def afterProposals (cfg : MonitorSettings) (r : Lifecycle) (ps : List ℚ) : Lifecycle :=
  runFrom (fun r p => updateExitPolicy cfg (some p) r) r ps

/-- One stop is no wider than another, for the side of the position. -/
def Lifecycle.NoWider (r : Lifecycle) (stop current : ℚ) : Prop :=
  if 0 ≤ r.quantity then current ≤ stop else stop ≤ current

def Lifecycle.tightest (r : Lifecycle) (current : ℚ) (ps : List ℚ) : ℚ :=
  if 0 ≤ r.quantity then ps.foldl max current else ps.foldl min current

/-- What is asked of a sequence of proposals where no widening is allowed: no proposal widens the
    stop, and where tightening is allowed it ends at the tightest. -/
structure OnlyTightens (cfg : MonitorSettings) (r : Lifecycle) (c : ℚ) (ps : List ℚ) : Prop where
  never_wider : ∀ done p rest, ps = done ++ p :: rest →
    ∀ before after, (afterProposals cfg r done).stopPrice = some before →
      (afterProposals cfg r (done ++ [p])).stopPrice = some after → r.NoWider after before
  tightest : cfg.allowStopTightening → (afterProposals cfg r ps).stopPrice = some (r.tightest c ps)

section Sequences

variable {cfg : MonitorSettings} {r : Lifecycle} {c : ℚ} {ps : List ℚ}

theorem stop_afterProposals (hwide : cfg.allowStopWidening = false) (hstop : r.stopPrice = some c) :
    (afterProposals cfg r ps).stopPrice =
      some (if cfg.allowStopTightening then ps.foldl max c else c) := by
  induction ps generalizing r c with
  | nil => simp [afterProposals, hstop]
  | cons p ps ih =>
    have hnext := @stopPrice_update cfg r c p hstop
    rw [adjustStop_long hwide] at hnext
    have hrest := ih hnext
    by_cases ht : cfg.allowStopTightening
    · simpa [afterProposals, ht] using hrest
    · simpa [afterProposals, ht] using hrest

theorem le_foldl_max_start (ps : List ℚ) (c : ℚ) : c ≤ ps.foldl max c := by
  induction ps generalizing c with
  | nil => exact le_rfl
  | cons p ps ih => exact (le_max_left c p).trans (ih _)

theorem foldl_min_le_start (ps : List ℚ) (c : ℚ) : ps.foldl min c ≤ c := by
  induction ps generalizing c with
  | nil => exact le_rfl
  | cons p ps ih => exact (ih _).trans (min_le_left c p)

theorem foldl_max_eq_foldl_min_iff :
    ps.foldl max c = ps.foldl min c ↔ ∀ p ∈ ps, p = c := by
  induction ps generalizing c with
  | nil => simp
  | cons p ps ih =>
    rw [List.foldl_cons, List.foldl_cons, List.forall_mem_cons]
    constructor
    · intro h
      have hup := le_foldl_max_start ps (max c p)
      have hdown := foldl_min_le_start ps (min c p)
      have hle : max c p ≤ min c p := hup.trans (h.trans_le hdown)
      have hpc : p = c := le_antisymm
        ((le_max_right c p).trans (hle.trans (min_le_left c p)))
        ((le_max_left c p).trans (hle.trans (min_le_right c p)))
      subst hpc
      rw [max_self, min_self] at h
      exact ⟨rfl, ih.mp h⟩
    · rintro ⟨rfl, hps⟩
      rw [max_self, min_self]
      exact ih.mpr hps

theorem never_wider_of (hwide : cfg.allowStopWidening = false) (hstop : r.stopPrice = some c)
    (h : 0 ≤ r.quantity ∨ cfg.allowStopTightening = false) {done : List ℚ} {p before after : ℚ}
    (hbefore : (afterProposals cfg r done).stopPrice = some before)
    (hafter : (afterProposals cfg r (done ++ [p])).stopPrice = some after) :
    r.NoWider after before := by
  rw [stop_afterProposals hwide hstop] at hbefore hafter
  cases hbefore
  cases hafter
  unfold Lifecycle.NoWider
  rw [List.foldl_append, List.foldl_cons, List.foldl_nil]
  rcases h with hlong | htight
  · rw [if_pos hlong]
    split
    · exact le_max_left _ _
    · exact le_rfl
  · rw [htight]
    split <;> exact le_rfl

/-- Only a long's stop is tightened: a short's has to stay where it is. -/
theorem onlyTightens_iff (hwide : cfg.allowStopWidening = false) (hstop : r.stopPrice = some c) :
    OnlyTightens cfg r c ps ↔
      0 ≤ r.quantity ∨ cfg.allowStopTightening = false ∨ ∀ p ∈ ps, p = c := by
  constructor
  · intro h
    by_contra hnot
    push Not at hnot
    obtain ⟨hshort, htight, hne⟩ := hnot
    have htight : cfg.allowStopTightening = true := Bool.eq_true_of_not_eq_false htight
    have hend := h.tightest htight
    rw [stop_afterProposals hwide hstop, if_pos htight, Lifecycle.tightest,
      if_neg (not_le.mpr hshort)] at hend
    obtain ⟨p, hp, hpc⟩ := hne
    exact hpc (foldl_max_eq_foldl_min_iff.mp (Option.some.inj hend) p hp)
  · rintro (hlong | htight | hsame)
    · refine ⟨fun done p rest _ before after => never_wider_of hwide hstop (.inl hlong), ?_⟩
      intro htight
      rw [stop_afterProposals hwide hstop, if_pos htight, Lifecycle.tightest, if_pos hlong]
    · refine ⟨fun done p rest _ before after => never_wider_of hwide hstop (.inr htight), ?_⟩
      intro htight'
      rw [htight] at htight'
      cases htight'
    · have hflat : ∀ done : List ℚ, (∀ p ∈ done, p = c) → done.foldl max c = c := by
        intro done hdone
        have heq := foldl_max_eq_foldl_min_iff.mpr hdone
        exact le_antisymm (heq.trans_le (foldl_min_le_start done c)) (le_foldl_max_start done c)
      have hstay : ∀ done : List ℚ, (∀ p ∈ done, p = c) →
          (afterProposals cfg r done).stopPrice = some c := by
        intro done hdone
        rw [stop_afterProposals hwide hstop, hflat done hdone, ite_self]
      refine ⟨?_, ?_⟩
      · rintro done p rest rfl before after hbefore hafter
        rw [hstay done fun q hq => hsame q (List.mem_append_left _ hq)] at hbefore
        rw [hstay (done ++ [p]) fun q hq => hsame q (by
          rw [List.append_cons]
          exact List.mem_append_left _ hq)] at hafter
        cases hbefore
        cases hafter
        unfold Lifecycle.NoWider
        split <;> exact le_rfl
      · intro _
        rw [hstay ps hsame, Lifecycle.tightest, ← foldl_max_eq_foldl_min_iff.mpr hsame, ite_self,
          hflat ps hsame]

end Sequences

/-- **When proposals do what the settings say**, for a lifecycle with a stop, and when the two
    branches of `adjust_stop` mirror each other. -/
theorem proposals_iff (cfg : MonitorSettings) (r : Lifecycle) (c : ℚ) (ps : List ℚ) (stop proposed : ℚ)
    (hstop : r.stopPrice = some c) :
    ((cfg.allowStopWidening = false → OnlyTightens cfg r c ps) ∧
        adjustStop cfg .short stop proposed = -adjustStop cfg .long (-stop) (-proposed)) ↔
      (cfg.allowStopWidening = false →
        0 ≤ r.quantity ∨ cfg.allowStopTightening = false ∨ ∀ p ∈ ps, p = c) ∧
      ¬ (cfg.allowStopWidening ∧ stop < proposed) := by
  rw [adjustStop_mirror_iff]
  refine and_congr_left fun _ => forall_congr' fun hwide => ?_
  exact onlyTightens_iff hwide hstop

/-! ## A short whose stop is raised -/

section Sample

def shortBhp : Lifecycle :=
  { id := 1, symbol := "BHP", status := .open, quantity := -100, averageEntryPrice := some 60
    currentPrice := some 60, venue := "AU", currency := none, conId := none, stopPrice := some 62
    protectionSubmitted := false }

/-- A stop of 65 is let through, a wider one for a short; and where widening is allowed, the short
    branch blocks what the mirrored long branch lets through. -/
theorem short_stop_widened :
    ¬ (∀ (cfg : MonitorSettings) (r : Lifecycle) (c : ℚ) (ps : List ℚ), r.stopPrice = some c →
        cfg.allowStopWidening = false → OnlyTightens cfg r c ps) ∧
      ¬ (∀ (cfg : MonitorSettings) (c p : ℚ),
        adjustStop cfg .short c p = -adjustStop cfg .long (-c) (-p)) := by
  constructor
  · intro h
    have hrun := (h mockMonitorSettings shortBhp 62 [65] rfl rfl).never_wider [] 65 [] rfl 62 65 rfl
      (by decide +kernel)
    revert hrun
    unfold Lifecycle.NoWider shortBhp
    norm_num
  · intro h
    have hmirror := h { mockMonitorSettings with allowStopWidening := true } 62 65
    revert hmirror
    unfold adjustStop
    norm_num [mockMonitorSettings]

/-- A long's stop follows the proposals up. -/
theorem proposals_iff_long :
    (mockMonitorSettings.allowStopWidening = false →
      OnlyTightens mockMonitorSettings { shortBhp with quantity := 100 } 62 [61, 65, 63]) ∧
    adjustStop mockMonitorSettings .short 62 61 = -adjustStop mockMonitorSettings .long (-62) (-61) :=
  (proposals_iff mockMonitorSettings { shortBhp with quantity := 100 } 62 [61, 65, 63] 62 61 rfl).mpr
    ⟨fun _ => .inl (by norm_num), by simp [mockMonitorSettings]⟩

end Sample

end Investor.Intraday
