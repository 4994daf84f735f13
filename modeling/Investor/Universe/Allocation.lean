import Investor.Market.Venues
import Mathlib.Tactic.Ring
import Mathlib.Tactic.FieldSimp
import Mathlib.Tactic.GCongr

/-!
# Standing capital sleeves

Each book trades inside its own share of equity (`allocation.py`). A new name takes what
is left of its book's band, capped by the position limit, and rounded to two places.
-/

namespace Investor.Universe

open Lib Market

/-- `round(q, places)`: ties to even. -/
def roundTo (places : ℕ) (q : ℚ) : ℚ := roundHalfEven (q * 10 ^ places) / 10 ^ places

theorem abs_roundTo_sub_le (places : ℕ) (q : ℚ) :
    |roundTo places q - q| ≤ 1 / 2 / 10 ^ places := by
  have hpow : (0 : ℚ) < 10 ^ places := by positivity
  have hround := abs_roundHalfEven_sub_le (q * 10 ^ places)
  have heq : roundTo places q - q =
      ((roundHalfEven (q * 10 ^ places) : ℚ) - q * 10 ^ places) / 10 ^ places := by
    unfold roundTo
    field_simp
  rw [heq, abs_div, abs_of_pos hpow]
  gcongr

variable {p q : ℚ}

theorem roundTo_mono (places : ℕ) (h : p ≤ q) : roundTo places p ≤ roundTo places q := by
  have hscaled : p * 10 ^ places ≤ q * 10 ^ places :=
    mul_le_mul_of_nonneg_right h (by positivity)
  exact div_le_div_of_nonneg_right (by exact_mod_cast roundHalfEven_mono hscaled) (by positivity)

theorem roundTo_nonneg (places : ℕ) (h : 0 ≤ q) : 0 ≤ roundTo places q := by
  have hscaled : 0 ≤ q * 10 ^ places := by positivity
  exact div_nonneg (by exact_mod_cast roundHalfEven_nonneg hscaled) (by positivity)

def OnGrid (places : ℕ) (q : ℚ) : Prop := ∃ z : ℤ, q * 10 ^ places = z

theorem onGrid_zero (places : ℕ) : OnGrid places 0 := ⟨0, by simp⟩

variable {places : ℕ}

theorem OnGrid.add (hp : OnGrid places p) (hq : OnGrid places q) : OnGrid places (p + q) := by
  obtain ⟨z, hz⟩ := hp
  obtain ⟨w, hw⟩ := hq
  exact ⟨z + w, by rw [add_mul, hz, hw]; push_cast; rfl⟩

theorem OnGrid.sub (hp : OnGrid places p) (hq : OnGrid places q) : OnGrid places (p - q) := by
  obtain ⟨z, hz⟩ := hp
  obtain ⟨w, hw⟩ := hq
  exact ⟨z - w, by rw [sub_mul, hz, hw]; push_cast; rfl⟩

theorem OnGrid.min (hp : OnGrid places p) (hq : OnGrid places q) : OnGrid places (min p q) := by
  rcases min_choice p q with h | h
  · rwa [h]
  · rwa [h]

theorem onGrid_sum {qs : List ℚ} (h : ∀ q ∈ qs, OnGrid places q) : OnGrid places qs.sum := by
  induction qs with
  | nil => exact onGrid_zero places
  | cons q qs ih =>
    rw [List.sum_cons]
    exact (h q List.mem_cons_self).add (ih fun q hq => h q (List.mem_cons_of_mem _ hq))

theorem onGrid_roundTo (places : ℕ) (q : ℚ) : OnGrid places (roundTo places q) := by
  have hpow : (10 : ℚ) ^ places ≠ 0 := by positivity
  exact ⟨roundHalfEven (q * 10 ^ places), by rw [roundTo, div_mul_cancel₀ _ hpow]⟩

theorem roundTo_of_onGrid (h : OnGrid places q) : roundTo places q = q := by
  have hpow : (10 : ℚ) ^ places ≠ 0 := by positivity
  obtain ⟨z, hz⟩ := h
  rw [roundTo, hz, roundHalfEven_intCast, ← hz, mul_div_cancel_right₀ _ hpow]

/-- Rounding to so many places leaves the number below another: it is nearer to the last number of
    so many places before that, or half way and that one is even. -/
def RoundsBelow (places : ℕ) (x y : ℚ) : Prop :=
  x * 10 ^ places < ⌈y * 10 ^ places⌉ - 1 / 2 ∨
    (x * 10 ^ places = ⌈y * 10 ^ places⌉ - 1 / 2 ∧ ⌈y * 10 ^ places⌉ % 2 = 1)

def RoundsAbove (places : ℕ) (x y : ℚ) : Prop :=
  ⌊y * 10 ^ places⌋ + 1 / 2 < x * 10 ^ places ∨
    (x * 10 ^ places = ⌊y * 10 ^ places⌋ + 1 / 2 ∧ ⌊y * 10 ^ places⌋ % 2 = 1)

theorem roundTo_lt_iff {x y : ℚ} : roundTo places x < y ↔ RoundsBelow places x y := by
  have hpow : (0 : ℚ) < 10 ^ places := by positivity
  rw [roundTo, div_lt_iff₀ hpow, ← Int.lt_ceil, roundHalfEven_lt_iff, RoundsBelow]

theorem lt_roundTo_iff {x y : ℚ} : y < roundTo places x ↔ RoundsAbove places x y := by
  have hpow : (0 : ℚ) < 10 ^ places := by positivity
  rw [roundTo, lt_div_iff₀ hpow, ← Int.floor_lt, lt_roundHalfEven_iff, RoundsAbove]

theorem abs_sub_le_of_roundTo_eq (h : roundTo places p = roundTo places q) :
    |p - q| ≤ 1 / 10 ^ places := by
  have hp := abs_le.mp (abs_roundTo_sub_le places p)
  have hq := abs_le.mp (abs_roundTo_sub_le places q)
  rw [h] at hp
  have hhalf : (1 : ℚ) / 2 / 10 ^ places + 1 / 2 / 10 ^ places = 1 / 10 ^ places := by ring
  rw [abs_le]
  constructor <;> linarith [hp.1, hp.2, hq.1, hq.2]

/-- `SLEEVE_TARGET_PCT`. -/
def SLEEVE_TARGET_PCT : Dict ℚ := [("scalp", 20), ("day", 20), ("short", 20), ("medium", 20)]

def SLEEVE_BAND_PCT : ℚ := 5

def STABLE_HOLD_SYMBOLS : List String := ["SPY", "QQQ", "DIA", "VAS", "IOZ", "NDQ"]

def SCALP_SYMBOLS : List String := ["NVDA", "TSLA"]

def DAY_SYMBOLS : List String := ["IWM", "META", "AMZN", "GOOGL"]

/-- `deployable_cash_pct`: the cash above the hard floor. -/
def deployableCashPct (cashPct hardFloorPct : ℚ) : ℚ := max 0 (roundTo 2 (cashPct - hardFloorPct))

section Sleeves

variable [Casing]

def sleeveTarget (horizon : String) : ℚ :=
  (Dict.get? SLEEVE_TARGET_PCT (Casing.lower (strip horizon))).getD 0

def sleeveCeiling (horizon : String) : ℚ :=
  if sleeveTarget horizon ≤ 0 then 0 else roundTo 2 (sleeveTarget horizon + SLEEVE_BAND_PCT)

def sleeveRoom (horizon : String) (usedPct : ℚ) : ℚ :=
  max 0 (roundTo 2 (sleeveCeiling horizon - usedPct))

/-- `assigned_horizon`: the standing book of a symbol, if it has one. -/
def assignedHorizon (symbol : String) : Option String :=
  let sym := strip (Casing.upper symbol)
  if sym ∈ STABLE_HOLD_SYMBOLS then some "medium"
  else if sym ∈ SCALP_SYMBOLS then some "scalp"
  else if sym ∈ DAY_SYMBOLS then some "day"
  else none

/-- `entry_notional_pct`: the size of one new name. -/
def entryNotionalPct (horizon : String) (usedPct maxPositionPct targetSizePct : ℚ) : ℚ :=
  let room := sleeveRoom horizon usedPct
  let cap := min maxPositionPct targetSizePct
  if room ≤ 0 ∨ cap ≤ 0 then 0 else roundTo 2 (min cap room)

end Sleeves

end Investor.Universe
