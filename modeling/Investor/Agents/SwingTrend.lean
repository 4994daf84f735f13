import Investor.Agents.QuantStrategist
import Mathlib.Algebra.Order.Ring.Pow
import Mathlib.Algebra.Order.BigOperators.Group.List

/-!
# A steady rise and the swing trend

`swing_trend` compares the last eight closes with the closes before them, inside a window that
grows with the series. Up to 17 closes the window is the last eight themselves, and nothing is
left to compare with: the series reads sideways however it rose. From 18 closes on every steady
rise of 0.25% to 1% a session is an uptrend (`swingTrend_steady`).
-/

namespace Investor.Agents

open Lib Schema

/-! ## The series -/

/-- So many closes, the first one given, each so many times the one before. -/
def steady (first r : ℚ) (n : ℕ) : List ℚ := (List.range n).map fun i => first * r ^ i

section Series

variable {first r : ℚ} {m n : ℕ}

@[simp] theorem length_steady : (steady first r n).length = n := by simp [steady]

theorem steady_add : steady first r (m + n) = steady first r m ++ steady (first * r ^ m) r n := by
  simp [steady, List.range_add, pow_add, mul_assoc, Function.comp_def]

theorem lastOf_steady (h : n ≤ m) : lastOf n (steady first r m) = steady (first * r ^ (m - n)) r n := by
  obtain ⟨k, rfl⟩ := Nat.exists_eq_add_of_le' h
  unfold lastOf
  rw [length_steady, Nat.add_sub_cancel, steady_add]
  apply List.drop_left'
  simp

theorem take_steady (h : m ≤ n) : (steady first r n).take m = steady first r m := by
  obtain ⟨k, rfl⟩ := Nat.exists_eq_add_of_le h
  rw [steady_add]
  apply List.take_left'
  simp

theorem getLastD_steady : (steady first r (n + 1)).getLastD 0 = first * r ^ n := by
  rw [steady_add]
  simp [steady]

theorem le_of_mem_steady (hfirst : 0 < first) (hr : 1 ≤ r) {x : ℚ}
    (hx : x ∈ steady first r (n + 1)) : x ≤ first * r ^ n := by
  unfold steady at hx
  obtain ⟨i, hi, rfl⟩ := List.mem_map.mp hx
  rw [List.mem_range] at hi
  apply mul_le_mul_of_nonneg_left _ hfirst.le
  exact pow_le_pow_right₀ hr (by omega)

theorem sum_steady_le (hfirst : 0 < first) (hr : 1 ≤ r) :
    (steady first r (n + 1)).sum ≤ (n + 1) * (first * r ^ n) := by
  have hsum := List.sum_le_card_nsmul (steady first r (n + 1)) (first * r ^ n)
    fun _ hx => le_of_mem_steady hfirst hr hx
  simpa using hsum

theorem sum_steady_pos (hfirst : 0 < first) (hr : 1 ≤ r) : 0 < (steady first r (n + 1)).sum := by
  apply List.sum_pos
  · intro x hx
    unfold steady at hx
    obtain ⟨i, _, rfl⟩ := List.mem_map.mp hx
    have hpow : 0 < r ^ i := by positivity
    exact mul_pos hfirst hpow
  · simp [steady]

theorem average_steady_pos (hfirst : 0 < first) (hr : 1 ≤ r) :
    0 < average (steady first r (n + 1)) := by
  unfold average
  rw [length_steady]
  exact div_pos (sum_steady_pos hfirst hr) (by positivity)

theorem average_steady_le (hfirst : 0 < first) (hr : 1 ≤ r) :
    average (steady first r (n + 1)) ≤ first * r ^ n := by
  unfold average
  rw [length_steady, div_le_iff₀ (by positivity), mul_comm]
  simpa using sum_steady_le hfirst hr

end Series

/-! ## The last eight closes -/

section Eight

variable {p r : ℚ}

theorem sum_eight : (steady p r 8).sum =
    p * (1 + r + r ^ 2 + r ^ 3 + r ^ 4 + r ^ 5 + r ^ 6 + r ^ 7) := by
  simp [steady, List.range_succ]
  ring

theorem eight_above (hp : 0 < p) (hr : 401 / 400 ≤ r) :
    p * (101 / 100) ≤ average (steady (p * r) r 8) := by
  have hbound : ∀ k : ℕ, 1 + k * (1 / 400) ≤ r ^ k := by
    intro k
    calc 1 + (k : ℚ) * (1 / 400) ≤ (1 + 1 / 400) ^ k := one_add_mul_le_pow (by norm_num) k
      _ ≤ r ^ k := pow_le_pow_left₀ (by norm_num) (by linarith) k
  have h1 := hbound 1
  have h2 := hbound 2
  have h3 := hbound 3
  have h4 := hbound 4
  have h5 := hbound 5
  have h6 := hbound 6
  have h7 := hbound 7
  have h8 := hbound 8
  push_cast at h1 h2 h3 h4 h5 h6 h7 h8
  have hsum : (8 : ℚ) * (101 / 100) ≤
      r * (1 + r + r ^ 2 + r ^ 3 + r ^ 4 + r ^ 5 + r ^ 6 + r ^ 7) := by
    ring_nf at h1 h2 h3 h4 h5 h6 h7 h8 ⊢
    linarith
  unfold average
  rw [length_steady, sum_eight, le_div_iff₀ (by norm_num)]
  calc p * (101 / 100) * (8 : ℕ) = p * (8 * (101 / 100)) := by push_cast; ring
    _ ≤ p * (r * (1 + r + r ^ 2 + r ^ 3 + r ^ 4 + r ^ 5 + r ^ 6 + r ^ 7)) :=
      mul_le_mul_of_nonneg_left hsum hp.le
    _ = p * r * (1 + r + r ^ 2 + r ^ 3 + r ^ 4 + r ^ 5 + r ^ 6 + r ^ 7) := by ring

theorem eight_not_extended (hp : 0 < p) (hr : 1 ≤ r) (hhigh : r ≤ 101 / 100) :
    p * r ^ 7 ≤ average (steady p r 8) * (106 / 100) := by
  -- j closes before the last one, a close is at least j percent less
  have hbound : ∀ j : ℕ, r ^ j * (1 - j * (1 / 100)) ≤ 1 := by
    intro j
    have hbernoulli : 1 + (j : ℚ) * (-(1 / 100)) ≤ (1 + -(1 / 100)) ^ j :=
      one_add_mul_le_pow (by norm_num) j
    calc r ^ j * (1 - j * (1 / 100)) ≤ r ^ j * (1 + -(1 / 100)) ^ j :=
          mul_le_mul_of_nonneg_left (by linarith) (by positivity)
      _ = (r * (1 + -(1 / 100))) ^ j := (mul_pow _ _ _).symm
      _ ≤ 1 := pow_le_one₀ (by linarith) (by linarith)
  have hback : ∀ i j : ℕ, i + j = 7 → r ^ 7 * (1 - j * (1 / 100)) ≤ r ^ i := by
    intro i j hij
    calc r ^ 7 * (1 - j * (1 / 100)) = r ^ i * (r ^ j * (1 - j * (1 / 100))) := by
          rw [← hij, pow_add, mul_assoc]
      _ ≤ r ^ i * 1 := mul_le_mul_of_nonneg_left (hbound j) (by positivity)
      _ = r ^ i := mul_one _
  have h0 := hback 0 7 rfl
  have h1 := hback 1 6 rfl
  have h2 := hback 2 5 rfl
  have h3 := hback 3 4 rfl
  have h4 := hback 4 3 rfl
  have h5 := hback 5 2 rfl
  have h6 := hback 6 1 rfl
  push_cast at h0 h1 h2 h3 h4 h5 h6
  have hlast : 0 < r ^ 7 := by positivity
  have hsum : r ^ 7 * 8 ≤
      (1 + r + r ^ 2 + r ^ 3 + r ^ 4 + r ^ 5 + r ^ 6 + r ^ 7) * (106 / 100) := by
    linarith
  unfold average
  rw [length_steady, sum_eight, div_mul_eq_mul_div, le_div_iff₀ (by norm_num)]
  calc p * r ^ 7 * (8 : ℕ) = p * (r ^ 7 * 8) := by push_cast; ring
    _ ≤ p * ((1 + r + r ^ 2 + r ^ 3 + r ^ 4 + r ^ 5 + r ^ 6 + r ^ 7) * (106 / 100)) :=
      mul_le_mul_of_nonneg_left hsum hp.le
    _ = p * (1 + r + r ^ 2 + r ^ 3 + r ^ 4 + r ^ 5 + r ^ 6 + r ^ 7) * (106 / 100) := by ring

end Eight

/-! ## The trend -/

section Trend

variable {first r : ℚ} {n : ℕ}

theorem sma_steady {k : ℕ} (h : k + 1 ≤ n) :
    sma (steady first r n) (k + 1) = some (average (lastOf (k + 1) (steady first r n))) := by
  unfold sma
  rw [length_steady, if_neg (by omega)]

theorem average_window_le {q : ℚ} {k : ℕ} (hq : 0 < q) (hr : 1 ≤ r)
    (habove : q * r ^ k ≤ average (steady (q * r ^ k * r) r 8)) :
    average (steady q r (k + 1 + 8)) ≤ average (steady (q * r ^ k * r) r 8) := by
  have hsplit : (steady q r (k + 1 + 8)).sum =
      (steady q r (k + 1)).sum + (steady (q * r ^ k * r) r 8).sum := by
    rw [steady_add, List.sum_append, pow_succ, mul_assoc]
  have height : (steady (q * r ^ k * r) r 8).sum = 8 * average (steady (q * r ^ k * r) r 8) := by
    unfold average
    rw [length_steady]
    push_cast
    ring
  have hprior := sum_steady_le (n := k) hq hr
  have hmul := mul_le_mul_of_nonneg_left habove (by positivity : (0 : ℚ) ≤ k + 1)
  have hunfold : average (steady q r (k + 1 + 8)) =
      (steady q r (k + 1 + 8)).sum / ((k + 1 + 8 : ℕ) : ℚ) := by
    unfold average
    rw [length_steady]
  rw [hunfold, div_le_iff₀ (by positivity), hsplit, height]
  push_cast
  linarith

theorem swingTrend_short (h : n < 18) : swingTrend (steady first r n) = .sideways := by
  unfold swingTrend
  simp only [length_steady]
  split
  · rfl
  · have hslow : (if 20 ≤ n then 20 else max 8 (n / 2)) = 8 := by
      rw [if_neg (by omega)]
      omega
    rw [hslow]
    split
    · simp
    · rfl

theorem swingTrend_long (hfirst : 0 < first) (hlow : 401 / 400 ≤ r) (hhigh : r ≤ 101 / 100)
    (h : 18 ≤ n) : swingTrend (steady first r n) = .up := by
  have hr : 1 ≤ r := by linarith
  -- the slow window is longer than the last eight closes
  obtain ⟨k, hk, hwindow⟩ : ∃ k, (if 20 ≤ n then 20 else max 8 (n / 2)) = k + 1 + 8 ∧
      k + 1 + 8 ≤ n := by
    refine ⟨(if 20 ≤ n then 20 else max 8 (n / 2)) - 9, ?_, ?_⟩
    · split <;> omega
    · split <;> omega
  obtain ⟨m, rfl⟩ := Nat.exists_eq_add_of_le' hwindow
  have hstart : 0 < first * r ^ m := by positivity
  have hslow : lastOf (k + 1 + 8) (steady first r (m + (k + 1 + 8))) =
      steady (first * r ^ m) r (k + 1 + 8) := by
    rw [lastOf_steady hwindow, Nat.add_sub_cancel]
  have hfast : lastOf 8 (steady first r (m + (k + 1 + 8))) =
      steady (first * r ^ m * r ^ k * r) r 8 := by
    rw [lastOf_steady (by omega)]
    congr 1
    have hexp : m + (k + 1 + 8) - 8 = m + k + 1 := by omega
    rw [hexp]
    ring
  have hlast : (steady first r (m + (k + 1 + 8))).getLastD 0 =
      first * r ^ m * r ^ k * r * r ^ 7 := by
    have hlength : m + (k + 1 + 8) = m + k + 8 + 1 := by omega
    rw [hlength, getLastD_steady]
    ring
  set q := first * r ^ m with hq
  have hbefore : 0 < q * r ^ k := by positivity
  have height : 0 < q * r ^ k * r := by positivity
  have hprior : average (steady q r (k + 1)) ≤ q * r ^ k := average_steady_le hstart hr
  have hpriorPos : 0 < average (steady q r (k + 1)) := average_steady_pos hstart hr
  have habove := eight_above hbefore hlow
  have hextended := eight_not_extended height hr hhigh
  have hholding : average (steady (q * r ^ k * r) r 8) ≤ q * r ^ k * r * r ^ 7 :=
    average_steady_le height hr
  have hfastPos : 0 < average (steady (q * r ^ k * r) r 8) := average_steady_pos height hr
  have hslowPos : 0 < average (steady q r (k + 1 + 8)) := average_steady_pos hstart hr
  have hrising : average (steady q r (k + 1 + 8)) ≤ average (steady (q * r ^ k * r) r 8) :=
    average_window_le hstart hr (by linarith)
  have hdrift : 1 / 100 ≤
      average (steady (q * r ^ k * r) r 8) / average (steady q r (k + 1)) - 1 := by
    rw [le_sub_iff_add_le, le_div_iff₀ hpriorPos]
    linarith
  unfold swingTrend
  simp only [length_steady, hk, hslow, hfast, hlast]
  rw [if_neg (by omega), Nat.add_sub_cancel, take_steady (by omega), sma_steady (by omega),
    sma_steady hwindow, hfast, hslow]
  dsimp only
  have hsome : ∀ {p : ℚ} {j : ℕ}, steady p r (j + 1) ≠ [] := by
    intro p j
    simp [steady]
  rw [if_neg, if_pos]
  · exact ⟨⟨hdrift, by linarith⟩, by linarith, hextended⟩
  · simp only [not_or, not_le]
    exact ⟨hslowPos, hfastPos, hsome, hsome, hpriorPos⟩

/-- For a steady rise of a quarter of a percent to a percent a session the trend is up exactly from 18
    closes on. -/
theorem swingTrend_steady (first r : ℚ) (n : ℕ) (hfirst : 0 < first) (hlow : 1 + 25 / 10000 ≤ r)
    (hhigh : r ≤ 1 + 1 / 100) : swingTrend (steady first r n) = .up ↔ 18 ≤ n := by
  constructor
  · intro hup
    by_contra hshort
    rw [swingTrend_short (not_le.mp hshort)] at hup
    cases hup
  · intro hn
    exact swingTrend_long hfirst (by linarith) (by linarith) hn

theorem twenty_sessions_up : swingTrend (steady 100 (1005 / 1000) 20) = .up ↔ 18 ≤ 20 :=
  swingTrend_steady 100 (1005 / 1000) 20 (by norm_num) (by norm_num) (by norm_num)

/-- Twelve sessions of half a percent each read sideways. -/
theorem twelve_sessions_sideways :
    ¬ ∀ (first r : ℚ) (n : ℕ), 0 < first → 1 + 25 / 10000 ≤ r → r ≤ 1 + 1 / 100 → 9 ≤ n →
      swingTrend (steady first r n) = .up := by
  intro h
  have hup := h 100 (1005 / 1000) 12 (by norm_num) (by norm_num) (by norm_num) (by norm_num)
  rw [swingTrend_short (by norm_num)] at hup
  cases hup

end Trend

end Investor.Agents
