import Mathlib.Data.Int.Log
import Mathlib.Data.Rat.Floor
import Mathlib.Tactic.Linarith
import Mathlib.Tactic.Positivity

/-!
# Rounding

To the nearest integer (`roundHalfEven`), and to the nearest double (`toDouble`): the number is
rounded on the grid of its own binade, which has 53 digits. Exponents are not bounded, so nothing
overflows or is subnormal here.

A program in floating point is written once, over a `Rounding` that every operation passes its
result through. With `Rounding.double` it is the program, with `Rounding.exact` what it would be
without rounding; what is proved uses only that a rounding keeps the order and the sign and is off
by no more than a `unit` of the number.
-/

namespace Investor.Lib

/-! ## To an integer -/

/-- The nearest integer, ties to even: what `f"{q:.0f}"` prints. -/
def roundHalfEven (q : ℚ) : Int :=
  let below := ⌊q⌋
  if q - below < 1 / 2 then below
  else if 1 / 2 < q - below then below + 1
  else if below % 2 = 0 then below else below + 1

theorem floor_le_roundHalfEven (q : ℚ) : ⌊q⌋ ≤ roundHalfEven q := by
  unfold roundHalfEven
  simp only
  split_ifs <;> omega

theorem roundHalfEven_le_floor_succ (q : ℚ) : roundHalfEven q ≤ ⌊q⌋ + 1 := by
  unfold roundHalfEven
  simp only
  split_ifs <;> omega

theorem roundHalfEven_mono {p q : ℚ} (h : p ≤ q) : roundHalfEven p ≤ roundHalfEven q := by
  rcases (Int.floor_le_floor h).lt_or_eq with hbelow | hsame
  · exact (roundHalfEven_le_floor_succ p).trans ((Int.add_one_le_of_lt hbelow).trans
      (floor_le_roundHalfEven q))
  · -- between the same integers the larger one is the further on
    unfold roundHalfEven
    simp only [hsame]
    have hfrac : p - ⌊q⌋ ≤ q - ⌊q⌋ := sub_le_sub_right h _
    split_ifs <;> first | omega | (exfalso; linarith)

theorem roundHalfEven_nonneg {q : ℚ} (h : 0 ≤ q) : 0 ≤ roundHalfEven q :=
  (Int.floor_nonneg.mpr h).trans (floor_le_roundHalfEven q)

@[simp] theorem roundHalfEven_intCast (z : ℤ) : roundHalfEven z = z := by
  simp [roundHalfEven]

theorem abs_roundHalfEven_sub_le (q : ℚ) : |(roundHalfEven q : ℚ) - q| ≤ 1 / 2 := by
  have hlo : (⌊q⌋ : ℚ) ≤ q := Int.floor_le q
  have hhi : q < ⌊q⌋ + 1 := Int.lt_floor_add_one q
  unfold roundHalfEven
  simp only
  rw [abs_le]
  split_ifs <;> push_cast <;> constructor <;> linarith

theorem roundHalfEven_of_half {q : ℚ} {n : ℤ} (h : q = n - 1 / 2) :
    roundHalfEven q = if n % 2 = 1 then n - 1 else n := by
  have hfloor : ⌊q⌋ = n - 1 := by
    rw [Int.floor_eq_iff, h]
    push_cast
    constructor <;> linarith
  have hfrac : q - ((n - 1 : ℤ) : ℚ) = 1 / 2 := by
    rw [h]
    push_cast
    ring
  unfold roundHalfEven
  rw [hfloor]
  simp only [hfrac, lt_irrefl, if_false]
  split_ifs <;> omega

theorem roundHalfEven_lt_iff {q : ℚ} {n : ℤ} :
    roundHalfEven q < n ↔ q < n - 1 / 2 ∨ (q = n - 1 / 2 ∧ n % 2 = 1) := by
  have hnear := abs_le.mp (abs_roundHalfEven_sub_le q)
  rcases lt_trichotomy q (n - 1 / 2 : ℚ) with h | h | h
  · refine iff_of_true ?_ (.inl h)
    have hcast : (roundHalfEven q : ℚ) < n := by linarith
    exact_mod_cast hcast
  · rw [roundHalfEven_of_half h]
    simp only [h, lt_irrefl, false_or, true_and]
    split_ifs <;> omega
  · refine iff_of_false (fun hlt => ?_) ?_
    · have hcast : (n : ℚ) - 1 < roundHalfEven q := by linarith
      have hint : n - 1 < roundHalfEven q := by exact_mod_cast hcast
      omega
    · rintro (hlt | ⟨heq, -⟩)
      · exact absurd h hlt.not_gt
      · exact absurd heq h.ne'

theorem lt_roundHalfEven_iff {q : ℚ} {n : ℤ} :
    n < roundHalfEven q ↔ (n + 1 / 2 : ℚ) < q ∨ (q = n + 1 / 2 ∧ n % 2 = 1) := by
  have hcast : (((n + 1 : ℤ) : ℚ) - 1 / 2) = n + 1 / 2 := by
    push_cast
    ring
  rw [← Int.add_one_le_iff, ← not_lt, roundHalfEven_lt_iff, hcast, not_or, not_and, not_lt]
  constructor
  · rintro ⟨hle, hodd⟩
    rcases hle.lt_or_eq with hlt | heq
    · exact .inl hlt
    · exact .inr ⟨heq.symm, by have := hodd heq.symm; omega⟩
  · rintro (hlt | ⟨heq, hodd⟩)
    · exact ⟨hlt.le, fun heq => absurd heq hlt.ne'⟩
    · exact ⟨heq.ge, fun _ => by omega⟩

theorem roundHalfEven_neg (q : ℚ) : roundHalfEven (-q) = -roundHalfEven q := by
  refine eq_of_forall_lt_iff fun n => ?_
  rw [lt_neg, lt_roundHalfEven_iff, roundHalfEven_lt_iff, Int.cast_neg]
  refine or_congr ⟨fun h => by linarith, fun h => by linarith⟩
    (and_congr ⟨fun h => by linarith, fun h => by linarith⟩ (by omega))

/-! ## To a double -/

/-- The step between the doubles of a number's binade. -/
def ulp (x : ℚ) : ℚ := 2 ^ (Int.log 2 |x| - 52)

/-- The nearest double, ties to even. -/
def toDouble (x : ℚ) : ℚ := roundHalfEven (x / ulp x) * ulp x

theorem ulp_pos (x : ℚ) : 0 < ulp x := zpow_pos two_pos _

theorem ulp_neg (x : ℚ) : ulp (-x) = ulp x := by rw [ulp, ulp, abs_neg]

theorem ulp_mul (x : ℚ) : (2 : ℚ) ^ 52 * ulp x = 2 ^ Int.log 2 |x| := by
  rw [ulp, ← zpow_natCast, ← zpow_add₀ two_ne_zero]
  congr 1
  push_cast
  ring

theorem toDouble_neg (x : ℚ) : toDouble (-x) = -toDouble x := by
  rw [toDouble, toDouble, ulp_neg, neg_div, roundHalfEven_neg, Int.cast_neg, neg_mul]

@[simp] theorem toDouble_zero : toDouble 0 = 0 := by
  rw [toDouble, zero_div, show roundHalfEven 0 = 0 by decide +kernel, Int.cast_zero, zero_mul]

theorem toDouble_nonneg {x : ℚ} (h : 0 ≤ x) : 0 ≤ toDouble x :=
  mul_nonneg (by exact_mod_cast roundHalfEven_nonneg (div_nonneg h (ulp_pos x).le)) (ulp_pos x).le

theorem abs_toDouble_sub_le (x : ℚ) : |toDouble x - x| ≤ 1 / 2 ^ 53 * |x| := by
  rcases eq_or_ne x 0 with rfl | hx
  · simp
  have hround := abs_roundHalfEven_sub_le (x / ulp x)
  have hbinade : (2 : ℚ) ^ 52 * ulp x ≤ |x| := by
    rw [ulp_mul]
    exact Int.zpow_log_le_self one_lt_two (abs_pos.mpr hx)
  calc |toDouble x - x| = |(roundHalfEven (x / ulp x) : ℚ) - x / ulp x| * ulp x := by
        rw [← abs_of_pos (ulp_pos x), ← abs_mul, abs_of_pos (ulp_pos x), sub_mul,
          div_mul_cancel₀ _ (ulp_pos x).ne']
        rfl
    _ ≤ 1 / 2 * ulp x := mul_le_mul_of_nonneg_right hround (ulp_pos x).le
    _ ≤ 1 / 2 ^ 53 * |x| := by linarith

/-- In one binade the doubles are a grid; between two lies a power of two, which both keep to. -/
theorem toDouble_le_toDouble {x y : ℚ} (hx : 0 ≤ x) (h : x ≤ y) : toDouble x ≤ toDouble y := by
  rcases hx.eq_or_lt with rfl | hpos
  · rw [toDouble_zero]
    exact toDouble_nonneg h
  have habs : |x| ≤ |y| := by rwa [abs_of_pos hpos, abs_of_pos (hpos.trans_le h)]
  rcases (Int.log_mono_right (b := 2) (abs_pos.mpr hpos.ne') habs).eq_or_lt with hsame | hbelow
  · have hulp : ulp y = ulp x := by rw [ulp, ulp, hsame]
    unfold toDouble
    rw [hulp]
    exact mul_le_mul_of_nonneg_right
      (by exact_mod_cast roundHalfEven_mono (div_le_div_of_nonneg_right h (ulp_pos x).le))
      (ulp_pos x).le
  have hlow : toDouble x ≤ 2 ^ (Int.log 2 |x| + 1) := by
    have hlt : x < 2 ^ (Int.log 2 |x| + 1) := by
      have hself := Int.lt_zpow_succ_log_self (b := 2) one_lt_two |x|
      rwa [abs_of_pos hpos] at hself ⊢
    have htop : (2 : ℚ) ^ (Int.log 2 |x| + 1) = ((2 ^ 53 : ℤ) : ℚ) * ulp x := by
      rw [zpow_add_one₀ two_ne_zero, ← ulp_mul]
      push_cast
      ring
    rw [htop] at hlt ⊢
    have hround := roundHalfEven_mono ((div_lt_iff₀ (ulp_pos x)).mpr hlt).le
    rw [roundHalfEven_intCast] at hround
    exact mul_le_mul_of_nonneg_right (by exact_mod_cast hround) (ulp_pos x).le
  have hhigh : (2 : ℚ) ^ Int.log 2 |y| ≤ toDouble y := by
    have hle : (2 : ℚ) ^ Int.log 2 |y| ≤ y := by
      have hself := Int.zpow_log_le_self (b := 2) one_lt_two (abs_pos.mpr (hpos.trans_le h).ne')
      rwa [abs_of_pos (hpos.trans_le h)] at hself ⊢
    have hbot : (2 : ℚ) ^ Int.log 2 |y| = ((2 ^ 52 : ℤ) : ℚ) * ulp y := by
      rw [← ulp_mul]
      push_cast
      rfl
    rw [hbot] at hle ⊢
    have hround := roundHalfEven_mono ((le_div_iff₀ (ulp_pos y)).mpr hle)
    rw [roundHalfEven_intCast] at hround
    exact mul_le_mul_of_nonneg_right (by exact_mod_cast hround) (ulp_pos y).le
  exact hlow.trans ((zpow_le_zpow_right₀ one_le_two hbelow).trans hhigh)

/-- A multiple of a power of two with no more than 53 digits is a double. -/
theorem toDouble_of_grid {n : ℤ} {k : ℤ} (hn : |n| < 2 ^ 53) :
    toDouble (n * 2 ^ k) = n * 2 ^ k := by
  rcases eq_or_ne n 0 with rfl | hzero
  · simp
  have hpos : (0 : ℚ) < |(n : ℚ) * 2 ^ k| :=
    abs_pos.mpr (mul_ne_zero (Int.cast_ne_zero.mpr hzero) (zpow_ne_zero k two_ne_zero))
  have hlog : Int.log 2 |(n : ℚ) * 2 ^ k| - 52 ≤ k := by
    have hlt : |(n : ℚ) * 2 ^ k| < ((2 : ℕ) : ℚ) ^ (k + 53) := by
      rw [abs_mul, abs_of_pos (zpow_pos two_pos k : (0 : ℚ) < 2 ^ k), Nat.cast_ofNat,
        zpow_add₀ two_ne_zero, mul_comm]
      exact mul_lt_mul_of_pos_left (by exact_mod_cast hn) (zpow_pos two_pos k)
    have := (Int.lt_zpow_iff_log_lt one_lt_two hpos).mp hlt
    omega
  -- its own grid is no coarser than the one it is given on
  obtain ⟨d, hd⟩ := Int.le.dest hlog
  have hstep : (2 : ℚ) ^ k = 2 ^ d * ulp (n * 2 ^ k) := by
    rw [ulp, ← zpow_natCast, ← zpow_add₀ two_ne_zero]
    congr 1
    omega
  have hquot : (n : ℚ) * 2 ^ k / ulp (n * 2 ^ k) = ((n * 2 ^ d : ℤ) : ℚ) := by
    rw [div_eq_iff (ulp_pos _).ne']
    push_cast
    rw [mul_assoc]
    exact congrArg ((n : ℚ) * ·) hstep
  rw [toDouble, hquot, roundHalfEven_intCast, ← hquot, div_mul_cancel₀ _ (ulp_pos _).ne']

theorem toDouble_toDouble (x : ℚ) : toDouble (toDouble x) = toDouble x := by
  have hbinade : |x / ulp x| < ((2 ^ 53 : ℤ) : ℚ) := by
    have hself := Int.lt_zpow_succ_log_self (b := 2) one_lt_two |x|
    rw [abs_div, abs_of_pos (ulp_pos x), div_lt_iff₀ (ulp_pos x)]
    calc |x| < 2 ^ (Int.log 2 |x| + 1) := by exact_mod_cast hself
      _ = ((2 ^ 53 : ℤ) : ℚ) * ulp x := by
        rw [zpow_add_one₀ two_ne_zero, ← ulp_mul]
        push_cast
        ring
  have hround : |roundHalfEven (x / ulp x)| ≤ 2 ^ 53 := by
    have hhigh := roundHalfEven_mono (abs_lt.mp hbinade).2.le
    have hlow := roundHalfEven_mono (abs_lt.mp hbinade).1.le
    rw [roundHalfEven_intCast] at hhigh
    rw [roundHalfEven_neg, roundHalfEven_intCast] at hlow
    exact abs_le.mpr ⟨hlow, hhigh⟩
  rcases hround.lt_or_eq with hlt | heq
  · exact toDouble_of_grid hlt
  · -- the top of the binade is one step of the next
    have htop : toDouble x = (roundHalfEven (x / ulp x) / 2 ^ 53 : ℤ) *
        2 ^ (Int.log 2 |x| + 1) := by
      rw [zpow_add_one₀ two_ne_zero, ← ulp_mul, toDouble]
      rcases abs_eq (by norm_num) |>.mp heq with h | h <;> rw [h] <;> norm_num <;> ring
    rw [htop]
    refine toDouble_of_grid ?_
    rcases abs_eq (by norm_num) |>.mp heq with h | h <;> rw [h] <;> norm_num

/-! ## An arithmetic -/

/-- **What an arithmetic makes of the exact result of an operation.** -/
structure Rounding where
  fl : ℚ → ℚ
  unit : ℚ
  unit_nonneg : 0 ≤ unit
  unit_le : unit ≤ 1 / 8
  mono : ∀ x y, x ≤ y → fl x ≤ fl y
  neg : ∀ x, fl (-x) = -fl x
  near : ∀ x, |fl x - x| ≤ unit * |x|
  idem : ∀ x, fl (fl x) = fl x

namespace Rounding

def exact : Rounding where
  fl := id
  unit := 0
  unit_nonneg := le_refl 0
  unit_le := by norm_num
  mono _ _ h := h
  neg _ := rfl
  near x := by simp
  idem _ := rfl

def double : Rounding where
  fl := toDouble
  unit := 1 / 2 ^ 53
  unit_nonneg := by norm_num
  unit_le := by norm_num
  mono x y h := by
    rcases le_total 0 x with hx | hx
    · exact toDouble_le_toDouble hx h
    rcases le_total 0 y with hy | hy
    · have hneg := toDouble_nonneg (neg_nonneg.mpr hx)
      rw [toDouble_neg] at hneg
      exact (neg_nonneg.mp hneg).trans (toDouble_nonneg hy)
    · have hle := toDouble_le_toDouble (neg_nonneg.mpr hy) (neg_le_neg h)
      rwa [toDouble_neg, toDouble_neg, neg_le_neg_iff] at hle
  neg := toDouble_neg
  near := abs_toDouble_sub_le
  idem := toDouble_toDouble

variable (r : Rounding) {x y : ℚ}

@[simp] theorem fl_zero : r.fl 0 = 0 := by simpa using r.near 0

theorem fl_nonneg (h : 0 ≤ x) : 0 ≤ r.fl x := r.fl_zero ▸ r.mono 0 x h

/-- A bound that is a number of the arithmetic stays one. -/
theorem neg_fl_le (h : -r.fl x ≤ y) : -r.fl x ≤ r.fl y := by
  have hle := r.mono _ _ h
  rwa [r.neg, r.idem] at hle

/-- What a rounding loses of a number that is no larger than a bound. -/
theorem near_of_le (hx : 0 ≤ x) (hy : x ≤ y) : |r.fl x - x| ≤ r.unit * y :=
  (r.near x).trans (by rw [abs_of_nonneg hx]; exact mul_le_mul_of_nonneg_left hy r.unit_nonneg)

/-- One operation more: what was off before, and one rounding. -/
theorem near_next {k m : ℚ} (h : |x - y| ≤ k * r.unit * m) (hy : |y| ≤ m) :
    |r.fl x - y| ≤ (9 / 8 * k + 1) * r.unit * m := by
  have hx : |x| ≤ m + k * r.unit * m := by linarith [abs_sub_abs_le_abs_sub x y]
  have hround := (r.near x).trans (mul_le_mul_of_nonneg_left hx r.unit_nonneg)
  have hsquare : r.unit * (k * r.unit * m) ≤ 1 / 8 * (k * r.unit * m) :=
    mul_le_mul_of_nonneg_right r.unit_le ((abs_nonneg _).trans h)
  linarith [abs_sub_le (r.fl x) x y]

/-! ### Sums -/

/-- Numbers added to another one by one. -/
def runningSum (a : ℚ) (xs : List ℚ) : ℚ := xs.foldl (fun c x => r.fl (c + r.fl x)) a

theorem runningSum_concat (a : ℚ) (xs : List ℚ) (x : ℚ) :
    r.runningSum a (xs ++ [x]) = r.fl (r.runningSum a xs + r.fl x) := by
  simp [runningSum]

/-- What the additions of `runningSum` round. -/
def turnover : ℚ → List ℚ → ℚ
  | _, [] => 0
  | c, x :: xs => |x| + |c + r.fl x| + turnover (r.fl (c + r.fl x)) xs

theorem runningSum_near (a : ℚ) (xs : List ℚ) :
    |r.runningSum a xs - (a + xs.sum)| ≤ r.unit * r.turnover a xs := by
  induction xs generalizing a with
  | nil => simp [runningSum, turnover]
  | cons x xs ih =>
    have hrest := ih (r.fl (a + r.fl x))
    have hitem := r.near x
    have hsum := r.near (a + r.fl x)
    rw [abs_le] at hrest hitem hsum ⊢
    simp only [runningSum, turnover, List.foldl_cons, List.sum_cons] at hrest ⊢
    constructor <;> linarith

/-- One item of `sum`: the total, and what its additions have lost so far. -/
def addTo (acc : ℚ × ℚ) (x : ℚ) : ℚ × ℚ :=
  let next := r.fl (acc.1 + x)
  let lost := if |x| ≤ |acc.1| then r.fl (r.fl (acc.1 - next) + x)
    else r.fl (r.fl (x - next) + acc.1)
  (next, r.fl (acc.2 + lost))

/-- `sum` of floats, which adds what the additions lost at the end. -/
def sum (xs : List ℚ) : ℚ :=
  let acc := xs.foldl r.addTo (0, 0)
  if acc.2 = 0 then acc.1 else r.fl (acc.1 + acc.2)

@[simp] theorem sum_nil : r.sum [] = 0 := by simp [sum]

end Rounding

end Investor.Lib
