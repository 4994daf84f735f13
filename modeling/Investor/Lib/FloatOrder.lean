import Investor.Lib.PyJson

/-!
# Floats against floats

Comparisons and sums of two floats. What is no number is below nothing, above nothing and not
between: `atMost_total` is about the others. Finite floats are exact, so a sum of finite ones is
finite.
-/

namespace Investor.Lib.PyFloat

/-! ## Comparisons -/

/-- `x <= y`. -/
def atMost : PyFloat → PyFloat → Bool
  | .fin p, .fin q => decide (p ≤ q)
  | .nan, _ => false
  | _, .nan => false
  | .negInf, _ => true
  | _, .inf => true
  | .fin _, .negInf => false
  | .inf, _ => false

/-- `x < y`. -/
def below (x y : PyFloat) : Bool := x.atMost y && !y.atMost x

@[simp] theorem fin_atMost_fin (p q : ℚ) : (fin p).atMost (fin q) = decide (p ≤ q) := rfl

@[simp] theorem fin_below_fin (p q : ℚ) : (fin p).below (fin q) = decide (p < q) := by
  rw [Bool.eq_iff_iff]
  simp only [below, fin_atMost_fin, Bool.and_eq_true, Bool.not_eq_true', decide_eq_true_eq,
    decide_eq_false_iff_not, not_le]
  exact ⟨And.right, fun h => ⟨h.le, h⟩⟩

@[simp] theorem nan_atMost (y : PyFloat) : nan.atMost y = false := by
  cases y <;> rfl

@[simp] theorem atMost_nan (x : PyFloat) : x.atMost nan = false := by
  cases x <;> rfl

theorem atMost_total {x y : PyFloat} (hx : x ≠ nan) (hy : y ≠ nan) : x.atMost y ∨ y.atMost x := by
  cases x with
  | nan => exact absurd rfl hx
  | fin p =>
    cases y with
    | nan => exact absurd rfl hy
    | fin q => simpa using le_total p q
    | inf => exact Or.inl rfl
    | negInf => exact Or.inr rfl
  | inf =>
    cases y with
    | nan => exact absurd rfl hy
    | fin q => exact Or.inr rfl
    | inf => exact Or.inl rfl
    | negInf => exact Or.inr rfl
  | negInf =>
    cases y with
    | nan => exact absurd rfl hy
    | fin q => exact Or.inl rfl
    | inf => exact Or.inl rfl
    | negInf => exact Or.inl rfl

theorem not_atMost_of_below {x y : PyFloat} (h : x.below y) : y.atMost x = false := by
  rw [below, Bool.and_eq_true, Bool.not_eq_true'] at h
  exact h.2

theorem fin_ne_nan (q : ℚ) : fin q ≠ nan := by
  intro h
  cases h

theorem fin_atMost_iff {p : ℚ} {y : PyFloat} :
    (fin p).atMost y ↔ y = inf ∨ ∃ q, y = fin q ∧ p ≤ q := by
  cases y with
  | fin q => simp
  | inf => simp [atMost]
  | negInf => simp [atMost]
  | nan => simp

/-! ## Arithmetic -/

/-- `-x`. -/
def neg : PyFloat → PyFloat
  | .fin q => .fin (-q)
  | .inf => .negInf
  | .negInf => .inf
  | .nan => .nan

/-- `x + y`. -/
def add : PyFloat → PyFloat → PyFloat
  | .fin p, .fin q => .fin (p + q)
  | .nan, _ => .nan
  | _, .nan => .nan
  | .inf, .negInf => .nan
  | .negInf, .inf => .nan
  | .inf, _ => .inf
  | _, .inf => .inf
  | .negInf, _ => .negInf
  | _, .negInf => .negInf

/-- `x - y`. -/
def sub (x y : PyFloat) : PyFloat := x.add y.neg

@[simp] theorem fin_sub_fin (p q : ℚ) : (fin p).sub (fin q) = fin (p - q) := by
  rw [sub, neg, add, sub_eq_add_neg]

@[simp] theorem fin_add_fin (p q : ℚ) : (fin p).add (fin q) = fin (p + q) := rfl

/-- `x * r`, for any number. -/
def scale (x : PyFloat) (r : ℚ) : PyFloat :=
  match x with
  | .fin q => .fin (q * r)
  | .inf => if r = 0 then .nan else if 0 < r then .inf else .negInf
  | .negInf => if r = 0 then .nan else if 0 < r then .negInf else .inf
  | .nan => .nan

def rounded (round : ℚ → ℚ) : PyFloat → PyFloat
  | .fin q => .fin (round q)
  | x => x

/-- `min(x, y)`: the second only where it is below the first. -/
def least (x y : PyFloat) : PyFloat := if y.below x then y else x

/-! ## Truth -/

/-- Python's truth value: what is no number is true. -/
def truthy (x : PyFloat) : Bool := decide (x ≠ .fin 0)

theorem truthy_of_pos_atMost {p : ℚ} {y : PyFloat} (hp : 0 < p) (h : (fin p).atMost y) : y.truthy := by
  rcases fin_atMost_iff.mp h with rfl | ⟨q, rfl, hpq⟩
  · rfl
  · simp [truthy, (hp.trans_le hpq).ne']

/-- `float(x or y or ... or 0)`, of floats some of which may be `None`. -/
def firstTruthy (xs : List (Option PyFloat)) : PyFloat :=
  ((xs.filterMap (Option.filter truthy)).head?).getD (.fin 0)

theorem firstTruthy_of_some {v : Option PyFloat} {y : PyFloat} (vs : List (Option PyFloat))
    (h : v.filter truthy = some y) : firstTruthy (v :: vs) = y := by
  simp [firstTruthy, h]

theorem firstTruthy_of_none {v : Option PyFloat} (vs : List (Option PyFloat))
    (h : v.filter truthy = none) : firstTruthy (v :: vs) = firstTruthy vs := by
  simp [firstTruthy, h]

end Investor.Lib.PyFloat
