import Investor.Lib.Group
import Mathlib.Algebra.Order.Group.Defs
import Mathlib.Algebra.Order.Monoid.Unbundled.Pow
import Mathlib.Tactic.Abel

/-!
# Gaps between points

The gaps of a sorted list, and the element in the middle of them. Points a step apart have the
step for every gap, and one more point among them splits one gap or adds one at an end
(`deltas_insert_steps`). So the middle one is the step as soon as enough gaps are left.
-/

namespace Investor.Lib

/-! ## The middle element -/

section Median

variable {α β : Type*} [LinearOrder α] [LinearOrder β]

/-- `sorted(xs)[len(xs) // 2]`. -/
def upperMedian (xs : List α) : Option α := (sortedBy id xs)[xs.length / 2]?

theorem sortedBy_id_eq {xs ys : List α} (h : List.Perm xs ys) (hs : ys.Pairwise (· ≤ ·)) :
    sortedBy id xs = ys := by
  refine ((sortedBy_perm id xs).trans h).eq_of_pairwise ?_ (pairwise_sortedBy id xs) hs
  intro a b _ _ hab hba
  exact le_antisymm hab hba

theorem sortedBy_append_singleton {xs : List α} {f : α} (h : xs.Pairwise (· ≤ ·)) :
    sortedBy id (xs ++ [f]) = xs.orderedInsert (· ≤ ·) f := by
  refine sortedBy_id_eq ?_ (List.Pairwise.orderedInsert f xs h)
  exact (List.perm_append_singleton f xs).trans (List.perm_orderedInsert _ f xs).symm

theorem upperMedian_eq {xs ys : List α} (h : List.Perm xs ys) (hs : ys.Pairwise (· ≤ ·)) :
    upperMedian xs = ys[ys.length / 2]? := by
  unfold upperMedian
  rw [sortedBy_id_eq h hs, h.length_eq]

theorem upperMedian_map {f : α → β} (hf : Monotone f) (xs : List α) :
    upperMedian (xs.map f) = (upperMedian xs).map f := by
  have hs : ((sortedBy id xs).map f).Pairwise (· ≤ ·) :=
    List.Pairwise.map f (fun _ _ hab => hf hab) (pairwise_sortedBy id xs)
  rw [upperMedian_eq ((sortedBy_perm id xs).symm.map f) hs]
  unfold upperMedian
  rw [List.length_map, (sortedBy_perm id xs).length_eq, List.getElem?_map]

theorem upperMedian_eq_none_iff {xs : List α} : upperMedian xs = none ↔ xs = [] := by
  unfold upperMedian
  rw [List.getElem?_eq_none_iff, (sortedBy_perm id xs).length_eq]
  constructor
  · intro h
    exact List.eq_nil_of_length_eq_zero (by omega)
  · intro h
    simp [h]

theorem pairwise_replicate_le (n : ℕ) (s : α) : (List.replicate n s).Pairwise (· ≤ ·) :=
  List.pairwise_replicate.mpr (Or.inr le_rfl)

theorem upperMedian_cons_replicate {xs : List α} {e s : α} {n : ℕ}
    (h : List.Perm xs (e :: List.replicate n s)) (hle : e ≤ s) :
    upperMedian xs = some (if n = 0 then e else s) := by
  have hs : (e :: List.replicate n s).Pairwise (· ≤ ·) := by
    refine List.pairwise_cons.mpr ⟨?_, pairwise_replicate_le n s⟩
    intro b hb
    exact hle.trans (List.eq_of_mem_replicate hb).ge
  rw [upperMedian_eq h hs, List.length_cons, List.length_replicate]
  cases n with
  | zero => rfl
  | succ n =>
    obtain ⟨k, hk⟩ : ∃ k, (n + 1 + 1) / 2 = k + 1 := ⟨n / 2, by omega⟩
    rw [hk, List.getElem?_cons_succ, List.getElem?_replicate_of_lt (by omega)]
    rfl

theorem upperMedian_cons_cons_replicate {xs : List α} {x y s : α} {n : ℕ}
    (h : List.Perm xs (x :: y :: List.replicate n s)) (hx : x ≤ s) (hy : y ≤ s) :
    upperMedian xs = some (if n ≤ 1 then max x y else s) := by
  have hperm : List.Perm xs (min x y :: max x y :: List.replicate n s) := by
    rcases le_total x y with hxy | hyx
    · rwa [min_eq_left hxy, max_eq_right hxy]
    · rw [min_eq_right hyx, max_eq_left hyx]
      exact h.trans (List.Perm.swap y x _)
  have hs : (min x y :: max x y :: List.replicate n s).Pairwise (· ≤ ·) := by
    refine List.pairwise_cons.mpr ⟨?_, List.pairwise_cons.mpr ⟨?_, pairwise_replicate_le n s⟩⟩
    · intro b hb
      rcases List.mem_cons.mp hb with rfl | hb
      · exact min_le_max
      · exact (min_le_left x y).trans (hx.trans (List.eq_of_mem_replicate hb).ge)
    · intro b hb
      exact (max_le hx hy).trans (List.eq_of_mem_replicate hb).ge
  rw [upperMedian_eq hperm hs, List.length_cons, List.length_cons, List.length_replicate]
  by_cases hn : n ≤ 1
  · have hk : (n + 1 + 1) / 2 = 1 := by omega
    rw [hk, if_pos hn]
    rfl
  · obtain ⟨k, hk⟩ : ∃ k, (n + 1 + 1) / 2 = k + 1 + 1 := ⟨n / 2 - 1, by omega⟩
    rw [hk, if_neg hn, List.getElem?_cons_succ, List.getElem?_cons_succ,
      List.getElem?_replicate_of_lt (by omega)]

end Median

/-! ## Points a step apart -/

section Gaps

variable {α : Type*} [AddCommGroup α]

/-- `[b - a for a, b in zip(xs, xs[1:])]`. -/
def deltas (xs : List α) : List α := List.zipWith (fun a b => b - a) xs xs.tail

@[simp] theorem deltas_nil : deltas ([] : List α) = [] := rfl

@[simp] theorem deltas_singleton (a : α) : deltas [a] = [] := rfl

@[simp] theorem deltas_cons_cons (a b : α) (xs : List α) :
    deltas (a :: b :: xs) = (b - a) :: deltas (b :: xs) := rfl

/-- `n` points from `c` on, a step apart. -/
def steps (s : α) : ℕ → α → List α
  | 0, _ => []
  | n + 1, c => c :: steps s n (c + s)

variable {c s f : α} {n : ℕ}

@[simp] theorem length_steps : (steps s n c).length = n := by
  induction n generalizing c with
  | zero => rfl
  | succ n ih => rw [steps, List.length_cons, ih]

theorem steps_eq_map : steps s n c = (List.range n).map fun i => c + i • s := by
  induction n generalizing c with
  | zero => rfl
  | succ n ih =>
    rw [steps, ih, List.range_succ_eq_map, List.map_cons, List.map_map]
    congr 1
    · simp
    · refine List.map_congr_left fun i _ => ?_
      rw [Function.comp_apply, succ_nsmul]
      abel

theorem deltas_steps : deltas (steps s (n + 1) c) = List.replicate n s := by
  induction n generalizing c with
  | zero => rfl
  | succ n ih =>
    rw [steps, steps, deltas_cons_cons, ← steps, ih, add_sub_cancel_left]
    rfl

variable [LinearOrder α]

theorem deltas_insert_steps : ∀ {n : ℕ} {c : α},
    let ds := deltas ((steps s (n + 1) c).orderedInsert (· ≤ ·) f)
    (f ≤ c ∧ List.Perm ds ((c - f) :: List.replicate n s)) ∨
    (∃ a ∈ steps s (n + 1) c, (∀ b ∈ steps s (n + 1) c, b < f) ∧ a + s = c + (n + 1) • s ∧
      List.Perm ds ((f - a) :: List.replicate n s)) ∨
    (∃ a k, a ∈ steps s (n + 1) c ∧ a + s ∈ steps s (n + 1) c ∧ a < f ∧ f ≤ a + s ∧ n = k + 1 ∧
      List.Perm ds ((f - a) :: (a + s - f) :: List.replicate k s)) := by
  intro n
  induction n with
  | zero =>
    intro c
    dsimp only [steps]
    rw [List.orderedInsert_cons]
    split
    · rename_i hle
      exact Or.inl ⟨hle, by simp⟩
    · rename_i hlt
      refine Or.inr (Or.inl ⟨c, by simp, ?_, by rw [zero_add, one_nsmul], by simp⟩)
      intro b hb
      rw [List.mem_singleton.mp hb]
      exact not_le.mp hlt
  | succ n ih =>
    intro c
    dsimp only
    rw [steps, List.orderedInsert_cons]
    split
    · rename_i hle
      refine Or.inl ⟨hle, ?_⟩
      rw [steps, deltas_cons_cons, ← steps, ← steps, deltas_steps]
    · rename_i hlt
      by_cases hle : f ≤ c + s
      · refine Or.inr (Or.inr ⟨c, n, by simp, ?_, not_le.mp hlt, hle, rfl, ?_⟩)
        · exact List.mem_cons_of_mem _ (by simp [steps])
        · rw [steps, List.orderedInsert_cons, if_pos hle, deltas_cons_cons, deltas_cons_cons,
            ← steps, deltas_steps]
      · -- the new point stands behind the second one, and the first gap is whole
        have hdeltas : deltas (c :: (steps s (n + 1) (c + s)).orderedInsert (· ≤ ·) f) =
            s :: deltas ((steps s (n + 1) (c + s)).orderedInsert (· ≤ ·) f) := by
          rw [steps, List.orderedInsert_cons, if_neg hle, deltas_cons_cons, add_sub_cancel_left]
        rw [hdeltas]
        rcases @ih (c + s) with hfirst | hlast | hinner
        · exact absurd hfirst.1 hle
        · obtain ⟨a, ha, hall, hend, hperm⟩ := hlast
          refine Or.inr (Or.inl ⟨a, List.mem_cons_of_mem _ ha, ?_, ?_, ?_⟩)
          · intro b hb
            rcases List.mem_cons.mp hb with rfl | hb
            · exact not_le.mp hlt
            · exact hall b hb
          · rw [hend, succ_nsmul s (n + 1)]
            abel
          · exact (hperm.cons s).trans (List.Perm.swap _ s _)
        · obtain ⟨a, k, ha, hnext, haf, hfa, rfl, hperm⟩ := hinner
          refine Or.inr (Or.inr ⟨a, k + 1, List.mem_cons_of_mem _ ha, List.mem_cons_of_mem _ hnext,
            haf, hfa, rfl, ?_⟩)
          refine (hperm.cons s).trans ((List.Perm.swap _ s _).trans ?_)
          exact (List.Perm.swap _ s _).cons _

variable [IsOrderedAddMonoid α]

theorem le_of_mem_steps (hs : 0 ≤ s) {a : α} (ha : a ∈ steps s n c) : c ≤ a := by
  rw [steps_eq_map] at ha
  obtain ⟨i, -, rfl⟩ := List.mem_map.mp ha
  exact le_add_of_nonneg_right (nsmul_nonneg hs i)

theorem pairwise_steps (hs : 0 ≤ s) : (steps s n c).Pairwise (· ≤ ·) := by
  induction n generalizing c with
  | zero => exact List.Pairwise.nil
  | succ n ih =>
    refine List.pairwise_cons.mpr ⟨?_, ih⟩
    intro a ha
    exact (le_add_of_nonneg_right hs).trans (le_of_mem_steps hs ha)

theorem steps_apart (hs : 0 ≤ s) {a b : α} (ha : a ∈ steps s n c) (hb : b ∈ steps s n c) :
    b ≤ a ∨ a + s ≤ b := by
  rw [steps_eq_map] at ha hb
  obtain ⟨i, -, rfl⟩ := List.mem_map.mp ha
  obtain ⟨j, -, rfl⟩ := List.mem_map.mp hb
  rcases le_or_gt j i with hji | hij
  · exact Or.inl (add_le_add_right (nsmul_le_nsmul_left hs hji) c)
  · refine Or.inr ?_
    rw [add_assoc, ← succ_nsmul]
    exact add_le_add_right (nsmul_le_nsmul_left hs hij) c

end Gaps

end Investor.Lib
