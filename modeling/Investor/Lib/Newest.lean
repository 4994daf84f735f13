import Mathlib.Data.List.DropRight
import Mathlib.Data.List.Nodup
import Mathlib.Data.List.Sort

/-!
# The newest rows of a table

A query that sorts by a time, newest first, and takes the first `n` rows leaves open how rows of
one time stand to each other. `NewestFirst` is any such sort, so that what is proved over it does
not depend on the database's choice.

What such a query is sure to bring is told by counting: a row comes whatever the sort exactly if
at most `n` rows are as new as it (`mem_take_iff`). In one direction nothing that stands before a
row is older than it; in the other `lastAmong` puts the row behind all of its own time.

Of the rows of one kind the first `n` have as many as `k` where the `k`-th stands among them,
however many others stand in between (`le_countP_take_iff`).

A history that is only ever appended to in order has its newest at its end. Cut to its last `n` it
counts, from any time on, as the whole does up to `n` (`countP_rtake`).
-/

namespace Investor.Lib

variable {α τ : Type*} [LinearOrder τ] {time : α → τ}

structure NewestFirst (time : α → τ) where
  sort : List α → List α
  perm : ∀ rows, (sort rows).Perm rows
  sorted : ∀ rows, (sort rows).Pairwise fun x y => time y ≤ time x

namespace NewestFirst

variable (o : NewestFirst time) {rows : List α} {x : α}

theorem mem_sort : x ∈ o.sort rows ↔ x ∈ rows := (o.perm rows).mem_iff

theorem mem_of_head? (h : (o.sort rows).head? = some x) : x ∈ rows :=
  o.mem_sort.mp (List.mem_of_mem_head? h)

theorem head?_eq_none_iff : (o.sort rows).head? = none ↔ rows = [] := by
  rw [List.head?_eq_none_iff]
  constructor
  · intro h
    exact (h ▸ o.perm rows).symm.eq_nil
  · rintro rfl
    exact (o.perm []).eq_nil

/-! ## The first rows -/

def asNew (time : α → τ) (rows : List α) (x : α) : ℕ := rows.countP fun y => time x ≤ time y

theorem mem_take (hx : x ∈ rows) {n : ℕ} (h : asNew time rows x ≤ n) : x ∈ (o.sort rows).take n := by
  obtain ⟨front, back, hsplit⟩ := List.append_of_mem (o.mem_sort.mpr hx)
  have hsorted := o.sorted rows
  have hcount : asNew time rows x = (o.sort rows).countP fun y => time x ≤ time y :=
    ((o.perm rows).countP_eq _).symm
  rw [hsplit] at hsorted hcount ⊢
  have hfront : ∀ y ∈ front, time x ≤ time y := fun y hy =>
    (List.pairwise_append.mp hsorted).2.2 y hy x List.mem_cons_self
  have hall : front.countP (fun y => decide (time x ≤ time y)) = front.length :=
    List.countP_eq_length.mpr fun y hy => decide_eq_true (hfront y hy)
  rw [List.countP_append, hall, List.countP_cons_of_pos (by simp)] at hcount
  rw [List.take_append]
  refine List.mem_append_right _ ?_
  obtain ⟨k, hk⟩ : ∃ k, n - front.length = k + 1 := ⟨n - front.length - 1, by omega⟩
  rw [hk, List.take_succ_cons]
  exact List.mem_cons_self

end NewestFirst

/-! ## A sort that puts a row last -/

section Last

variable (time) (last : α → Bool)

/-- Newer rows first, and of rows of one time those that are put last behind the others. -/
def Ahead (x y : α) : Prop := time y < time x ∨ time x = time y ∧ (last x → last y)

instance : DecidableRel (Ahead time last) := fun x y =>
  inferInstanceAs (Decidable (time y < time x ∨ time x = time y ∧ (last x → last y)))

instance : Std.Total (Ahead time last) where
  total x y := by
    rcases lt_trichotomy (time x) (time y) with h | h | h
    · exact Or.inr (Or.inl h)
    · cases hy : last y
      · exact Or.inr (Or.inr ⟨h.symm, by simp [hy]⟩)
      · exact Or.inl (Or.inr ⟨h, fun _ => hy⟩)
    · exact Or.inl (Or.inl h)

instance : IsTrans α (Ahead time last) where
  trans x y z := by
    rintro (hxy | ⟨hxy, hlast⟩) (hyz | ⟨hyz, hlast'⟩)
    · exact Or.inl (hyz.trans hxy)
    · exact Or.inl (hyz ▸ hxy)
    · exact Or.inl (hxy ▸ hyz)
    · exact Or.inr ⟨hxy.trans hyz, hlast' ∘ hlast⟩

variable {time last}

theorem Ahead.le {x y : α} (h : Ahead time last x y) : time y ≤ time x :=
  h.elim le_of_lt fun h => h.1.ge

variable (time last)

/-- The sort that puts these rows behind all others of their time. -/
def lastAmong : NewestFirst time where
  sort := List.insertionSort (Ahead time last)
  perm := List.perm_insertionSort _
  sorted rows := (List.pairwise_insertionSort _ rows).imp Ahead.le

end Last

namespace NewestFirst

variable {rows : List α} {x : α} {n : ℕ}

theorem notMem_take {last : α → Bool} (hnodup : rows.Nodup) (hx : x ∈ rows)
    (hlast : ∀ y ∈ rows, last y ↔ y = x) (h : n < asNew time rows x) :
    x ∉ ((lastAmong time last).sort rows).take n := by
  let o := lastAmong time last
  have hdistinct : (o.sort rows).Nodup := (o.perm rows).nodup_iff.mpr hnodup
  have hahead : (o.sort rows).Pairwise (Ahead time last) := List.pairwise_insertionSort _ rows
  have hcount : asNew time rows x = (o.sort rows).countP fun y => time x ≤ time y :=
    ((o.perm rows).countP_eq _).symm
  have hof : ∀ y ∈ o.sort rows, y ∈ rows := fun y => o.mem_sort.mp
  obtain ⟨front, back, hsplit⟩ := List.append_of_mem (o.mem_sort.mpr hx)
  show x ∉ (o.sort rows).take n
  rw [hsplit] at hdistinct hahead hcount hof ⊢
  obtain ⟨-, hrest, hdisjoint⟩ := List.nodup_append.mp hdistinct
  -- what stands behind the row is older than it
  have hback : ∀ y ∈ back, ¬ decide (time x ≤ time y) = true := by
    intro y hy hle
    have hmem : y ∈ front ++ x :: back := List.mem_append_right _ (List.mem_cons_of_mem _ hy)
    rcases (List.pairwise_cons.mp (List.pairwise_append.mp hahead).2.1).1 y hy with hlt | ⟨-, himp⟩
    · exact absurd (of_decide_eq_true hle) (not_le.mpr hlt)
    · have hsame := (hlast y (hof y hmem)).mp (himp ((hlast x hx).mpr rfl))
      exact (List.nodup_cons.mp hrest).1 (hsame ▸ hy)
  have hle : front.countP (fun y => decide (time x ≤ time y)) ≤ front.length := List.countP_le_length
  rw [List.countP_append, List.countP_cons_of_pos (by simp), List.countP_eq_zero.mpr hback] at hcount
  rw [List.take_append_of_le_length (by omega)]
  exact fun hmem => hdisjoint x (List.mem_of_mem_take hmem) x List.mem_cons_self rfl

theorem mem_take_iff {κ : Type*} [DecidableEq κ] {key : α → κ} (hnodup : (rows.map key).Nodup)
    (hx : x ∈ rows) :
    (∀ o : NewestFirst time, x ∈ (o.sort rows).take n) ↔ asNew time rows x ≤ n := by
  constructor
  · intro h
    by_contra hmany
    refine @notMem_take _ _ _ _ _ _ _ (fun y => key y = key x) hnodup.of_map hx (fun y hy => ?_)
      (not_le.mp hmany) (h _)
    rw [decide_eq_true_iff]
    exact ⟨List.inj_on_of_nodup_map hnodup hy hx, congrArg key⟩
  · exact fun h o => o.mem_take hx h

end NewestFirst

/-! ## Of a kind among the first -/

section Kind

variable {p : α → Bool} {xs : List α} {n k : ℕ}

theorem exists_kth_of_le_countP (hk : 0 < k) (h : k ≤ xs.countP p) :
    ∃ front x back, xs = front ++ x :: back ∧ p x = true ∧ front.countP p + 1 = k := by
  induction xs generalizing k with
  | nil => simp at h; omega
  | cons x xs ih =>
    cases hp : p x with
    | true =>
      rw [List.countP_cons_of_pos hp] at h
      by_cases hone : k = 1
      · exact ⟨[], x, xs, rfl, hp, by simp [hone]⟩
      · obtain ⟨front, y, back, rfl, hy, hcount⟩ := @ih (k - 1) (by omega) (by omega)
        refine ⟨x :: front, y, back, rfl, hy, ?_⟩
        rw [List.countP_cons_of_pos hp]
        omega
    | false =>
      have hnot : ¬p x = true := by simp [hp]
      rw [List.countP_cons_of_neg hnot] at h
      obtain ⟨front, y, back, rfl, hy, hcount⟩ := ih hk h
      refine ⟨x :: front, y, back, rfl, hy, ?_⟩
      rw [List.countP_cons_of_neg hnot]
      exact hcount

theorem le_countP_take_iff :
    (k ≤ xs.countP p → k ≤ (xs.take n).countP p) ↔
      ∀ front x back, xs = front ++ x :: back → p x = true → front.countP p + 1 = k →
        front.length < n := by
  constructor
  · intro h front x back hxs hx hcount
    by_contra hlong
    subst hxs
    have hall : k ≤ (front ++ x :: back).countP p := by
      rw [List.countP_append, List.countP_cons_of_pos hx]
      omega
    have hfew : ((front ++ x :: back).take n).countP p ≤ front.countP p := by
      rw [List.take_append_of_le_length (by omega)]
      exact (List.take_sublist n front).countP_le
    have := h hall
    omega
  · intro h hk
    by_cases hzero : k = 0
    · omega
    · obtain ⟨front, x, back, rfl, hx, hcount⟩ := exists_kth_of_le_countP (by omega) hk
      have hshort := h front x back rfl hx hcount
      obtain ⟨m, rfl⟩ := Nat.exists_eq_add_of_lt hshort
      have htake : (front ++ x :: back).take (front.length + m + 1) = front ++ x :: back.take m := by
        rw [List.take_append, List.take_of_length_le (by omega)]
        simp [Nat.add_assoc]
      rw [htake, List.countP_append, List.countP_cons_of_pos hx]
      omega

theorem countP_take_eq_iff :
    (xs.take n).countP p = xs.countP p ↔ ∀ x ∈ xs.drop n, p x = false := by
  have hsplit : xs.countP p = (xs.take n).countP p + (xs.drop n).countP p := by
    rw [← List.countP_append, List.take_append_drop]
  rw [hsplit, Nat.left_eq_add, List.countP_eq_zero]
  simp

end Kind

/-! ## The end of a history -/

theorem countP_rtake {p : α → Bool} {xs : List α} (h : xs.Pairwise fun x y => p x → p y) (n : ℕ) :
    (xs.rtake n).countP p = min n (xs.countP p) := by
  induction xs with
  | nil => simp
  | cons x xs ih =>
    obtain ⟨hx, hxs⟩ := List.pairwise_cons.mp h
    cases hp : p x with
    | true =>
      have hall : ∀ y ∈ x :: xs, p y := by
        intro y hy
        rcases List.mem_cons.mp hy with rfl | hy
        · exact hp
        · exact hx y hy hp
      have htake : ((x :: xs).rtake n).countP p = ((x :: xs).rtake n).length :=
        List.countP_eq_length.mpr fun y hy => hall y ((List.drop_sublist _ _).subset hy)
      rw [htake, List.countP_eq_length.mpr hall, List.rtake, List.length_drop]
      omega
    | false =>
      have hcount : xs.countP p ≤ xs.length := List.countP_le_length
      rw [List.countP_cons_of_neg (by simp [hp]), ← ih hxs]
      by_cases hn : n ≤ xs.length
      · have hdrop : (x :: xs).length - n = xs.length - n + 1 := by
          rw [List.length_cons]
          omega
        rw [List.rtake, List.rtake, hdrop, List.drop_succ_cons]
      · have hdrop : (x :: xs).length - n = 0 := by
          rw [List.length_cons]
          omega
        rw [List.rtake, List.rtake, hdrop, Nat.sub_eq_zero_of_le (by omega), List.drop_zero,
          List.drop_zero, List.countP_cons_of_neg (by simp [hp])]

theorem getLast?_rtake {xs : List α} {n : ℕ} (hn : 0 < n) : (xs.rtake n).getLast? = xs.getLast? := by
  rw [List.rtake, List.getLast?_drop]
  split
  · rename_i hle
    have hnil : xs = [] := List.eq_nil_of_length_eq_zero (by omega)
    rw [hnil]
    rfl
  · rfl

end Investor.Lib
