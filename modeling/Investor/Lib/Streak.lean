import Mathlib.Data.List.Infix
import Mathlib.Order.Bounds.Basic

/-!
# The longest run of a kind

A scan carries the run of a kind that ends where it stands, and the longest run it has seen.
-/

namespace Investor.Lib

variable {α : Type} (p : α → Prop)

/-- The lengths of the blocks of a list whose entries are all of the kind. -/
def runLengths (xs : List α) : Set ℕ := {n | ∃ b, b <:+: xs ∧ (∀ a ∈ b, p a) ∧ b.length = n}

def lastRunLengths (xs : List α) : Set ℕ := {n | ∃ b, b <:+ xs ∧ (∀ a ∈ b, p a) ∧ b.length = n}

/-- What a scan of the list carries: the longest run, and the run that ends where it stands. -/
structure Streak (xs : List α) (longest last : ℕ) : Prop where
  longest : IsGreatest (runLengths p xs) longest
  last : IsGreatest (lastRunLengths p xs) last

variable {p} {xs : List α} {a : α} {m n : ℕ}

theorem Streak.nil : Streak p [] 0 0 :=
  ⟨⟨⟨[], by simp⟩, fun _ ⟨_, hb, _, hlen⟩ => by simp [← hlen, List.infix_nil.mp hb]⟩,
    ⟨[], by simp⟩, fun _ ⟨_, hb, _, hlen⟩ => by simp [← hlen, List.suffix_nil.mp hb]⟩

theorem lastRun_concat (ha : p a) (h : IsGreatest (lastRunLengths p xs) n) :
    IsGreatest (lastRunLengths p (xs ++ [a])) (n + 1) := by
  obtain ⟨⟨b, hb, hall, hlen⟩, hmost⟩ := h
  constructor
  · refine ⟨b ++ [a], List.suffix_concat_iff.mpr (Or.inr ⟨b, rfl, hb⟩), ?_, by simp [hlen]⟩
    simpa [or_imp, forall_and] using ⟨hall, ha⟩
  · rintro _ ⟨c, hc, hkind, rfl⟩
    rcases List.suffix_concat_iff.mp hc with rfl | ⟨t, rfl, ht⟩
    · exact Nat.zero_le _
    · have htn : t.length ≤ n := hmost ⟨t, ht, fun x hx => hkind x (List.mem_append_left _ hx), rfl⟩
      simpa using htn

theorem lastRun_break (ha : ¬ p a) : IsGreatest (lastRunLengths p (xs ++ [a])) 0 := by
  refine ⟨⟨[], by simp⟩, ?_⟩
  rintro _ ⟨c, hc, hkind, rfl⟩
  rcases List.suffix_concat_iff.mp hc with rfl | ⟨t, rfl, -⟩
  · exact le_rfl
  · exact absurd (hkind a (by simp)) ha

theorem longestRun_concat (hm : IsGreatest (runLengths p xs) m)
    (hn : IsGreatest (lastRunLengths p (xs ++ [a])) n) :
    IsGreatest (runLengths p (xs ++ [a])) (max m n) := by
  have hruns : runLengths p (xs ++ [a]) = runLengths p xs ∪ lastRunLengths p (xs ++ [a]) := by
    ext k
    simp only [runLengths, lastRunLengths, Set.mem_ofPred_eq, Set.mem_union, List.infix_concat_iff,
      or_and_right, exists_or]
    exact or_comm
  rw [hruns]
  exact hm.union hn

theorem Streak.goesOn (h : Streak p xs m n) (ha : p a) :
    Streak p (xs ++ [a]) (max m (n + 1)) (n + 1) :=
  ⟨longestRun_concat h.longest (lastRun_concat ha h.last), lastRun_concat ha h.last⟩

theorem Streak.breaks (h : Streak p xs m n) (ha : ¬ p a) : Streak p (xs ++ [a]) m 0 := by
  have hlongest := longestRun_concat h.longest (lastRun_break ha)
  rw [Nat.max_zero] at hlongest
  exact ⟨hlongest, lastRun_break ha⟩

end Investor.Lib
