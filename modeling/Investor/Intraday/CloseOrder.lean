import Investor.Intraday.PnlOrder

/-!
# The order of the closes

A list that takes the closes of one book after another is oldest first exactly if the books take
turns (`oldestFirst_flatMap_iff`): the ledger sorts its books by currency, venue, symbol and account,
and not by when they closed.
-/

namespace Investor.Intraday

open Lib

def closeTime (c : FifoClose) : Int := c.closedAt.getD 0

def OldestFirst (closes : List FifoClose) : Prop :=
  closes.Pairwise fun c d => closeTime c ≤ closeTime d

instance (closes : List FifoClose) : Decidable (OldestFirst closes) :=
  inferInstanceAs (Decidable (closes.Pairwise fun c d => closeTime c ≤ closeTime d))

def closedWithin (start end_ : Int) (c : FifoClose) : Bool :=
  c.closedAt.any fun t => decide (start ≤ t ∧ t ≤ end_)

def knownWithin (start end_ : Int) (c : FifoClose) : Bool :=
  c.grossPnl.isSome && closedWithin start end_ c

theorem closedAt_of_knownWithin {start end_ : Int} {c : FifoClose} (h : knownWithin start end_ c) :
    c.grossPnl.isSome ∧ c.closedAt = some (closeTime c) := by
  obtain ⟨hgross, hwithin⟩ := Bool.and_eq_true_iff.mp h
  obtain ⟨t, ht, -⟩ := (Option.any_eq_true _ _).mp hwithin
  exact ⟨hgross, by simp [closeTime, ht]⟩

theorem sortedBy_closeTime {closes : List FifoClose} (h : OldestFirst closes) :
    sortedBy closeTime closes = closes := h.insertionSort_eq

/-! ## In a ledger -/

/-- **The books take turns**: of the closes that are looked at, none of a book is later than one of a
    book behind it. -/
def BooksInTurn (p : FifoClose → Bool) (books : List FifoBook) : Prop :=
  books.Pairwise fun b b' => ∀ c ∈ b.closes, ∀ d ∈ b'.closes, p c → p d → closeTime c ≤ closeTime d

theorem oldestFirst_flatMap_iff {p : FifoClose → Bool} {books : List FifoBook}
    {listed : FifoBook → List FifoClose}
    (hmem : ∀ b ∈ books, ∀ c, c ∈ listed b ↔ c ∈ b.closes ∧ p c) :
    OldestFirst (books.flatMap listed) ↔
      (∀ b ∈ books, OldestFirst (listed b)) ∧ BooksInTurn p books := by
  unfold OldestFirst BooksInTurn
  rw [List.pairwise_flatMap]
  refine and_congr_right fun _ => List.Pairwise.iff_of_mem fun {b b'} hb hb' => ?_
  constructor
  · intro h c hc d hd hcp hdp
    exact h c ((hmem b hb c).mpr ⟨hc, hcp⟩) d ((hmem b' hb' d).mpr ⟨hd, hdp⟩)
  · intro h c hc d hd
    obtain ⟨hc, hcp⟩ := (hmem b hb c).mp hc
    obtain ⟨hd, hdp⟩ := (hmem b' hb' d).mp hd
    exact h c hc d hd hcp hdp

end Investor.Intraday
