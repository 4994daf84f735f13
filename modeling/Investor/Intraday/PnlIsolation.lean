import Investor.Intraday.FifoFold
import Investor.Intraday.PnlOrder

/-!
# One symbol's books

A fill's way to its book goes through three tables that hold every symbol: the fills by symbol
that agree on an identity, the fills by identity, and the sorted books. Each of the three commutes
with the choice of one symbol, since a symbol's fills share their group and a sort keeps the order
of what is kept. So the books of a symbol are the books of its fills alone (`books_of_symbol`),
whatever the other fills are.
-/

namespace Investor.Intraday

open Lib Universe

section Ledger

variable {fills fills' : List FillRecord}

def fillsOf [Casing] (symbol : String) (fills : List FillRecord) : List FillRecord :=
  fills.filter fun f => f.symbolKey = symbol

def booksOf (symbol : String) (l : FifoLedger) : List FifoBook :=
  l.books.filter fun b => b.key.symbol = symbol

variable [Casing]

theorem usableFills_fillsOf (symbol : String) (fills : List FillRecord) :
    usableFills (fillsOf symbol fills) = fillsOf symbol (usableFills fills) := by
  unfold usableFills fillsOf
  rw [List.filter_filter, List.filter_filter]
  exact List.filter_congr fun f _ => Bool.and_comm _ _

theorem adoptSingleIdentity_fillsOf (symbol : String) (fills : List FillRecord) :
    adoptSingleIdentity (fillsOf symbol fills) =
      (adoptSingleIdentity fills).filter fun f => f.symbol = symbol := by
  have hsymbol : ∀ g ∈ groupsBy FillRecord.symbolKey fills,
      ∀ f ∈ g.2.map (adoptIdentity g.1 (singleIdentity g.2)),
        decide (f.symbol = symbol) = decide (g.1 = symbol) := by
    intro g _ f hf
    obtain ⟨x, -, rfl⟩ := List.mem_map.mp hf
    rfl
  unfold adoptSingleIdentity fillsOf
  rw [filter_flatMap hsymbol, filter_groupsBy fun k => decide (k = symbol)]

theorem bookItems_fillsOf (symbol : String) (fills : List FillRecord) :
    bookItems (fillsOf symbol fills) =
      (bookItems fills).filter fun b => b.key.symbol = symbol := by
  have hkey : ∀ g ∈ groupsBy FillRecord.bookKey (adoptSingleIdentity (usableFills fills)),
      ∀ b ∈ (splitByExchange g.2).map (fun e => BookItems.mk g.1 e.1 e.2),
        decide (b.key.symbol = symbol) = decide (g.1.symbol = symbol) := by
    intro g _ b hb
    obtain ⟨e, -, rfl⟩ := List.mem_map.mp hb
    rfl
  unfold bookItems
  rw [filter_flatMap hkey, filter_groupsBy fun k : BookKey => decide (k.symbol = symbol),
    usableFills_fillsOf, adoptSingleIdentity_fillsOf]
  rfl

theorem booksOf_reconstructFifo (symbol : String) (fills : List FillRecord) :
    booksOf symbol (reconstructFifo fills) = (reconstructFifo (fillsOf symbol fills)).books := by
  unfold booksOf reconstructFifo
  rw [bookItems_fillsOf, sortedBy_filter, List.filter_map]
  rfl

/-- **What other symbols traded does not show in a symbol's books.** -/
theorem books_of_symbol (symbol : String) (h : fillsOf symbol fills = fillsOf symbol fills') :
    booksOf symbol (reconstructFifo fills) = booksOf symbol (reconstructFifo fills') := by
  rw [booksOf_reconstructFifo, booksOf_reconstructFifo, h]

end Ledger

/-! ## A symbol among others -/

section Sample

attribute [local instance] asciiCasing

/-- A fill of BHP with no venue and no currency, between fills of another symbol that name them. -/
theorem books_of_bhp :
    booksOf "BHP" (reconstructFifo [sampleFill "e1" "ASX" 1,
        { sampleFill "e2" "" 2 with symbol := "bhp", side := "sell", venue := "", currency := "" }]) =
      booksOf "BHP" (reconstructFifo [fillAt "buy" 10 100, sampleFill "e1" "ASX" 1,
        fillAt "sell" 4 100,
        { sampleFill "e2" "" 2 with symbol := "bhp", side := "sell", venue := "", currency := "" }]) :=
  books_of_symbol "BHP" (by decide)

end Sample

end Investor.Intraday
