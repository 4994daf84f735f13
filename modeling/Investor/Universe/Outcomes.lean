import Investor.Intraday.CloseOrder
import Investor.Intraday.PnlIsolation
import Investor.Intraday.StampRuns

/-!
# A symbol's own closes

`symbol_close_pnls` lists what each symbol's closes of the last days brought, for the check that
may block its next entry (`entryBlockReason`). The closes are sorted inside each book and the books
are listed one after another, in the ledger's order: by currency, venue and account. A symbol that
is traded in one book has its closes listed oldest first. One that is traded in several has them so
exactly if the books take turns, the closes of each coming after those of the books before it
(`BooksInTurn`).
-/

namespace Investor.Universe

open Lib Intraday

/-! ## The list -/

/-- `end - timedelta(days=max(1, int(lookback_days)))`. -/
def lookbackStart (lookbackDays now : Int) : Int := now - max 1 lookbackDays * DAY

def bookCloses (start end_ : Int) (b : FifoBook) : List FifoClose :=
  (sortedBy (fun c => c.closedAt.getD start) b.closes).filter (knownWithin start end_)

/-- `out[key].append(value)`, one after another. -/
def collect (pairs : List (String × ℚ)) : Dict (List ℚ) :=
  (groupsBy Prod.fst pairs).map fun g => (g.1, g.2.map Prod.snd)

abbrev ClosedOrder := NewestFirst fun r : ClosingLifecycle => OrderDual.toDual (r.closedAt.getD 0)

def closedRows (o : ClosedOrder) (start end_ : Int) (rows : List ClosingLifecycle) :
    List ClosingLifecycle :=
  o.sort (rows.filter fun r => decide (r.status = .closed) &&
    r.closedAt.any fun t => decide (start ≤ t ∧ t ≤ end_))

section Pnls

/-- `symbol_close_pnls`. -/
def symbolClosePnls [Casing] (str : Json → String) (o : ClosedOrder) (rows : List ClosingLifecycle)
    (fills : List FillRecord) (lookbackDays now : Int) : Dict (List ℚ) :=
  let start := lookbackStart lookbackDays now
  let booked := (reconstructFifo fills).books.flatMap fun b =>
    (bookCloses start now b).filterMap fun c => c.grossPnl.map fun gross => (b.key.symbol, gross)
  if fills = [] then
    -- no executions yet
    collect (booked ++ (closedRows o start now rows).filterMap fun r =>
      (lifecyclePnl str r).map fun pnl => (Casing.upper r.symbol, pnl))
  else collect booked

def pnlsOf (symbol : String) (out : Dict (List ℚ)) : List ℚ := (Dict.get? out symbol).getD []

def closesListed (start end_ : Int) (symbol : String) (l : FifoLedger) : List FifoClose :=
  (booksOf symbol l).flatMap (bookCloses start end_)

def knownClosesOf (start end_ : Int) (symbol : String) (l : FifoLedger) : List FifoClose :=
  ((booksOf symbol l).flatMap (·.closes)).filter (knownWithin start end_)

/-! ## What is listed -/

theorem get?_collect (pairs : List (String × ℚ)) (symbol : String) :
    pnlsOf symbol (collect pairs) = (pairs.filter fun p => p.1 = symbol).map Prod.snd := by
  have hget : Dict.get? (collect pairs) symbol =
      (((groupsBy Prod.fst pairs).find? fun g => decide (g.1 = symbol)).map (·.2)).map
        (List.map Prod.snd) := by
    unfold Dict.get? collect
    rw [List.find?_map, Option.map_map, Option.map_map]
    rfl
  have hgroup := getD_find?_groupsBy Prod.fst pairs symbol
  unfold pnlsOf
  rw [hget, ← hgroup]
  cases ((groupsBy Prod.fst pairs).find? fun g => decide (g.1 = symbol)).map (·.2) <;> rfl

theorem pnlsOf_symbolClosePnls [Casing] (str : Json → String) (o : ClosedOrder)
    (rows : List ClosingLifecycle) {fills : List FillRecord} (lookbackDays now : Int)
    (symbol : String) (h : fills ≠ []) :
    pnlsOf symbol (symbolClosePnls str o rows fills lookbackDays now) =
      (closesListed (lookbackStart lookbackDays now) now symbol
        (reconstructFifo fills)).filterMap (·.grossPnl) := by
  have hsymbol : ∀ b ∈ (reconstructFifo fills).books,
      ∀ p ∈ (bookCloses (lookbackStart lookbackDays now) now b).filterMap
        (fun c => c.grossPnl.map fun gross => (b.key.symbol, gross)),
        decide (p.1 = symbol) = decide (b.key.symbol = symbol) := by
    intro b _ p hp
    obtain ⟨c, -, hc⟩ := List.mem_filterMap.mp hp
    obtain ⟨gross, -, rfl⟩ := Option.map_eq_some_iff.mp hc
    rfl
  unfold symbolClosePnls
  rw [if_neg h, get?_collect, filter_flatMap hsymbol, List.map_flatMap, closesListed,
    List.filterMap_flatMap]
  refine List.flatMap_congr fun b _ => ?_
  rw [List.map_filterMap]
  refine List.filterMap_congr fun c _ => ?_
  rw [Option.map_map]
  exact Option.map_id'

theorem pnlsOf_no_executions [Casing] (str : Json → String) (o : ClosedOrder)
    (rows : List ClosingLifecycle) (lookbackDays now : Int) (symbol : String) :
    pnlsOf symbol (symbolClosePnls str o rows [] lookbackDays now) =
      ((closedRows o (lookbackStart lookbackDays now) now rows).filter
        fun r => Casing.upper r.symbol = symbol).filterMap (lifecyclePnl str) := by
  have hbooks : (reconstructFifo []).books = [] := rfl
  unfold symbolClosePnls
  rw [if_pos rfl, get?_collect, hbooks, List.flatMap_nil, List.nil_append]
  generalize closedRows o (lookbackStart lookbackDays now) now rows = closed
  induction closed with
  | nil => rfl
  | cons r closed ih =>
    rw [List.filterMap_cons, List.filter_cons]
    by_cases hsymbol : Casing.upper r.symbol = symbol
    · rw [if_pos (decide_eq_true hsymbol), List.filterMap_cons, ← ih]
      cases lifecyclePnl str r with
      | none => rfl
      | some pnl => simp [hsymbol]
    · rw [if_neg (by simpa using hsymbol), ← ih]
      cases lifecyclePnl str r with
      | none => rfl
      | some pnl => simp [hsymbol]

theorem closesListed_perm (start end_ : Int) (symbol : String) (l : FifoLedger) :
    List.Perm (closesListed start end_ symbol l) (knownClosesOf start end_ symbol l) := by
  unfold closesListed knownClosesOf bookCloses
  rw [List.filter_flatMap]
  exact List.Perm.flatMap_left _ fun b _ => (sortedBy_perm _ _).filter _

/-! ## Their order -/

theorem mem_bookCloses {start end_ : Int} {b : FifoBook} {c : FifoClose} :
    c ∈ bookCloses start end_ b ↔ c ∈ b.closes ∧ knownWithin start end_ c := by
  unfold bookCloses
  rw [List.mem_filter, (sortedBy_perm _ _).mem_iff]

theorem bookCloses_oldestFirst (start end_ : Int) (b : FifoBook) :
    OldestFirst (bookCloses start end_ b) := by
  have hsorted := (pairwise_sortedBy (fun c : FifoClose => c.closedAt.getD start) b.closes).filter
    (knownWithin start end_)
  refine hsorted.imp_of_mem fun {c d} hc hd hle => ?_
  obtain ⟨-, htime⟩ := closedAt_of_knownWithin (List.mem_filter.mp hc).2
  obtain ⟨-, htime'⟩ := closedAt_of_knownWithin (List.mem_filter.mp hd).2
  rwa [htime, htime'] at hle

theorem closesListed_oldestFirst_iff (start end_ : Int) (symbol : String) (l : FifoLedger) :
    OldestFirst (closesListed start end_ symbol l) ↔
      BooksInTurn (knownWithin start end_) (booksOf symbol l) := by
  refine (oldestFirst_flatMap_iff fun b _ c => mem_bookCloses).trans ?_
  exact and_iff_right fun b _ => bookCloses_oldestFirst start end_ b

/-- The last closes of a list, and the others; `entryBlockReason` reads the last of the profits. -/
def recentCloses (closes : List FifoClose) : List FifoClose :=
  closes.drop (closes.length - RECENT_WINDOW)

theorem drop_filterMap_gross {closes : List FifoClose} (h : ∀ c ∈ closes, c.grossPnl.isSome)
    (n : ℕ) : (closes.filterMap (·.grossPnl)).length = closes.length ∧
      (closes.filterMap (·.grossPnl)).drop n = (closes.drop n).filterMap (·.grossPnl) := by
  induction closes generalizing n with
  | nil => simp
  | cons c closes ih =>
    obtain ⟨gross, hgross⟩ := Option.isSome_iff_exists.mp (h c (List.mem_cons_self ..))
    have hrest := fun d hd => h d (List.mem_cons_of_mem c hd)
    rw [List.filterMap_cons_some hgross]
    refine ⟨by rw [List.length_cons, List.length_cons, (ih hrest 0).1], ?_⟩
    cases n with
    | zero => rw [List.drop_zero, List.drop_zero, List.filterMap_cons_some hgross]
    | succ n => rw [List.drop_succ_cons, List.drop_succ_cons, (ih hrest n).2]

/-- **What is listed of a symbol, and when it is oldest first.** The profits are those of its known
    closes, each once; they are listed oldest first exactly if its books take turns, and then the
    last ten are those of the ten most recent closes. -/
structure ListsCloses [Casing] (str : Json → String) (o : ClosedOrder) (rows : List ClosingLifecycle)
    (fills : List FillRecord) (lookbackDays now : Int) (symbol : String) : Prop where
  pnls : fills ≠ [] → pnlsOf symbol (symbolClosePnls str o rows fills lookbackDays now) =
    (closesListed (lookbackStart lookbackDays now) now symbol
      (reconstructFifo fills)).filterMap (·.grossPnl)
  noExecutions : fills = [] → pnlsOf symbol (symbolClosePnls str o rows fills lookbackDays now) =
    ((closedRows o (lookbackStart lookbackDays now) now rows).filter
      fun r => Casing.upper r.symbol = symbol).filterMap (lifecyclePnl str)
  once : List.Perm (closesListed (lookbackStart lookbackDays now) now symbol (reconstructFifo fills))
    (knownClosesOf (lookbackStart lookbackDays now) now symbol (reconstructFifo fills))
  order : OldestFirst (closesListed (lookbackStart lookbackDays now) now symbol
      (reconstructFifo fills)) ↔
    BooksInTurn (knownWithin (lookbackStart lookbackDays now) now)
      (booksOf symbol (reconstructFifo fills))
  recent : BooksInTurn (knownWithin (lookbackStart lookbackDays now) now)
      (booksOf symbol (reconstructFifo fills)) → fills ≠ [] →
    ∃ older, older ++ recentCloses (closesListed (lookbackStart lookbackDays now) now symbol
          (reconstructFifo fills)) =
        closesListed (lookbackStart lookbackDays now) now symbol (reconstructFifo fills) ∧
      (∀ c ∈ older, ∀ d ∈ recentCloses (closesListed (lookbackStart lookbackDays now) now symbol
        (reconstructFifo fills)), closeTime c ≤ closeTime d) ∧
      let pnls := pnlsOf symbol (symbolClosePnls str o rows fills lookbackDays now)
      pnls.drop (pnls.length - RECENT_WINDOW) =
        (recentCloses (closesListed (lookbackStart lookbackDays now) now symbol
          (reconstructFifo fills))).filterMap (·.grossPnl)

theorem symbolClosePnls_lists [Casing] (str : Json → String) (o : ClosedOrder)
    (rows : List ClosingLifecycle) (fills : List FillRecord) (lookbackDays now : Int)
    (symbol : String) : ListsCloses str o rows fills lookbackDays now symbol := by
  have hpnls := @pnlsOf_symbolClosePnls _ str o rows fills lookbackDays now symbol
  have horder := closesListed_oldestFirst_iff (lookbackStart lookbackDays now) now symbol
    (reconstructFifo fills)
  have honce := closesListed_perm (lookbackStart lookbackDays now) now symbol (reconstructFifo fills)
  refine ⟨hpnls, ?_, honce, horder, fun hturn hfills => ?_⟩
  · rintro rfl
    exact pnlsOf_no_executions str o rows lookbackDays now symbol
  have hsorted := horder.mpr hturn
  have hknown : ∀ c ∈ closesListed (lookbackStart lookbackDays now) now symbol
      (reconstructFifo fills), c.grossPnl.isSome := by
    intro c hc
    exact (closedAt_of_knownWithin (List.mem_filter.mp (honce.mem_iff.mp hc)).2).1
  generalize closesListed (lookbackStart lookbackDays now) now symbol (reconstructFifo fills) =
    closes at hpnls hsorted hknown
  obtain ⟨hlength, hdrop⟩ := drop_filterMap_gross hknown (closes.length - RECENT_WINDOW)
  refine ⟨closes.take (closes.length - RECENT_WINDOW), List.take_append_drop _ _, ?_, ?_⟩
  · have happend := hsorted
    unfold OldestFirst at happend
    rw [← List.take_append_drop (closes.length - RECENT_WINDOW) closes] at happend
    exact (List.pairwise_append.mp happend).2.2
  · dsimp only
    rw [hpnls hfills, hlength, hdrop]
    rfl

end Pnls

/-! ## Two books out of turn -/

section Sample

attribute [local instance] asciiCasing

def bhpFill (side venue currency : String) (price : ℚ) (at_ : Int) : FillRecord :=
  { symbol := "BHP", side, quantity := 10, price, executedAt := some at_, venue, currency }

def overlapping : List FillRecord :=
  [bhpFill "buy" "AU" "AUD" 40 1, bhpFill "buy" "US" "USD" 40 2, bhpFill "sell" "US" "USD" 39 3,
    bhpFill "sell" "AU" "AUD" 41 4]

/-- **The later close is listed first**: its book is. -/
theorem overlapping_not_oldest_first :
    ¬ ∀ (str : Json → String) (o : ClosedOrder) (rows : List ClosingLifecycle)
        (fills : List FillRecord) (lookbackDays now : Int) (symbol : String), fills ≠ [] →
      pnlsOf symbol (symbolClosePnls str o rows fills lookbackDays now) =
        (sortedBy closeTime (knownClosesOf (lookbackStart lookbackDays now) now symbol
          (reconstructFifo fills))).filterMap (·.grossPnl) := by
  intro hall
  have hpnls := hall (fun _ => "") (lastAmong _ fun _ => false) [] overlapping 90 10 "BHP" (by decide)
  revert hpnls
  decide +kernel

end Sample

end Investor.Universe
