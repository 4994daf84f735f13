import Investor.Intraday.SettledPnl

/-!
# The result of a closed lifecycle

When a lifecycle is flat its close is priced from the executions: `_stamp_close_from_fills`
replays the fills of the symbol and sums all the closes since the lifecycle opened. The review
after the trade replays them too, and takes for its gross the one close nearest to the time the
lifecycle closed (`_gross_for_lifecycle`). A position that was sold in parts, or out of several
lots, has more than one close, and the review has then the result of a part for that of the trade.

`review_eq_iff` is the exact condition under which the two agree.
-/

namespace Investor.Intraday

open Lib Market Execution Universe Agents

/-- The columns of a lifecycle that a close reads and writes beside those of the broker sync;
    instants in microseconds. -/
structure ClosingLifecycle extends Lifecycle where
  openedAt : Option Int
  closedAt : Option Int
  realizedPl : ℚ
  metadataJson : Dict Json

/-- What a close is priced from: fills with fees, or fills whose fees are not recorded. -/
inductive CloseBasis
  | fill | fillGross
  deriving DecidableEq

def CloseBasis.value : CloseBasis → String
  | .fill => "fill"
  | .fillGross => "fill_gross"

structure FillClose where
  realized : ℚ
  filledAt : Option Int
  basis : CloseBasis

/-- `stamp_lifecycle_close_pnl`. -/
def stampLifecycleClosePnl (close : Option FillClose) (r : ClosingLifecycle) : ClosingLifecycle :=
  match close with
  | some close =>
    let base := Dict.set (Dict.erase r.metadataJson "pnl_unavailable") "pnl_basis"
      (.str close.basis.value)
    let fees := if close.basis = .fillGross then Dict.set base "fees_unrecorded" (.bool true) else base
    match close.filledAt with
    | some at_ =>
      { r with
        realizedPl := roundTo 4 close.realized, closedAt := some at_
        metadataJson := Dict.set fees "closed_at_source" (.str "fill") }
    | none => { r with realizedPl := roundTo 4 close.realized, metadataJson := fees }
  | none =>
    { r with
      realizedPl := 0
      metadataJson := Dict.erase (Dict.set r.metadataJson "pnl_unavailable" (.str "no_fill"))
        "pnl_basis" }

section Close

def farFrom (target : Int) (c : FifoClose) : Int := |c.closedAt.getD 0 - target|

variable [Casing]

/-! ## The stamp -/

def venueFills (r : ClosingLifecycle) (fills : List FillRecord) : List FillRecord :=
  let venue := Casing.upper r.venue
  if venue ≠ "" ∧ fills.any (·.venue = venue) then fills.filter (·.venue = venue) else fills

def currencyBooks (r : ClosingLifecycle) (books : List FifoBook) : List FifoBook :=
  let currency := Casing.upper (r.currency.getD "")
  if currency ≠ "" ∧ books.any (·.key.currency = currency) then
    books.filter (·.key.currency = currency)
  else books

def stampBooks (r : ClosingLifecycle) (fills : List FillRecord) : List FifoBook :=
  currencyBooks r (reconstructFifo (venueFills r fills)).books

def sinceOpened (r : ClosingLifecycle) (c : FifoClose) : Bool :=
  c.closedAt.any fun at_ => r.openedAt.all (· ≤ at_)

def closesSince (r : ClosingLifecycle) (fills : List FillRecord) : List FifoClose :=
  ((stampBooks r fills).flatMap (·.closes)).filter (sinceOpened r)

def stampedCloses (r : ClosingLifecycle) (fills : List FillRecord) : List FifoClose :=
  (closesSince r fills).filter (·.grossPnl.isSome)

def isPriced (r : ClosingLifecycle) (fills : List FillRecord) : Bool :=
  !(stampedCloses r fills).isEmpty && (closesSince r fills).all (·.grossPnl.isSome)

def lastExit (r : ClosingLifecycle) (fills : List FillRecord) : Option Int :=
  ((stampedCloses r fills).filterMap (·.closedAt)).max?

def fillClose (r : ClosingLifecycle) (fills : List FillRecord) : FillClose :=
  let known := stampedCloses r fills
  let gross := roundTo 4 (grossOf known)
  if known.all (·.fee.isSome) then
    let fee := roundTo 4 (known.filterMap (·.fee)).sum
    { realized := roundTo 4 (gross - fee), filledAt := lastExit r fills, basis := .fill }
  else { realized := gross, filledAt := lastExit r fills, basis := .fillGross }

/-- `_stamp_close_from_fills`. -/
def stampCloseFromFills (observedAt : Int) (r : ClosingLifecycle) (fills : List FillRecord) :
    ClosingLifecycle :=
  if isPriced r fills then stampLifecycleClosePnl (some (fillClose r fills)) r
  else
    let unknown := stampLifecycleClosePnl none r
    { unknown with closedAt := unknown.closedAt.orElse fun _ => some observedAt }

def stampedGross (r : ClosingLifecycle) (fills : List FillRecord) : ℚ := grossOf (stampedCloses r fills)

/-! ## The review -/

def reviewedCloses (symbol : String) (books : List FifoBook) : List FifoClose :=
  ((books.filter (·.key.symbol = Casing.upper symbol)).flatMap (·.closes)).filter fun c =>
    c.grossPnl.isSome && c.closedAt.isSome

/-- `min(items, key=f)`: the first of those with the least value, if there is any. -/
def minBy {α : Type} (f : α → Int) (items : List α) : Option α :=
  @List.argmin α Int Int.instLinearOrder.toPartialOrder.toPreorder Int.instLinearOrder.toDecidableLT
    f items

/-- `_gross_for_lifecycle`. -/
def grossForLifecycle (books : List FifoBook) (r : ClosingLifecycle) : Option ℚ :=
  r.closedAt.bind fun target =>
    (minBy (farFrom target) (reviewedCloses r.symbol books)).bind fun best =>
      if DAY < farFrom target best then none else best.grossPnl

/-- What the review derives of the lifecycle once it is stamped, from the same fills. -/
def review (observedAt : Int) (r : ClosingLifecycle) (fills : List FillRecord) : Option ℚ :=
  grossForLifecycle (reconstructFifo fills).books (stampCloseFromFills observedAt r fills)

end Close

section Agree

variable {r : ClosingLifecycle} {fills : List FillRecord} {observedAt last : Int}
  {c : FifoClose}

/-! ## The time of the stamp -/

theorem mem_stampedCloses [Casing] : c ∈ stampedCloses r fills ↔
    c ∈ (stampBooks r fills).flatMap (·.closes) ∧ sinceOpened r c ∧ c.grossPnl.isSome := by
  unfold stampedCloses closesSince
  rw [List.mem_filter, List.mem_filter, and_assoc]

theorem time_of_stamped [Casing] (h : c ∈ stampedCloses r fills) :
    ∃ at_, c.closedAt = some at_ ∧ ∀ opened ∈ r.openedAt, opened ≤ at_ := by
  obtain ⟨-, hsince, -⟩ := mem_stampedCloses.mp h
  obtain ⟨at_, hat, hopened⟩ := (Option.any_eq_true _ _).mp hsince
  refine ⟨at_, hat, fun opened hmem => ?_⟩
  rw [Option.mem_def.mp hmem] at hopened
  exact of_decide_eq_true hopened

theorem lastExit_spec [Casing] (h : isPriced r fills) : ∃ last, lastExit r fills = some last ∧
    ∃ c ∈ stampedCloses r fills, c.closedAt = some last := by
  obtain ⟨hsome, -⟩ := Bool.and_eq_true_iff.mp h
  have hne : stampedCloses r fills ≠ [] := by simpa using hsome
  obtain ⟨c, hc⟩ := List.exists_mem_of_ne_nil _ hne
  obtain ⟨at_, hat, -⟩ := time_of_stamped hc
  have hmem : at_ ∈ (stampedCloses r fills).filterMap (·.closedAt) :=
    List.mem_filterMap.mpr ⟨c, hc, hat⟩
  cases hlast : lastExit r fills with
  | none =>
    rw [lastExit, List.max?_eq_none_iff] at hlast
    rw [hlast] at hmem
    cases hmem
  | some last =>
    obtain ⟨c, hc, hat⟩ := List.mem_filterMap.mp (List.max?_mem hlast)
    exact ⟨last, rfl, c, hc, hat⟩

theorem stamp_priced [Casing] (h : isPriced r fills) (hlast : lastExit r fills = some last) :
    (stampCloseFromFills observedAt r fills).closedAt = some last ∧
      (stampCloseFromFills observedAt r fills).symbol = r.symbol := by
  have hfilled : (fillClose r fills).filledAt = some last := by
    unfold fillClose
    dsimp only
    split <;> exact hlast
  rw [stampCloseFromFills, if_pos h]
  unfold stampLifecycleClosePnl
  dsimp only
  rw [hfilled]
  exact ⟨rfl, rfl⟩

/-! ## The close that is reviewed -/

structure Nearest (closes : List FifoClose) (target : Int) (c : FifoClose) : Prop where
  mem : c ∈ closes
  nearest : ∀ d ∈ closes, farFrom target c ≤ farFrom target d
  first : ∀ d ∈ closes, farFrom target d ≤ farFrom target c → closes.idxOf c ≤ closes.idxOf d

/-- The close that is reviewed, the one nearest to the last exit among the closes of all books of the
    symbol, is within a day of it and stands for all that were stamped: the other ones come to nothing
    together. A close that was not stamped itself has to bring what they did. -/
structure CarriesAll [Casing] (r : ClosingLifecycle) (fills : List FillRecord) (c : FifoClose) : Prop where
  nearest : ∀ last ∈ lastExit r fills,
    Nearest (reviewedCloses r.symbol (reconstructFifo fills).books) last c ∧ farFrom last c ≤ DAY
  others : c ∈ stampedCloses r fills → grossOf ((stampedCloses r fills).erase c) = 0
  foreign : c ∉ stampedCloses r fills → c.grossPnl = some (stampedGross r fills)

theorem grossOf_erase {closes : List FifoClose} {gross : ℚ} (h : c ∈ closes)
    (hgross : c.grossPnl = some gross) : grossOf closes = gross + grossOf (closes.erase c) := by
  have hperm := (List.perm_cons_erase h).filterMap (·.grossPnl)
  rw [List.filterMap_cons_some hgross] at hperm
  exact hperm.sum_eq.trans List.sum_cons

theorem gross_eq_iff {closes : List FifoClose} (h : c ∈ closes) (hknown : c.grossPnl.isSome) :
    c.grossPnl = some (grossOf closes) ↔ grossOf (closes.erase c) = 0 := by
  obtain ⟨gross, hgross⟩ := Option.isSome_iff_exists.mp hknown
  rw [hgross, Option.some_inj, grossOf_erase h hgross]
  exact left_eq_add

/-- **When the review has the gross of the closes that were stamped.** -/
theorem review_eq_iff [Casing] (observedAt : Int) (r : ClosingLifecycle) (fills : List FillRecord)
    (h : isPriced r fills) : review observedAt r fills = some (stampedGross r fills) ↔
      ∃ c, CarriesAll r fills c := by
  obtain ⟨last, hlast, -⟩ := lastExit_spec h
  obtain ⟨hclosed, hsymbol⟩ := @stamp_priced r fills observedAt last _ h hlast
  unfold review grossForLifecycle
  rw [hclosed, hsymbol, Option.bind_some, Option.bind_eq_some_iff]
  refine exists_congr fun c => ?_
  rw [minBy, List.argmin_eq_some_iff]
  constructor
  · rintro ⟨⟨hmem, hnearest, hfirst⟩, hgross⟩
    by_cases hfar : DAY < farFrom last c
    · rw [if_pos hfar] at hgross
      cases hgross
    · rw [if_neg hfar] at hgross
      refine ⟨fun last' hlast' => ?_, fun hc => ?_, fun _ => hgross⟩
      · cases hlast.symm.trans hlast'
        exact ⟨⟨hmem, hnearest, hfirst⟩, not_lt.mp hfar⟩
      · exact (gross_eq_iff hc (mem_stampedCloses.mp hc).2.2).mp hgross
  · rintro ⟨hnearest, hothers, hforeign⟩
    obtain ⟨⟨hmem, hnearest, hfirst⟩, hfar⟩ := hnearest last hlast
    refine ⟨⟨hmem, hnearest, hfirst⟩, (if_neg (not_lt.mpr hfar)).trans ?_⟩
    by_cases hc : c ∈ stampedCloses r fills
    · exact (gross_eq_iff hc (mem_stampedCloses.mp hc).2.2).mpr (hothers hc)
    · exact hforeign hc

end Agree

/-! ## A position sold out of two lots -/

section Sample

attribute [local instance] asciiCasing

def aaplFill (side : String) (quantity price : ℚ) (at_ : Int) : FillRecord :=
  { symbol := "AAPL", side, quantity, price, executedAt := some at_, venue := "US", currency := "USD" }

def flatAapl : ClosingLifecycle :=
  { id := 1, symbol := "AAPL", status := .closed, quantity := 0, averageEntryPrice := some 100
    currentPrice := none, venue := "US", currency := some "USD", conId := none, stopPrice := none
    protectionSubmitted := false, openedAt := some 0, closedAt := none, realizedPl := 0
    metadataJson := [] }

/-- Ten shares at 100 and ten at 110, all sold at 120: 300 are stamped, and 200 are reviewed. -/
theorem review_takes_one_lot :
    ¬ ∀ (observedAt : Int) (r : ClosingLifecycle) (fills : List FillRecord), isPriced r fills →
      review observedAt r fills = some (stampedGross r fills) := by
  intro h
  have hsame := h 9 flatAapl
    [aaplFill "buy" 10 100 0, aaplFill "buy" 10 110 1, aaplFill "sell" 20 120 2] (by decide +kernel)
  revert hsame
  decide +kernel

/-- One lot that is sold at once. -/
theorem review_eq_one_lot :
    review 9 flatAapl [aaplFill "buy" 10 100 0, aaplFill "sell" 10 120 1] =
      some (stampedGross flatAapl [aaplFill "buy" 10 100 0, aaplFill "sell" 10 120 1]) := by
  refine (review_eq_iff 9 flatAapl _ (by decide +kernel)).mpr ⟨
    matchedClose ⟨"", "US", "USD", "AAPL"⟩ "" (aaplFill "sell" 10 120 1) ⟨10, 100, 0, none⟩ 10,
    ?_, fun _ => by decide +kernel, fun h => absurd (by decide +kernel) h⟩
  have hlast : lastExit flatAapl [aaplFill "buy" 10 100 0, aaplFill "sell" 10 120 1] = some 1 := by
    decide +kernel
  rw [hlast]
  rintro _ ⟨⟩
  exact ⟨⟨by decide +kernel, by decide +kernel, by decide +kernel⟩, by decide +kernel⟩

end Sample

end Investor.Intraday
