import Investor.Intraday.PnlQuantity

/-!
# One fill at a time

`apply_fill_fifo` books a single fill against the lots that remain: a buy adds one, a sale closes the
oldest first. Threaded through the fills of a book it is a second FIFO beside `_fifo_book`, and the
two agree: the lots they hold after each fill are the same but for the fees (`Mirrors`), and so are
what was realized and what was sold out of nothing.

They differ in what is around the loops. `_fifo_book` sorts the fills first, a buy before a sale of
the same time; `apply_fill_fifo` rounds the quantity it could not match to eight places.
-/

namespace Investor.Intraday

open Lib Universe

/-! ## A fill -/

structure Lot where
  quantity : ℚ
  price : ℚ
  openedAt : Int
  deriving DecidableEq

structure PnLResult where
  grossRealizedPl : ℚ
  netRealizedPl : ℚ
  unrealizedPl : ℚ
  fees : ℚ
  estimatedSlippage : ℚ
  returnPct : ℚ
  riskAdjustedReturn : Option ℚ
  method : String
  remainingLots : List Lot
  conflictWithBroker : Bool
  unmatchedQuantity : ℚ
  deriving DecidableEq

/-- The arguments of `apply_fill_fifo`. -/
structure FillArgs where
  side : String
  quantity : ℚ
  price : ℚ
  fee : ℚ := 0
  slippage : ℚ := 0
  markPrice : Option ℚ := none
  equity : ℚ := 25000
  brokerRealized : Option ℚ := none
  executedAt : Option Int := none

/-- The `while` loop of a sale: what is realized, the lots after it and the quantity left. -/
def closeOldest (price : ℚ) : ℚ → List Lot → ℚ × List Lot × ℚ
  | qtyLeft, [] => (0, [], qtyLeft)
  | qtyLeft, lot :: lots =>
    if qtyLeft ≤ DUST then (0, lot :: lots, qtyLeft)
    else
      let take := min lot.quantity qtyLeft
      let realized := (price - lot.price) * take
      if lot.quantity - take ≤ DUST then
        let rest := closeOldest price (qtyLeft - take) lots
        (realized + rest.1, rest.2)
      else
        -- the lot covers the sale, so nothing is left and the loop ends
        (realized, { lot with quantity := lot.quantity - take } :: lots, qtyLeft - take)

/-- What a fill does to the lots, before anything is rounded. -/
structure FillMatch where
  realized : ℚ
  remaining : List Lot
  unmatched : ℚ

def matchFill [Casing] (lots : List Lot) (a : FillArgs) (now : Int) : FillMatch :=
  if Casing.lower a.side = "buy" then
    { realized := 0, remaining := lots ++ [⟨a.quantity, a.price, a.executedAt.getD now⟩]
      unmatched := 0 }
  else
    let sold := closeOldest a.price a.quantity lots
    { realized := sold.1, remaining := sold.2.1
      unmatched := if DUST < sold.2.2 then sold.2.2 else 0 }

/-- `apply_fill_fifo`. -/
def applyFillFifo [Casing] (lots : List Lot) (a : FillArgs) (now : Int) : PnLResult :=
  let m := matchFill lots a now
  let mark := a.markPrice.getD a.price
  let net := m.realized - a.fee - a.slippage
  { grossRealizedPl := roundTo 4 m.realized
    netRealizedPl := roundTo 4 net
    unrealizedPl := roundTo 4 (m.remaining.map fun lot => (mark - lot.price) * lot.quantity).sum
    fees := a.fee
    estimatedSlippage := a.slippage
    returnPct := roundTo 6 (if a.equity ≠ 0 then net / a.equity * 100 else 0)
    riskAdjustedReturn := none
    method := "FIFO"
    remainingLots := m.remaining
    conflictWithBroker := a.brokerRealized.any fun told => decide (1 / 100 < |told - m.realized|)
    unmatchedQuantity := roundTo 8 m.unmatched }

/-! ## A list of fills -/

def FillRecord.args (f : FillRecord) : FillArgs :=
  { side := f.side, quantity := f.quantity, price := f.price, fee := f.fee.getD 0
    executedAt := some f.when }

/-- The lots that remain, what was realized and what was not matched so far, and the results. -/
structure FifoFold where
  lots : List Lot := []
  realized : ℚ := 0
  unmatched : ℚ := 0
  results : List PnLResult := []

def applyNext [Casing] (now : Int) (s : FifoFold) (f : FillRecord) : FifoFold :=
  let m := matchFill s.lots f.args now
  let result := applyFillFifo s.lots f.args now
  { lots := result.remainingLots, realized := s.realized + m.realized
    unmatched := s.unmatched + m.unmatched, results := s.results ++ [result] }

def applyFills [Casing] (now : Int) (fills : List FillRecord) : FifoFold :=
  fills.foldl (applyNext now) {}

/-! ## One sale -/

def OpenLot.toLot (lot : OpenLot) : Lot := ⟨lot.quantity, lot.price, lot.openedAt⟩

/-- What a close brought, before it is rounded; nothing where the entry is not known. -/
def FifoClose.exactGross (c : FifoClose) : ℚ :=
  ((c.exitPrice.bind fun exit => c.entryPrice.map fun entry => exit - entry).getD 0) * c.quantity

def exactGross (closes : List FifoClose) : ℚ := (closes.map FifoClose.exactGross).sum

@[simp] theorem exactGross_nil : exactGross [] = 0 := rfl

@[simp] theorem exactGross_cons (c : FifoClose) (cs : List FifoClose) :
    exactGross (c :: cs) = c.exactGross + exactGross cs := by simp [exactGross]

@[simp] theorem exactGross_append (xs ys : List FifoClose) :
    exactGross (xs ++ ys) = exactGross xs + exactGross ys := by simp [exactGross]

section Sale

variable {key : BookKey} {exchange : String} {f : FillRecord} {lot : OpenLot} {qty : ℚ}
  {lots : List OpenLot}

theorem exactGross_matched :
    (matchedClose key exchange f lot qty).exactGross = (f.price - lot.price) * qty := rfl

theorem exactGross_unknown : (unknownClose key exchange f qty).exactGross = 0 := zero_mul qty

theorem closeOldest_toLot (qty : ℚ) (lots : List OpenLot) :
    closeOldest f.price qty (lots.map OpenLot.toLot) =
      (exactGross (closeLots key exchange f qty lots).1,
        (closeLots key exchange f qty lots).2.1.map OpenLot.toLot,
        (closeLots key exchange f qty lots).2.2) := by
  induction lots generalizing qty with
  | nil => rfl
  | cons lot lots ih =>
    rw [List.map_cons]
    unfold closeOldest closeLots
    by_cases hdust : qty ≤ DUST
    · rw [if_pos hdust, if_pos hdust]
      rfl
    · rw [if_neg hdust, if_neg hdust]
      dsimp only
      by_cases hpop : lot.quantity - min lot.quantity qty ≤ DUST
      · rw [if_pos hpop, if_pos (show lot.toLot.quantity - min lot.toLot.quantity qty ≤ DUST from hpop)]
        rw [exactGross_cons, exactGross_matched]
        have hrest := ih (qty - min lot.quantity qty)
        rw [show lot.toLot.quantity = lot.quantity from rfl, hrest]
        rfl
      · rw [if_neg hpop, if_neg (show ¬ lot.toLot.quantity - min lot.toLot.quantity qty ≤ DUST from hpop)]
        rw [exactGross_cons, exactGross_matched, exactGross_nil, add_zero]
        rfl

end Sale

/-! ## The replay -/

def roundedUnknown (closes : List FifoClose) : ℚ :=
  (closes.map fun c => if c.basis = .unknownOpeningInventory then roundTo 8 c.quantity else 0).sum

structure MirrorsBook (s : FifoFold) (b : BookState) : Prop where
  lots : s.lots = b.lots.map OpenLot.toLot
  realized : s.realized = exactGross b.closes
  unmatched : s.unmatched = closedQty .unknownOpeningInventory b.closes
  reported : (s.results.map (·.unmatchedQuantity)).sum = roundedUnknown b.closes

section Replay

variable {key : BookKey} {exchange : String} {f : FillRecord} {now : Int} {s : FifoFold}
  {b : BookState}

theorem lower_side [Casing] (hside : f.side = "buy" ∨ f.side = "sell") :
    Casing.lower f.side = "buy" ↔ f.side = "buy" := by
  have hlower : Casing.lower f.side = f.side := by
    rcases hside with h | h
    · rw [h]
      exact Casing.lower_ascii _ (by decide)
    · rw [h]
      exact Casing.lower_ascii _ (by decide)
  rw [hlower]

theorem closeLots_known (key : BookKey) (exchange : String) (f : FillRecord) (qty : ℚ)
    (lots : List OpenLot) : ∀ c ∈ (closeLots key exchange f qty lots).1, c.basis = .fill := by
  induction lots generalizing qty with
  | nil => exact fun c hc => absurd hc List.not_mem_nil
  | cons lot lots ih =>
    unfold closeLots
    split
    · exact fun c hc => absurd hc List.not_mem_nil
    · dsimp only
      split
      · intro c hc
        rcases List.mem_cons.mp hc with rfl | hc
        · rfl
        · exact ih _ c hc
      · intro c hc
        rw [List.mem_singleton.mp hc]
        rfl

theorem sum_known {closes : List FifoClose} (h : ∀ c ∈ closes, c.basis = .fill)
    (g : FifoClose → ℚ) :
    (closes.map fun c => if c.basis = .unknownOpeningInventory then g c else 0).sum = 0 := by
  refine List.sum_eq_zero fun x hx => ?_
  obtain ⟨c, hc, rfl⟩ := List.mem_map.mp hx
  rw [h c hc]
  rfl

theorem reported_next [Casing] : ((applyNext now s f).results.map (·.unmatchedQuantity)).sum =
    (s.results.map (·.unmatchedQuantity)).sum + roundTo 8 (matchFill s.lots f.args now).unmatched := by
  simp [applyNext, applyFillFifo]

theorem roundTo_zero (places : ℕ) : roundTo places 0 = 0 := roundTo_of_onGrid (onGrid_zero places)

theorem roundedUnknown_append (xs ys : List FifoClose) :
    roundedUnknown (xs ++ ys) = roundedUnknown xs + roundedUnknown ys := by
  simp [roundedUnknown]

theorem mirrors_buy [Casing] (h : MirrorsBook s b) (hlower : Casing.lower f.side = "buy")
    (hbuy : f.side = "buy") : MirrorsBook (applyNext now s f) (replayFill key exchange b f) := by
  have hmatch : matchFill s.lots f.args now =
      { realized := 0, remaining := s.lots ++ [⟨f.quantity, f.price, f.when⟩], unmatched := 0 } :=
    if_pos hlower
  have hreplay : replayFill key exchange b f = { b with lots := b.lots ++ [buyLot f] } := if_pos hbuy
  rw [hreplay]
  refine ⟨?_, ?_, ?_, ?_⟩
  · show (matchFill s.lots f.args now).remaining = _
    rw [hmatch, List.map_append, ← h.lots]
    rfl
  · show s.realized + (matchFill s.lots f.args now).realized = _
    rw [hmatch, add_zero, h.realized]
  · show s.unmatched + (matchFill s.lots f.args now).unmatched = _
    rw [hmatch, add_zero, h.unmatched]
  · rw [reported_next, hmatch, roundTo_zero, add_zero, h.reported]

theorem mirrors_sell [Casing] (h : MirrorsBook s b) (hlower : Casing.lower f.side ≠ "buy")
    (hsell : f.side ≠ "buy") : MirrorsBook (applyNext now s f) (replayFill key exchange b f) := by
  have hsold := @closeOldest_toLot key exchange f f.quantity b.lots
  have hknown := closeLots_known key exchange f f.quantity b.lots
  have hmatch : matchFill s.lots f.args now =
      { realized := exactGross (closeLots key exchange f f.quantity b.lots).1
        remaining := (closeLots key exchange f f.quantity b.lots).2.1.map OpenLot.toLot
        unmatched := if DUST < (closeLots key exchange f f.quantity b.lots).2.2 then
          (closeLots key exchange f f.quantity b.lots).2.2 else 0 } := by
    have hargs : closeOldest f.args.price f.args.quantity s.lots =
        closeOldest f.price f.quantity (b.lots.map OpenLot.toLot) := by
      rw [h.lots]
      rfl
    refine (if_neg hlower).trans ?_
    rw [hargs, hsold]
  have hreplay : replayFill key exchange b f =
      { lots := (closeLots key exchange f f.quantity b.lots).2.1
        closes := b.closes ++ (closeLots key exchange f f.quantity b.lots).1 ++
          if DUST < (closeLots key exchange f f.quantity b.lots).2.2 then
            [unknownClose key exchange f (closeLots key exchange f f.quantity b.lots).2.2]
          else [] } := if_neg hsell
  have hclosed : closedQty .unknownOpeningInventory (closeLots key exchange f f.quantity b.lots).1 = 0 :=
    sum_known hknown _
  have hrounded : roundedUnknown (closeLots key exchange f f.quantity b.lots).1 = 0 :=
    sum_known hknown _
  rw [hreplay]
  generalize closeLots key exchange f f.quantity b.lots = sold at hmatch hclosed hrounded
  refine ⟨?_, ?_, ?_, ?_⟩
  · show (matchFill s.lots f.args now).remaining = _
    rw [hmatch]
  · show s.realized + (matchFill s.lots f.args now).realized = _
    rw [hmatch, exactGross_append, exactGross_append, h.realized]
    split
    · rw [exactGross_cons, exactGross_unknown, exactGross_nil, add_zero, add_zero]
    · rw [exactGross_nil, add_zero]
  · show s.unmatched + (matchFill s.lots f.args now).unmatched = _
    rw [hmatch, closedQty_append, closedQty_append, h.unmatched, hclosed, add_zero]
    dsimp only
    split
    · rw [closedQty_cons, closedQty_nil, add_zero]
      rfl
    · rw [closedQty_nil]
  · rw [reported_next, hmatch, roundedUnknown_append, roundedUnknown_append, h.reported, hrounded,
      add_zero]
    dsimp only
    split
    · simp [roundedUnknown, unknownClose]
    · rw [roundTo_zero]
      rfl

theorem mirrors_foldl [Casing] {fills : List FillRecord} (h : MirrorsBook s b)
    (hsides : ∀ f ∈ fills, f.side = "buy" ∨ f.side = "sell") :
    MirrorsBook (fills.foldl (applyNext now) s) (fills.foldl (replayFill key exchange) b) := by
  induction fills generalizing s b with
  | nil => exact h
  | cons f fills ih =>
    refine ih ?_ fun g hg => hsides g (List.mem_cons_of_mem _ hg)
    have hlower := lower_side (hsides f List.mem_cons_self)
    by_cases hbuy : f.side = "buy"
    · exact mirrors_buy h (hlower.mpr hbuy) hbuy
    · exact mirrors_sell h (fun heq => hbuy (hlower.mp heq)) hbuy

end Replay

/-- **Booking the fills one at a time, in the order a book replays them, comes to the book**: the
    same lots, the same gross before it is rounded, and the same quantity without a lot, of which
    each result reports its part to eight places. -/
theorem applyFills_fifoBook [Casing] (key : BookKey) (exchange : String) (now : Int)
    (items : List FillRecord) (hsides : ∀ f ∈ items, f.side = "buy" ∨ f.side = "sell") :
    (applyFills now (sortedBy FillRecord.sortKey items)).lots =
        (fifoBook key exchange items).openLots.map OpenLot.toLot ∧
      (applyFills now (sortedBy FillRecord.sortKey items)).realized =
        exactGross (fifoBook key exchange items).closes ∧
      (applyFills now (sortedBy FillRecord.sortKey items)).unmatched =
        closedQty .unknownOpeningInventory (fifoBook key exchange items).closes ∧
      ((applyFills now (sortedBy FillRecord.sortKey items)).results.map (·.unmatchedQuantity)).sum =
        roundedUnknown (fifoBook key exchange items).closes := by
  have hempty : MirrorsBook {} {} := ⟨rfl, rfl, rfl, rfl⟩
  have hmirrors := @mirrors_foldl key exchange now {} {} _ (sortedBy FillRecord.sortKey items) hempty
    fun f hf => hsides f ((sortedBy_perm FillRecord.sortKey items).mem_iff.mp hf)
  exact ⟨hmirrors.lots, hmirrors.realized, hmirrors.unmatched, hmirrors.reported⟩

/-! ## Fills of one time, and a small one -/

section Sample

attribute [local instance] asciiCasing

/-- A sale and a buy of one time are matched by the book alone; and of a sale out of nothing too
    little may be left to be reported. -/
theorem fifo_loops_differ :
    (¬ ∀ items : List FillRecord, (items.map FillRecord.when).Pairwise (· ≤ ·) →
        (∀ f ∈ items, (f.side = "buy" ∨ f.side = "sell") ∧ 0 < f.quantity ∧ 0 < f.price) →
        (applyFills 0 items).lots = (fifoBook aaplBook "" items).openLots.map OpenLot.toLot) ∧
      ¬ ∀ items : List FillRecord, (items.map FillRecord.when).Pairwise (· ≤ ·) →
        (∀ f ∈ items, (f.side = "buy" ∨ f.side = "sell") ∧ 0 < f.quantity ∧ 0 < f.price) →
        ((applyFills 0 items).results.map (·.unmatchedQuantity)).sum =
          closedQty .unknownOpeningInventory (fifoBook aaplBook "" items).closes := by
  constructor
  · intro h
    have hlots := h [fillAt "sell" 10 100, fillAt "buy" 10 100] (by decide) (by decide +kernel)
    revert hlots
    decide +kernel
  · intro h
    have hsum := h [fillAt "sell" (1 / 10 ^ 9) 100] (by decide) (by decide +kernel)
    revert hsum
    decide +kernel

/-- Two lots and a sale that closes one of them and part of the other. -/
theorem applyFills_fifoBook_aapl :
    (applyFills 0 (sortedBy FillRecord.sortKey
        [fillAt "buy" 10 100, fillAt "buy" 5 110, fillAt "sell" 12 120])).lots =
      (fifoBook aaplBook "" [fillAt "buy" 10 100, fillAt "buy" 5 110,
        fillAt "sell" 12 120]).openLots.map OpenLot.toLot :=
  (applyFills_fifoBook aaplBook "" 0 [fillAt "buy" 10 100, fillAt "buy" 5 110, fillAt "sell" 12 120]
    (by decide)).1

end Sample

end Investor.Intraday
