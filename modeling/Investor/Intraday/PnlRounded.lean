import Investor.Intraday.Pnl

/-!
# The execution FIFO in an arithmetic

`_fifo_book` works in doubles: what is left of a lot and of a sale is rounded, and so are the fees.
Its functions are told once more over a `Rounding`; without rounding they are those of the exact
model (`reconstructFifo_exact`). A quantity is a double, and no double lies between the constant
`1e-12` and `DUST`, so the tests are the same.

The lots and closes do not say which fills they are of, so the replay is told with lots that keep
their buy (`tracedBook`), and forgetting the fills gives the book (`fifoBook_traced`). On the trace
one invariant carries the quantities and the fees: let each share of a fill weigh what one likes,
then what goes in is in the parts that were sold and in the lots, but for the dust and one rounding
a part (`Weighed`).
-/

namespace Investor.Intraday.Rounded

open Lib Universe

/-! ## The book -/

section Arithmetic

variable (r : Rounding)

def buyLot (f : FillRecord) : OpenLot :=
  { Intraday.buyLot f with feePerShare := (Intraday.buyLot f).feePerShare.map r.fl }

/-- The fee of a close, before it is rounded to four places. -/
def closeFee (f : FillRecord) (lot : OpenLot) (take : ℚ) : Option ℚ :=
  let buyFee := lot.feePerShare.map fun fee => r.fl (fee * take)
  let sellFee :=
    if 0 < f.quantity then f.fee.map fun fee => r.fl (fee * r.fl (take / f.quantity)) else none
  buyFee.bind fun b => sellFee.map fun s => r.fl (b + s)

def matchedClose (key : BookKey) (exchange : String) (f : FillRecord) (lot : OpenLot) (take : ℚ) :
    FifoClose :=
  { Intraday.matchedClose key exchange f lot take with
    grossPnl := some (r.fl (roundTo 4 (r.fl (r.fl (f.price - lot.price) * take))))
    fee := (closeFee r f lot take).map fun fee => r.fl (roundTo 4 fee) }

def closeLots (key : BookKey) (exchange : String) (f : FillRecord) :
    ℚ → List OpenLot → List FifoClose × List OpenLot × ℚ
  | qtyLeft, [] => ([], [], qtyLeft)
  | qtyLeft, lot :: lots =>
    if qtyLeft ≤ DUST then ([], lot :: lots, qtyLeft)
    else
      let take := min lot.quantity qtyLeft
      let left := r.fl (lot.quantity - take)
      let close := matchedClose r key exchange f lot take
      if left ≤ DUST then
        let rest := closeLots key exchange f (r.fl (qtyLeft - take)) lots
        (close :: rest.1, rest.2)
      else ([close], { lot with quantity := left } :: lots, r.fl (qtyLeft - take))

def replayFill (key : BookKey) (exchange : String) (s : BookState) (f : FillRecord) : BookState :=
  if f.side = "buy" then { s with lots := s.lots ++ [buyLot r f] }
  else
    let sold := closeLots r key exchange f f.quantity s.lots
    let unknown := if DUST < sold.2.2 then [unknownClose key exchange f sold.2.2] else []
    { lots := sold.2.1, closes := s.closes ++ sold.1 ++ unknown }

def fifoBook (key : BookKey) (exchange : String) (items : List FillRecord) : FifoBook :=
  let s := (sortedBy FillRecord.sortKey items).foldl (replayFill r key exchange) {}
  { key, exchange, closes := s.closes, openLots := s.lots }

def bookOf (b : BookItems) : FifoBook := fifoBook r b.key b.exchange b.items

def reconstructFifo [Casing] (fills : List FillRecord) : FifoLedger :=
  { books := sortedBy FifoBook.sortKey ((bookItems fills).map (bookOf r))
    skippedFills := (fills.filter isSkipped).length }

end Arithmetic

theorem buyLot_exact : buyLot .exact = Intraday.buyLot := by
  funext f
  unfold buyLot
  rw [show Rounding.exact.fl = id from rfl, Option.map_id]
  rfl

theorem closeLots_exact : closeLots .exact = Intraday.closeLots := by
  funext key exchange f qty lots
  induction lots generalizing qty with
  | nil => rfl
  | cons lot lots ih =>
    unfold closeLots Intraday.closeLots
    simp only [ih]
    rfl

/-- **Without rounding it is the book of the exact model.** -/
theorem fifoBook_exact : fifoBook .exact = Intraday.fifoBook := by
  have hreplay : replayFill .exact = Intraday.replayFill := by
    funext key exchange s f
    unfold replayFill Intraday.replayFill
    rw [buyLot_exact, closeLots_exact]
  funext key exchange items
  unfold fifoBook Intraday.fifoBook
  rw [hreplay]

theorem reconstructFifo_exact [Casing] (fills : List FillRecord) :
    reconstructFifo .exact fills = Intraday.reconstructFifo fills := by
  unfold reconstructFifo Intraday.reconstructFifo bookOf BookItems.book
  rw [fifoBook_exact]

/-! ## Lots that keep their buy -/

structure HeldLot where
  buy : FillRecord
  quantity : ℚ
  deriving DecidableEq

inductive SoldPart
  | matched (buy sell : FillRecord) (quantity : ℚ)
  | unmatched (sell : FillRecord) (quantity : ℚ)
  deriving DecidableEq

structure BookTrace where
  lots : List HeldLot := []
  parts : List SoldPart := []

section Trace

variable (r : Rounding)

def HeldLot.lot (l : HeldLot) : OpenLot := { buyLot r l.buy with quantity := l.quantity }

def SoldPart.close (key : BookKey) (exchange : String) : SoldPart → FifoClose
  | .matched buy sell quantity => matchedClose r key exchange sell (buyLot r buy) quantity
  | .unmatched sell quantity => unknownClose key exchange sell quantity

/-- `closeLots`, where the lots keep their buy. -/
def sellHeld (sell : FillRecord) : ℚ → List HeldLot → List SoldPart × List HeldLot × ℚ
  | qtyLeft, [] => ([], [], qtyLeft)
  | qtyLeft, l :: lots =>
    if qtyLeft ≤ DUST then ([], l :: lots, qtyLeft)
    else
      let take := min l.quantity qtyLeft
      let left := r.fl (l.quantity - take)
      let part := SoldPart.matched l.buy sell take
      if left ≤ DUST then
        let rest := sellHeld sell (r.fl (qtyLeft - take)) lots
        (part :: rest.1, rest.2)
      else ([part], { l with quantity := left } :: lots, r.fl (qtyLeft - take))

/-- What is left of a sale and counts. -/
def unmatchedPart (sell : FillRecord) (left : ℚ) : List SoldPart :=
  if DUST < left then [.unmatched sell left] else []

/-- `replayFill`, where the lots keep their buy. -/
def traceFill (s : BookTrace) (f : FillRecord) : BookTrace :=
  if f.side = "buy" then { s with lots := s.lots ++ [⟨f, f.quantity⟩] }
  else
    let sold := sellHeld r f f.quantity s.lots
    { lots := sold.2.1, parts := s.parts ++ sold.1 ++ unmatchedPart f sold.2.2 }

def tracedBook (items : List FillRecord) : BookTrace :=
  (sortedBy FillRecord.sortKey items).foldl (traceFill r) {}

def BookTrace.state (key : BookKey) (exchange : String) (s : BookTrace) : BookState :=
  { lots := s.lots.map (HeldLot.lot r), closes := s.parts.map (SoldPart.close r key exchange) }

variable {key : BookKey} {exchange : String}

theorem closeLots_lot (f : FillRecord) (qty : ℚ) (lots : List HeldLot) :
    closeLots r key exchange f qty (lots.map (HeldLot.lot r)) =
      ((sellHeld r f qty lots).1.map (SoldPart.close r key exchange),
        (sellHeld r f qty lots).2.1.map (HeldLot.lot r), (sellHeld r f qty lots).2.2) := by
  induction lots generalizing qty with
  | nil => rfl
  | cons l lots ih =>
    rw [List.map_cons]
    unfold closeLots sellHeld
    by_cases hdust : qty ≤ DUST
    · rw [if_pos hdust, if_pos hdust]
      rfl
    · rw [if_neg hdust, if_neg hdust]
      dsimp only
      rw [show (l.lot r).quantity = l.quantity from rfl]
      by_cases hpop : r.fl (l.quantity - min l.quantity qty) ≤ DUST
      · rw [if_pos hpop, if_pos hpop, ih]
        rfl
      · rw [if_neg hpop, if_neg hpop]
        rfl

theorem replayFill_state (s : BookTrace) (f : FillRecord) :
    replayFill r key exchange (s.state r key exchange) f =
      (traceFill r s f).state r key exchange := by
  unfold replayFill traceFill unmatchedPart
  by_cases hbuy : f.side = "buy"
  · rw [if_pos hbuy, if_pos hbuy]
    simp [BookTrace.state, HeldLot.lot, buyLot, Intraday.buyLot]
  · rw [if_neg hbuy, if_neg hbuy]
    simp only [BookTrace.state, closeLots_lot]
    by_cases hdust : DUST < (sellHeld r f f.quantity s.lots).2.2
    · simp [hdust, SoldPart.close]
    · simp [hdust]

theorem fifoBook_traced (key : BookKey) (exchange : String) (items : List FillRecord) :
    fifoBook r key exchange items =
      { key, exchange, closes := (tracedBook r items).parts.map (SoldPart.close r key exchange)
        openLots := (tracedBook r items).lots.map (HeldLot.lot r) } := by
  have hfold : ∀ (fills : List FillRecord) (s : BookTrace),
      fills.foldl (replayFill r key exchange) (s.state r key exchange) =
        (fills.foldl (traceFill r) s).state r key exchange := by
    intro fills
    induction fills with
    | nil => exact fun s => rfl
    | cons f fills ih =>
      intro s
      rw [List.foldl_cons, List.foldl_cons, replayFill_state, ih]
  unfold fifoBook
  have hrun := hfold (sortedBy FillRecord.sortKey items) {}
  rw [show (BookTrace.state r key exchange {}) = {} from rfl] at hrun
  rw [hrun]
  rfl

end Trace

/-! ## The fills of the trace are the book's -/

def IsBuy (fills : List FillRecord) (f : FillRecord) : Prop := f ∈ fills ∧ f.side = "buy"

def IsSale (fills : List FillRecord) (f : FillRecord) : Prop := f ∈ fills ∧ f.side ≠ "buy"

/-- The part is of a sale of the list, and if it is matched of a buy and at most so large. -/
def SoldPart.Of (most : ℚ) (fills : List FillRecord) : SoldPart → Prop
  | .matched buy sell quantity =>
    IsBuy fills buy ∧ IsSale fills sell ∧ 0 ≤ quantity ∧ quantity ≤ most
  | .unmatched sell _ => IsSale fills sell

theorem SoldPart.Of.mono {most : ℚ} {xs ys : List FillRecord} (hsub : ∀ f ∈ xs, f ∈ ys)
    {p : SoldPart} (h : p.Of most xs) : p.Of most ys := by
  cases p with
  | matched buy sell quantity =>
    exact ⟨⟨hsub _ h.1.1, h.1.2⟩, ⟨hsub _ h.2.1.1, h.2.1.2⟩, h.2.2⟩
  | unmatched sell quantity => exact ⟨hsub _ h.1, h.2⟩

/-! ## Weights -/

section Weights

variable (w : FillRecord → ℚ)

def SoldPart.weight : SoldPart → ℚ
  | .matched buy sell quantity => (w buy + w sell) * quantity
  | .unmatched sell quantity => w sell * quantity

def partsWeight (parts : List SoldPart) : ℚ := (parts.map (SoldPart.weight w)).sum

def lotsWeight (lots : List HeldLot) : ℚ := (lots.map fun l => w l.buy * l.quantity).sum

def fillsWeight (fills : List FillRecord) : ℚ := (fills.map fun f => w f * f.quantity).sum

/-- What `DUST` shares of each fill weigh. -/
def dustWeight (fills : List FillRecord) : ℚ := (fills.map fun f => DUST * |w f|).sum

def lotsDust (lots : List HeldLot) : ℚ := dustWeight w (lots.map (·.buy))

@[simp] theorem partsWeight_nil : partsWeight w [] = 0 := rfl

@[simp] theorem partsWeight_cons (p : SoldPart) (ps : List SoldPart) :
    partsWeight w (p :: ps) = p.weight w + partsWeight w ps := by simp [partsWeight]

@[simp] theorem partsWeight_append (xs ys : List SoldPart) :
    partsWeight w (xs ++ ys) = partsWeight w xs + partsWeight w ys := by simp [partsWeight]

@[simp] theorem lotsWeight_cons (l : HeldLot) (lots : List HeldLot) :
    lotsWeight w (l :: lots) = w l.buy * l.quantity + lotsWeight w lots := by simp [lotsWeight]

@[simp] theorem lotsWeight_concat (lots : List HeldLot) (l : HeldLot) :
    lotsWeight w (lots ++ [l]) = lotsWeight w lots + w l.buy * l.quantity := by simp [lotsWeight]

@[simp] theorem fillsWeight_concat (fills : List FillRecord) (f : FillRecord) :
    fillsWeight w (fills ++ [f]) = fillsWeight w fills + w f * f.quantity := by simp [fillsWeight]

@[simp] theorem dustWeight_concat (fills : List FillRecord) (f : FillRecord) :
    dustWeight w (fills ++ [f]) = dustWeight w fills + DUST * |w f| := by simp [dustWeight]

@[simp] theorem lotsDust_cons (l : HeldLot) (lots : List HeldLot) :
    lotsDust w (l :: lots) = DUST * |w l.buy| + lotsDust w lots := by simp [lotsDust, dustWeight]

@[simp] theorem lotsDust_concat (lots : List HeldLot) (l : HeldLot) :
    lotsDust w (lots ++ [l]) = lotsDust w lots + DUST * |w l.buy| := by simp [lotsDust]

theorem lotsDust_nonneg (lots : List HeldLot) : 0 ≤ lotsDust w lots := by
  refine List.sum_nonneg fun x hx => ?_
  obtain ⟨f, -, rfl⟩ := List.mem_map.mp hx
  exact mul_nonneg (by norm_num [DUST]) (abs_nonneg _)

end Weights

section Weighing

variable {r : Rounding} {w : FillRecord → ℚ} {most heavy : ℚ} {f : FillRecord}

/-- A fill of the book: its quantity is not negative and at most the largest, its share at most the
    heaviest. -/
structure Fits (w : FillRecord → ℚ) (most heavy : ℚ) (f : FillRecord) (quantity : ℚ) : Prop where
  nonneg : 0 ≤ quantity
  most : quantity ≤ most
  heavy : |w f| ≤ heavy

/-- One subtraction of the two is not exact, and the rest of a lot that is dropped is dust. -/
theorem lost_le {b : FillRecord} {a q : ℚ} (hlot : Fits w most heavy b a)
    (hsale : Fits w most heavy f q) (hpop : r.fl (a - min a q) ≤ DUST) :
    |w b * (a - min a q) + w f * (q - min a q - r.fl (q - min a q))| ≤
      DUST * |w b| + r.unit * most * heavy := by
  have hunit : 0 ≤ r.unit * most := mul_nonneg r.unit_nonneg (hlot.nonneg.trans hlot.most)
  rcases le_total a q with haq | hqa
  · rw [min_eq_left haq, sub_self, mul_zero, zero_add, abs_mul, abs_sub_comm]
    have hnear := r.near_of_le (sub_nonneg.mpr haq) ((sub_le_self q hlot.nonneg).trans hsale.most)
    have hdust : 0 ≤ DUST * |w b| := mul_nonneg (by norm_num [DUST]) (abs_nonneg _)
    have hmul := mul_le_mul hsale.heavy hnear (abs_nonneg _) ((abs_nonneg _).trans hsale.heavy)
    linarith
  · rw [min_eq_right hqa] at hpop ⊢
    rw [sub_self, r.fl_zero, sub_zero, mul_zero, add_zero, abs_mul,
      abs_of_nonneg (sub_nonneg.mpr hqa)]
    have hnear := abs_le.mp (r.near_of_le (sub_nonneg.mpr hqa)
      ((sub_le_self a hsale.nonneg).trans hlot.most))
    have hrest : a - q ≤ DUST + r.unit * most := by linarith [hnear.1]
    have hmul := mul_le_mul_of_nonneg_left hrest (abs_nonneg (w b))
    have hheavy := mul_le_mul_of_nonneg_right hlot.heavy hunit
    linarith

/-- **What a sale takes from the lots**, with its parts, its lots and what is left of it: the
    weights are kept but for the dust of the lots that are dropped and one rounding a part. -/
structure Sells (r : Rounding) (w : FillRecord → ℚ) (most heavy : ℚ) (f : FillRecord) (qty : ℚ)
    (lots : List HeldLot) (res : List SoldPart × List HeldLot × ℚ) : Prop where
  left : 0 ≤ res.2.2
  fits : ∀ l ∈ res.2.1, Fits w most heavy l.buy l.quantity
  held : ∀ l ∈ res.2.1, ∃ l' ∈ lots, l.buy = l'.buy
  sold : ∀ p ∈ res.1, ∃ l ∈ lots, ∃ q, (0 ≤ q ∧ q ≤ most) ∧ p = .matched l.buy f q
  count : res.1.length + (unmatchedPart f res.2.2).length + res.2.1.length ≤ lots.length + 1
  kept : |lotsWeight w lots + w f * qty -
      (partsWeight w res.1 + lotsWeight w res.2.1 + w f * res.2.2)| ≤
    lotsDust w lots - lotsDust w res.2.1 + r.unit * most * heavy * res.1.length

theorem sellHeld_sells (hmost : r.fl most = most) {qty : ℚ} {lots : List HeldLot}
    (hsale : Fits w most heavy f qty) (hlots : ∀ l ∈ lots, Fits w most heavy l.buy l.quantity) :
    Sells r w most heavy f qty lots (sellHeld r f qty lots) := by
  induction lots generalizing qty with
  | nil =>
    refine ⟨hsale.nonneg, hlots, fun l hl => ⟨l, hl, rfl⟩, by simp [sellHeld], ?_,
      by simp [sellHeld]⟩
    unfold sellHeld unmatchedPart
    split <;> simp
  | cons l lots ih =>
    have hlot := hlots l (List.mem_cons_self ..)
    have htail := fun l' hl' => hlots l' (List.mem_cons_of_mem l hl')
    have hunit : 0 ≤ r.unit * most := mul_nonneg r.unit_nonneg (hlot.nonneg.trans hlot.most)
    unfold sellHeld
    by_cases hdone : qty ≤ DUST
    · rw [if_pos hdone]
      refine ⟨hsale.nonneg, hlots, fun l hl => ⟨l, hl, rfl⟩, by simp, ?_, by simp⟩
      simp [unmatchedPart, not_lt.mpr hdone]
    rw [if_neg hdone]
    have htake : 0 ≤ min l.quantity qty ∧ min l.quantity qty ≤ most :=
      ⟨le_min hlot.nonneg hsale.nonneg, (min_le_left ..).trans hlot.most⟩
    have hleft : ∀ {a : ℚ}, 0 ≤ a → a ≤ most → 0 ≤ r.fl a ∧ r.fl a ≤ most := fun h0 h1 =>
      ⟨r.fl_nonneg h0, hmost ▸ r.mono _ _ h1⟩
    by_cases hpop : r.fl (l.quantity - min l.quantity qty) ≤ DUST
    · -- the lot is dropped, and the sale goes on
      simp only [if_pos hpop]
      have hnext := hleft (sub_nonneg.mpr (min_le_right l.quantity qty))
        ((sub_le_self qty htake.1).trans hsale.most)
      obtain ⟨hrest, hfits, hheld, hsold, hcount, hkept⟩ :=
        ih ⟨hnext.1, hnext.2, hsale.heavy⟩ htail
      have hlost := lost_le hlot hsale hpop
      generalize sellHeld r f _ lots = rest at hrest hfits hheld hsold hcount hkept
      refine ⟨hrest, hfits, fun l' hl' => ?_, List.forall_mem_cons.mpr
        ⟨⟨l, List.mem_cons_self .., _, htake, rfl⟩, fun p hp => ?_⟩, ?_, ?_⟩
      · obtain ⟨k, hk, hbuy⟩ := hheld l' hl'
        exact ⟨k, List.mem_cons_of_mem l hk, hbuy⟩
      · obtain ⟨k, hk, hpart⟩ := hsold p hp
        exact ⟨k, List.mem_cons_of_mem l hk, hpart⟩
      · simp only [List.length_cons]
        omega
      · simp only [lotsWeight_cons, lotsDust_cons, partsWeight_cons, SoldPart.weight,
          List.length_cons, Nat.cast_add, Nat.cast_one, mul_add, mul_one]
        rw [abs_le] at hlost hkept ⊢
        constructor <;> linarith [hlost.1, hlost.2, hkept.1, hkept.2]
    · -- the lot covers the sale, so nothing is left of that
      simp only [if_neg hpop]
      have hqty : qty ≤ l.quantity := by
        by_contra hlt
        rw [min_eq_left (not_le.mp hlt).le, sub_self, r.fl_zero] at hpop
        exact hpop (by norm_num [DUST])
      rw [min_eq_right hqty, sub_self, r.fl_zero]
      have hnew := hleft (sub_nonneg.mpr hqty) ((sub_le_self _ hsale.nonneg).trans hlot.most)
      have hnear := abs_le.mp (r.near_of_le (sub_nonneg.mpr hqty)
        ((sub_le_self _ hsale.nonneg).trans hlot.most))
      refine ⟨le_refl 0, List.forall_mem_cons.mpr ⟨⟨hnew.1, hnew.2, hlot.heavy⟩, htail⟩,
        List.forall_mem_cons.mpr ⟨⟨l, List.mem_cons_self .., rfl⟩,
          fun k hk => ⟨k, List.mem_cons_of_mem l hk, rfl⟩⟩, fun p hp => ?_, ?_, ?_⟩
      · exact ⟨l, List.mem_cons_self .., qty, ⟨hsale.nonneg, hsale.most⟩, List.mem_singleton.mp hp⟩
      · rw [unmatchedPart, if_neg (by norm_num [DUST])]
        simp only [List.length_cons, List.length_nil]
        omega
      · have hlost : |w l.buy * (l.quantity - qty - r.fl (l.quantity - qty))| ≤
            heavy * (r.unit * most) := by
          rw [abs_mul]
          refine mul_le_mul hlot.heavy ?_ (abs_nonneg _) ((abs_nonneg _).trans hlot.heavy)
          rw [abs_le]
          constructor <;> linarith [hnear.1, hnear.2]
        simp only [lotsWeight_cons, lotsDust_cons, partsWeight_cons, partsWeight_nil,
          SoldPart.weight, List.length_singleton, Nat.cast_one, mul_one]
        rw [abs_le] at hlost ⊢
        constructor <;> linarith [hlost.1, hlost.2]

/-! ### One fill, and a book -/

/-- **The replay so far keeps the weights**: what has gone in is in the parts and in the lots, but
    for the dust that is no longer held and one rounding a part. -/
structure Weighed (r : Rounding) (w : FillRecord → ℚ) (most heavy : ℚ) (s : BookTrace)
    (done : List FillRecord) : Prop where
  fits : ∀ l ∈ s.lots, Fits w most heavy l.buy l.quantity
  lots : ∀ l ∈ s.lots, IsBuy done l.buy
  parts : ∀ p ∈ s.parts, p.Of most done
  count : s.parts.length + s.lots.length ≤ done.length
  kept : |fillsWeight w done - (partsWeight w s.parts + lotsWeight w s.lots)| ≤
    dustWeight w done - lotsDust w s.lots + r.unit * most * heavy * s.parts.length

theorem traceFill_weighed (hmost : r.fl most = most) {s : BookTrace} {done : List FillRecord}
    (h : Weighed r w most heavy s done) (hf : Fits w most heavy f f.quantity) :
    Weighed r w most heavy (traceFill r s f) (done ++ [f]) := by
  have hmem : f ∈ done ++ [f] := List.mem_append_right _ (List.mem_singleton_self f)
  have hbefore : ∀ g ∈ done, g ∈ done ++ [f] := fun g hg => List.mem_append_left _ hg
  have hparts := fun p hp => (h.parts p hp).mono hbefore
  have hlots : ∀ l ∈ s.lots, IsBuy (done ++ [f]) l.buy := fun l hl =>
    ⟨hbefore _ (h.lots l hl).1, (h.lots l hl).2⟩
  have hcount := h.count
  have hkept := h.kept
  unfold traceFill
  by_cases hbuy : f.side = "buy"
  · rw [if_pos hbuy]
    refine ⟨List.forall_mem_append.mpr ⟨h.fits, by simpa using hf⟩,
      List.forall_mem_append.mpr ⟨hlots, by simpa using ⟨hmem, hbuy⟩⟩, hparts, ?_, ?_⟩
    · simp only [List.length_append, List.length_singleton]
      omega
    · simp only [fillsWeight_concat, lotsWeight_concat, dustWeight_concat, lotsDust_concat]
      rw [abs_le] at hkept ⊢
      constructor <;> linarith [hkept.1, hkept.2]
  · rw [if_neg hbuy]
    obtain ⟨hleft, hfits, hheld, hsold, hnew, hsells⟩ := sellHeld_sells hmost hf h.fits
    generalize sellHeld r f f.quantity s.lots = sold at hleft hfits hheld hsold hnew hsells
    -- what no lot covers is a part with its weight, or is dust
    have hrest : |w f * sold.2.2 - partsWeight w (unmatchedPart f sold.2.2)| ≤ DUST * |w f| := by
      unfold unmatchedPart
      split
      · rw [partsWeight_cons, partsWeight_nil, add_zero, SoldPart.weight, sub_self, abs_zero]
        exact mul_nonneg (by norm_num [DUST]) (abs_nonneg _)
      · rename_i hnone
        rw [partsWeight_nil, sub_zero, abs_mul, abs_of_nonneg hleft, mul_comm]
        exact mul_le_mul_of_nonneg_right (not_lt.mp hnone) (abs_nonneg _)
    have hround : 0 ≤ r.unit * most * heavy * ((unmatchedPart f sold.2.2).length : ℚ) :=
      mul_nonneg (mul_nonneg (mul_nonneg r.unit_nonneg (hf.nonneg.trans hf.most))
        ((abs_nonneg _).trans hf.heavy)) (Nat.cast_nonneg _)
    refine ⟨hfits, fun l hl => ?_, fun p hp => ?_, ?_, ?_⟩
    · obtain ⟨k, hk, heq⟩ := hheld l hl
      exact heq ▸ hlots k hk
    · rcases List.mem_append.mp hp with hp | hp
      · rcases List.mem_append.mp hp with hp | hp
        · exact hparts p hp
        · obtain ⟨l, hl, q, hq, rfl⟩ := hsold p hp
          exact ⟨hlots l hl, ⟨hmem, hbuy⟩, hq⟩
      · unfold unmatchedPart at hp
        split at hp
        · rw [List.mem_singleton.mp hp]
          exact ⟨hmem, hbuy⟩
        · cases hp
    · simp only [List.length_append, List.length_singleton]
      omega
    · simp only [fillsWeight_concat, dustWeight_concat, partsWeight_append, List.length_append,
        Nat.cast_add, mul_add]
      rw [abs_le] at hkept hsells hrest ⊢
      constructor <;> linarith [hkept.1, hkept.2, hsells.1, hsells.2, hrest.1, hrest.2]

/-- **A book keeps the weights** of its fills. -/
theorem tracedBook_weighed (hmost : r.fl most = most) {items : List FillRecord}
    (hfits : ∀ f ∈ items, Fits w most heavy f f.quantity) :
    Weighed r w most heavy (tracedBook r items) items := by
  have hperm := sortedBy_perm FillRecord.sortKey items
  have hfold : ∀ {s : BookTrace} {done rest : List FillRecord}, Weighed r w most heavy s done →
      (∀ f ∈ rest, Fits w most heavy f f.quantity) →
      Weighed r w most heavy (rest.foldl (traceFill r) s) (done ++ rest) := by
    intro s done rest h hrest
    induction rest generalizing s done with
    | nil => simpa using h
    | cons f rest ih =>
      have hrun := ih (traceFill_weighed hmost h (hrest f (List.mem_cons_self ..)))
        fun g hg => hrest g (List.mem_cons_of_mem f hg)
      rwa [List.append_assoc] at hrun
  have hempty : Weighed r w most heavy {} [] := ⟨by simp, by simp, by simp, by simp,
    by simp [fillsWeight, lotsWeight, dustWeight, lotsDust]⟩
  have hrun := hfold hempty fun f hf => hfits f (hperm.mem_iff.mp hf)
  rw [List.nil_append] at hrun
  refine ⟨hrun.fits, fun l hl => ⟨hperm.mem_iff.mp (hrun.lots l hl).1, (hrun.lots l hl).2⟩,
    fun p hp => (hrun.parts p hp).mono fun f hf => hperm.mem_iff.mp hf, ?_, ?_⟩
  · exact hperm.length_eq ▸ hrun.count
  · have hkept := hrun.kept
    rwa [show fillsWeight w (sortedBy FillRecord.sortKey items) = fillsWeight w items from
      (hperm.map _).sum_eq, show dustWeight w (sortedBy FillRecord.sortKey items) =
        dustWeight w items from (hperm.map _).sum_eq] at hkept

end Weighing

end Investor.Intraday.Rounded
