import Investor.Intraday.FifoFold

/-!
# The fees of a book

A lot carries its buy's fee as a fee per share, and a close has the shares' part of it and the part
of the sale's. So the fees of a book are what its fills weigh when a share weighs its fee
(`Rounded.Weighed`): they are in the known closes, in the open lots and in what was sold without a
lot, but for the dust and the roundings. The dust is an amount in shares, so in money it is not the
same for every fill.
-/

namespace Investor.Intraday

open Lib Universe Rounded

section Fees

variable (r : Rounding)

/-- The fee of a part, before it is rounded to four places. -/
def exactFee : SoldPart → Option ℚ
  | .matched buy sell quantity => closeFee r sell (Rounded.buyLot r buy) quantity
  | .unmatched _ _ => none

def unmatchedFee : SoldPart → ℚ
  | .matched _ _ _ => 0
  | .unmatched sell quantity => sell.fee.getD 0 * (quantity / sell.quantity)

def knownFees (parts : List SoldPart) : ℚ := (parts.map fun p => (exactFee r p).getD 0).sum

def unmatchedFees (parts : List SoldPart) : ℚ := (parts.map unmatchedFee).sum

def openFees (lots : List OpenLot) : ℚ :=
  (lots.map fun lot => lot.feePerShare.getD 0 * lot.quantity).sum

def totalFees (fills : List FillRecord) : ℚ := (fills.map fun f => f.fee.getD 0).sum

def FillRecord.shareFee (f : FillRecord) : ℚ := f.fee.getD 0 / f.quantity

/-- **A book and the fees of its fills.** Its closes are the parts of its sales, each with a buy
    and a sale of the book's; where all fees are known, they are in the closes, in the open lots
    and in what was sold without a lot, but for the fees of `DUST` shares a fill and nine roundings
    of the largest quantity at the largest fee; and a close has no fee exactly where its buy or its
    sale has none. -/
structure KeepsFees (most heavy : ℚ) (key : BookKey) (exchange : String)
    (items : List FillRecord) : Prop where
  closes : (Rounded.fifoBook r key exchange items).closes =
    (tracedBook r items).parts.map (SoldPart.close r key exchange)
  openLots : (Rounded.fifoBook r key exchange items).openLots =
    (tracedBook r items).lots.map (HeldLot.lot r)
  fills : ∀ p ∈ (tracedBook r items).parts, p.Of most items
  rounded : ∀ p ∈ (tracedBook r items).parts,
    (p.close r key exchange).fee = (exactFee r p).map fun fee => r.fl (roundTo 4 fee)
  conserved : (∀ f ∈ items, f.fee ≠ none) →
    |totalFees items - (knownFees r (tracedBook r items).parts +
      openFees (Rounded.fifoBook r key exchange items).openLots +
      unmatchedFees (tracedBook r items).parts)| ≤
        dustWeight FillRecord.shareFee items + 9 * (r.unit * most * heavy) * items.length
  missing : ∀ buy sell quantity, .matched buy sell quantity ∈ (tracedBook r items).parts →
    (((SoldPart.matched buy sell quantity).close r key exchange).fee = none ↔
      buy.fee = none ∨ sell.fee = none)

variable {r} {most heavy : ℚ} {buy sell : FillRecord} {items : List FillRecord}

theorem exactFee_matched (hbuy : 0 < buy.quantity) (hsell : 0 < sell.quantity) (quantity : ℚ) :
    exactFee r (.matched buy sell quantity) =
      buy.fee.bind fun b => sell.fee.map fun s =>
        r.fl (r.fl (r.fl (b / buy.quantity) * quantity) +
          r.fl (s * r.fl (quantity / sell.quantity))) := by
  unfold exactFee closeFee Rounded.buyLot Intraday.buyLot
  simp only [if_neg (not_le.mpr hbuy), if_pos hsell]
  cases buy.fee <;> cases sell.fee <;> rfl

/-- The fee of a close is the shares' part of the two fees, but for four roundings. -/
theorem abs_matchedFee_sub_le (hbuy : Fits FillRecord.shareFee most heavy buy buy.quantity)
    (hsell : Fits FillRecord.shareFee most heavy sell sell.quantity) (hbuy' : 0 < buy.quantity)
    (hsell' : 0 < sell.quantity) (hfee : buy.fee ≠ none) (hfee' : sell.fee ≠ none) {quantity : ℚ}
    (h0 : 0 ≤ quantity) (hmost : quantity ≤ most) :
    |(exactFee r (.matched buy sell quantity)).getD 0 -
      (SoldPart.matched buy sell quantity).weight FillRecord.shareFee| ≤
        8 * (r.unit * most * heavy) := by
  obtain ⟨b, hb⟩ := Option.ne_none_iff_exists'.mp hfee
  obtain ⟨s, hs⟩ := Option.ne_none_iff_exists'.mp hfee'
  have hshare : buy.shareFee = b / buy.quantity := by rw [FillRecord.shareFee, hb]; rfl
  have hshare' : sell.shareFee = s / sell.quantity := by rw [FillRecord.shareFee, hs]; rfl
  have hheavy := hbuy.heavy
  have hheavy' := hsell.heavy
  rw [exactFee_matched hbuy' hsell', hb, hs]
  simp only [Option.bind_some, Option.map_some, Option.getD_some, SoldPart.weight]
  rw [hshare] at hheavy ⊢
  rw [hshare'] at hheavy' ⊢
  -- the buy's part, and the sale's, each after two roundings
  have hpart : |r.fl (r.fl (b / buy.quantity) * quantity) - b / buy.quantity * quantity| ≤
      (9 / 8 * 1 + 1) * r.unit * (most * heavy) := by
    refine r.near_next ?_ ?_
    · rw [← sub_mul, abs_mul, abs_of_nonneg h0]
      have hnear := mul_le_mul ((r.near (b / buy.quantity)).trans
        (mul_le_mul_of_nonneg_left hheavy r.unit_nonneg)) hmost h0
        (mul_nonneg r.unit_nonneg ((abs_nonneg _).trans hheavy))
      linarith
    · rw [abs_mul, abs_of_nonneg h0, mul_comm]
      exact mul_le_mul hmost hheavy (abs_nonneg _) (h0.trans hmost)
  have hpart' : |r.fl (s * r.fl (quantity / sell.quantity)) - s / sell.quantity * quantity| ≤
      (9 / 8 * 1 + 1) * r.unit * (most * heavy) := by
    have hsize : |s / sell.quantity * quantity| ≤ most * heavy := by
      rw [abs_mul, abs_of_nonneg h0, mul_comm]
      exact mul_le_mul hmost hheavy' (abs_nonneg _) (h0.trans hmost)
    refine r.near_next ?_ hsize
    have heq : s * r.fl (quantity / sell.quantity) - s / sell.quantity * quantity =
        s * (r.fl (quantity / sell.quantity) - quantity / sell.quantity) := by ring
    have hmul := mul_le_mul_of_nonneg_left (r.near (quantity / sell.quantity)) (abs_nonneg s)
    have hsize' := mul_le_mul_of_nonneg_left hsize r.unit_nonneg
    rw [heq, abs_mul]
    rw [abs_mul, abs_div, abs_of_nonneg h0] at hsize'
    rw [abs_div, abs_of_nonneg h0] at hmul
    calc _ ≤ |s| * (r.unit * (quantity / |sell.quantity|)) := hmul
      _ = r.unit * (|s| / |sell.quantity| * quantity) := by ring
      _ ≤ 1 * r.unit * (most * heavy) := by linarith
  have hsize : |(b / buy.quantity + s / sell.quantity) * quantity| ≤ 2 * (most * heavy) := by
    rw [abs_mul, abs_of_nonneg h0]
    have hsum := (abs_add_le (b / buy.quantity) (s / sell.quantity)).trans
      (add_le_add hheavy hheavy')
    have hmul := mul_le_mul hsum hmost h0 ((abs_nonneg _).trans hsum)
    linarith
  refine (r.near_next (k := 9 / 8 * 1 + 1) ?_ hsize).trans ?_
  · rw [abs_le] at hpart hpart' ⊢
    constructor <;> linarith [hpart.1, hpart.2, hpart'.1, hpart'.2]
  · have hnonneg := mul_nonneg r.unit_nonneg ((abs_nonneg _).trans hsize)
    linarith

theorem abs_partsFee_sub_le {parts : List SoldPart} (hparts : ∀ p ∈ parts, p.Of most items)
    (hfits : ∀ f ∈ items, Fits FillRecord.shareFee most heavy f f.quantity)
    (hqty : ∀ f ∈ items, 0 < f.quantity) (hfee : ∀ f ∈ items, f.fee ≠ none) :
    |knownFees r parts + unmatchedFees parts - partsWeight FillRecord.shareFee parts| ≤
      8 * (r.unit * most * heavy) * parts.length := by
  induction parts with
  | nil => simp [knownFees, unmatchedFees]
  | cons p parts ih =>
    have hrest := ih fun p hp => hparts p (List.mem_cons_of_mem _ hp)
    have hone : |(exactFee r p).getD 0 + unmatchedFee p - p.weight FillRecord.shareFee| ≤
        8 * (r.unit * most * heavy) := by
      have hp := hparts p (List.mem_cons_self ..)
      cases p with
      | matched buy sell quantity =>
        obtain ⟨⟨hbuy, -⟩, ⟨hsell, -⟩, h0, hmost⟩ := hp
        simpa only [unmatchedFee, add_zero] using
          abs_matchedFee_sub_le (hfits _ hbuy) (hfits _ hsell) (hqty _ hbuy) (hqty _ hsell)
            (hfee _ hbuy) (hfee _ hsell) h0 hmost
      | unmatched sell quantity =>
        have hheavy := hfits sell hp.1
        have heq : unmatchedFee (.unmatched sell quantity) =
            (SoldPart.unmatched sell quantity).weight FillRecord.shareFee := by
          simp only [unmatchedFee, SoldPart.weight, FillRecord.shareFee]
          ring
        rw [heq, exactFee, Option.getD_none, zero_add, sub_self, abs_zero]
        exact mul_nonneg (by norm_num) (mul_nonneg (mul_nonneg r.unit_nonneg
          (hheavy.nonneg.trans hheavy.most)) ((abs_nonneg _).trans hheavy.heavy))
    simp only [knownFees, unmatchedFees, List.map_cons, List.sum_cons, partsWeight_cons,
      List.length_cons, Nat.cast_add, Nat.cast_one, mul_add, mul_one] at hrest ⊢
    rw [abs_le] at hrest hone ⊢
    constructor <;> linarith [hrest.1, hrest.2, hone.1, hone.2]

theorem abs_openFees_sub_le {lots : List HeldLot} (hlots : ∀ l ∈ lots, IsBuy items l.buy)
    (hfits : ∀ l ∈ lots, Fits FillRecord.shareFee most heavy l.buy l.quantity)
    (hqty : ∀ f ∈ items, 0 < f.quantity) :
    |openFees (lots.map (HeldLot.lot r)) - lotsWeight FillRecord.shareFee lots| ≤
      r.unit * most * heavy * lots.length := by
  induction lots with
  | nil => simp [openFees, lotsWeight]
  | cons l lots ih =>
    have hrest := ih (fun l hl => hlots l (List.mem_cons_of_mem _ hl))
      fun l hl => hfits l (List.mem_cons_of_mem _ hl)
    have hfit := hfits l (List.mem_cons_self ..)
    have hshare : (l.lot r).feePerShare.getD 0 = r.fl l.buy.shareFee := by
      show ((Rounded.buyLot r l.buy).feePerShare).getD 0 = _
      unfold Rounded.buyLot Intraday.buyLot FillRecord.shareFee
      rw [if_neg (not_le.mpr (hqty _ (hlots l (List.mem_cons_self ..)).1))]
      cases l.buy.fee with
      | none => simp
      | some fee => rfl
    have hone : |(l.lot r).feePerShare.getD 0 * (l.lot r).quantity -
        l.buy.shareFee * l.quantity| ≤ r.unit * most * heavy := by
      rw [hshare, show (l.lot r).quantity = l.quantity from rfl, ← sub_mul, abs_mul,
        abs_of_nonneg hfit.nonneg]
      have hmul := mul_le_mul ((r.near l.buy.shareFee).trans
        (mul_le_mul_of_nonneg_left hfit.heavy r.unit_nonneg)) hfit.most hfit.nonneg
        (mul_nonneg r.unit_nonneg ((abs_nonneg _).trans hfit.heavy))
      linarith
    simp only [openFees, List.map_cons, List.sum_cons, lotsWeight_cons, List.length_cons,
      Nat.cast_add, Nat.cast_one, mul_add, mul_one] at hrest ⊢
    rw [abs_le] at hrest hone ⊢
    constructor <;> linarith [hrest.1, hrest.2, hone.1, hone.2]

theorem fee_eq_none_iff (key : BookKey) (exchange : String) (hbuy : 0 < buy.quantity)
    (hsell : 0 < sell.quantity) (quantity : ℚ) :
    ((SoldPart.matched buy sell quantity).close r key exchange).fee = none ↔
      buy.fee = none ∨ sell.fee = none := by
  show (exactFee r (.matched buy sell quantity)).map _ = none ↔ _
  rw [exactFee_matched hbuy hsell]
  cases buy.fee <;> cases sell.fee <;> simp

/-- A book keeps the fees of its fills, in every arithmetic. -/
theorem keepsFees (key : BookKey) (exchange : String) (hdouble : r.fl most = most)
    (hqty : ∀ f ∈ items, 0 < f.quantity)
    (hfits : ∀ f ∈ items, f.quantity ≤ most ∧ |f.shareFee| ≤ heavy) :
    KeepsFees r most heavy key exchange items := by
  have hfits' : ∀ f ∈ items, Fits FillRecord.shareFee most heavy f f.quantity := fun f hf =>
    ⟨(hqty f hf).le, (hfits f hf).1, (hfits f hf).2⟩
  have hbook := fifoBook_traced r key exchange items
  have hopen : (Rounded.fifoBook r key exchange items).openLots =
      (tracedBook r items).lots.map (HeldLot.lot r) := by rw [hbook]
  obtain ⟨hlotsFit, hlots, hparts, hcount, hkept⟩ := tracedBook_weighed hdouble hfits'
  refine ⟨by rw [hbook], hopen, hparts, fun p _ => by cases p <;> rfl, fun hfee => ?_,
    fun buy sell quantity hp => ?_⟩
  · have htotal : fillsWeight FillRecord.shareFee items = totalFees items :=
      congrArg List.sum (List.map_congr_left fun f hf => div_mul_cancel₀ _ (hqty f hf).ne')
    have hknown := abs_partsFee_sub_le (r := r) hparts hfits' hqty hfee
    have hheld := abs_openFees_sub_le (r := r) hlots hlotsFit hqty
    have hdust := lotsDust_nonneg FillRecord.shareFee (tracedBook r items).lots
    rcases items.eq_nil_or_concat with rfl | ⟨rest, f, hlast⟩
    · simp [totalFees, knownFees, unmatchedFees, openFees, tracedBook, Rounded.fifoBook, sortedBy,
        dustWeight]
    have hf := hfits' f (hlast ▸ by simp)
    have hunit : 0 ≤ r.unit * most * heavy := mul_nonneg (mul_nonneg r.unit_nonneg
      (hf.nonneg.trans hf.most)) ((abs_nonneg _).trans hf.heavy)
    have hround : r.unit * most * heavy *
        (9 * (tracedBook r items).parts.length + (tracedBook r items).lots.length) ≤
          r.unit * most * heavy * (9 * items.length) := by
      refine mul_le_mul_of_nonneg_left ?_ hunit
      have hcount' : ((tracedBook r items).parts.length : ℚ) + (tracedBook r items).lots.length ≤
          items.length := by exact_mod_cast hcount
      linarith [Nat.cast_nonneg (α := ℚ) (tracedBook r items).lots.length]
    rw [htotal] at hkept
    rw [hopen]
    rw [abs_le] at hkept hknown hheld ⊢
    constructor <;> linarith [hkept.1, hkept.2, hknown.1, hknown.2, hheld.1, hheld.2]
  · obtain ⟨⟨hbuy, -⟩, ⟨hsell, -⟩, -⟩ := hparts _ hp
    exact fee_eq_none_iff key exchange (hqty _ hbuy) (hqty _ hsell) quantity

theorem fifoBook_keepsFees (key : BookKey) (exchange : String) (hdouble : toDouble most = most)
    (hqty : ∀ f ∈ items, 0 < f.quantity)
    (hfits : ∀ f ∈ items, f.quantity ≤ most ∧ |f.shareFee| ≤ heavy) :
    KeepsFees .double most heavy key exchange items :=
  keepsFees key exchange hdouble hqty hfits

end Fees

/-! ## A dear share -/

section Sample

attribute [local instance] asciiCasing

def paidFill (side : String) (quantity fee : ℚ) : FillRecord :=
  { fillAt side quantity 100 with fee := some fee }

theorem fifoBook_keepsFees_aapl : KeepsFees .double 12 (1 / 4) aaplBook ""
    [paidFill "buy" 10 2, paidFill "buy" 5 1, paidFill "sell" 12 3] :=
  fifoBook_keepsFees aaplBook "" (by decide +kernel) (by decide) (by decide +kernel)

/-- **A share bought for a fee of five, and all but `9e-13` of it sold**: the fee of what is left is
    in no close and no lot, and it is more than `1e-12` a fill. -/
theorem dropped_fee_not_within :
    ¬ ∀ (key : BookKey) (exchange : String) (items : List FillRecord),
      (∀ f ∈ items, isSkipped f = false ∧ toDouble f.quantity = f.quantity) →
      (∀ f ∈ items, ∀ g ∈ items, f.bookKey = g.bookKey) → (∀ f ∈ items, f.fee ≠ none) →
      |totalFees items - (knownFees .double (tracedBook .double items).parts +
        openFees (Rounded.fifoBook .double key exchange items).openLots +
        unmatchedFees (tracedBook .double items).parts)| ≤ 1 / 10 ^ 12 * items.length := by
  intro hall
  have hsum := hall aaplBook ""
    [paidFill "buy" 1 5, paidFill "sell" (toDouble (1 - 9 / 10 ^ 13)) 0]
    (by decide +kernel) (by decide) (by decide)
  revert hsum
  decide +kernel

end Sample

end Investor.Intraday
