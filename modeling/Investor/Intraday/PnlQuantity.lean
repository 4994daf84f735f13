import Investor.Intraday.PnlRounded

/-!
# The execution FIFO keeps quantities

What is bought is matched or still open; what is sold is matched or sold out of an inventory
nobody knows. Both are weights of the fills in which a share weighs one or nothing, so a book keeps
them but for the dust and one rounding a fill (`fifoBook_keeps`).

A ledger is the books of a partition of the usable fills (`bookItems_perm`), so its sums are
theirs (`ledger_conserves`).
-/

namespace Investor.Intraday

open Lib Universe

theorem DUST_nonneg : 0 ≤ DUST := by norm_num [DUST]

/-! ## Quantities -/

def boughtQty (fills : List FillRecord) : ℚ :=
  (fills.map fun f => if f.side = "buy" then f.quantity else 0).sum

def soldQty (fills : List FillRecord) : ℚ :=
  (fills.map fun f => if f.side = "buy" then 0 else f.quantity).sum

def closedQty (basis : Basis) (closes : List FifoClose) : ℚ :=
  (closes.map fun c => if c.basis = basis then c.quantity else 0).sum

def openQty (lots : List OpenLot) : ℚ := (lots.map (·.quantity)).sum

@[simp] theorem boughtQty_nil : boughtQty [] = 0 := rfl

@[simp] theorem soldQty_nil : soldQty [] = 0 := rfl

@[simp] theorem closedQty_nil (basis : Basis) : closedQty basis [] = 0 := rfl

@[simp] theorem openQty_nil : openQty [] = 0 := rfl

@[simp] theorem boughtQty_append (xs ys : List FillRecord) :
    boughtQty (xs ++ ys) = boughtQty xs + boughtQty ys := by simp [boughtQty]

@[simp] theorem soldQty_append (xs ys : List FillRecord) :
    soldQty (xs ++ ys) = soldQty xs + soldQty ys := by simp [soldQty]

@[simp] theorem closedQty_append (basis : Basis) (xs ys : List FifoClose) :
    closedQty basis (xs ++ ys) = closedQty basis xs + closedQty basis ys := by simp [closedQty]

@[simp] theorem closedQty_cons (basis : Basis) (c : FifoClose) (cs : List FifoClose) :
    closedQty basis (c :: cs) = (if c.basis = basis then c.quantity else 0) + closedQty basis cs := by
  simp [closedQty]

@[simp] theorem openQty_cons (lot : OpenLot) (lots : List OpenLot) :
    openQty (lot :: lots) = lot.quantity + openQty lots := by simp [openQty]

theorem boughtQty_perm {xs ys : List FillRecord} (h : List.Perm xs ys) :
    boughtQty xs = boughtQty ys := (h.map _).sum_eq

theorem soldQty_perm {xs ys : List FillRecord} (h : List.Perm xs ys) : soldQty xs = soldQty ys :=
  (h.map _).sum_eq

/-! ## A book -/

section Book

open Rounded

variable {r : Rounding} {most : ℚ} {key : BookKey} {exchange : String} {items : List FillRecord}

def buyShare (f : FillRecord) : ℚ := if f.side = "buy" then 1 else 0

def saleShare (f : FillRecord) : ℚ := if f.side = "buy" then 0 else 1

theorem partsWeight_shares {parts : List SoldPart} (h : ∀ p ∈ parts, p.Of most items) :
    partsWeight buyShare parts = closedQty .fill (parts.map (SoldPart.close r key exchange)) ∧
      partsWeight saleShare parts = closedQty .fill (parts.map (SoldPart.close r key exchange)) +
        closedQty .unknownOpeningInventory (parts.map (SoldPart.close r key exchange)) := by
  induction parts with
  | nil => simp
  | cons p parts ih =>
    obtain ⟨hbuys, hsales⟩ := ih fun p hp => h p (List.mem_cons_of_mem _ hp)
    have hp := h p (List.mem_cons_self ..)
    rw [partsWeight_cons, partsWeight_cons, List.map_cons, hbuys, hsales]
    cases p with
    | matched buy sell quantity =>
      simp [SoldPart.weight, buyShare, saleShare, hp.1.2, hp.2.1.2, SoldPart.close,
        Rounded.matchedClose, Intraday.matchedClose]
      ring
    | unmatched sell quantity =>
      simp [SoldPart.weight, buyShare, saleShare, hp.2, SoldPart.close, unknownClose]
      ring

theorem lotsWeight_shares {lots : List HeldLot} (h : ∀ l ∈ lots, IsBuy items l.buy) :
    lotsWeight buyShare lots = openQty (lots.map (HeldLot.lot r)) ∧
      lotsWeight saleShare lots = 0 := by
  induction lots with
  | nil => exact ⟨rfl, rfl⟩
  | cons l lots ih =>
    obtain ⟨hbuys, hsales⟩ := ih fun l hl => h l (List.mem_cons_of_mem _ hl)
    have hbuy := (h l (List.mem_cons_self ..)).2
    rw [lotsWeight_cons, lotsWeight_cons, List.map_cons, openQty_cons, hbuys, hsales]
    simp [buyShare, saleShare, hbuy, HeldLot.lot]

/-- What a book may be off: the dust of each fill, and one rounding of a quantity. -/
def bookSlack (r : Rounding) (most : ℚ) (n : ℕ) : ℚ := (DUST + r.unit * most) * n

theorem weighed_slack {w : FillRecord → ℚ} (hw : ∀ f, |w f| ≤ 1) {s : BookTrace}
    (h : Weighed r w most 1 s items) (hmost : 0 ≤ most) :
    |partsWeight w s.parts + lotsWeight w s.lots - fillsWeight w items| ≤
      bookSlack r most items.length := by
  have hdust : dustWeight w items ≤ DUST * items.length := by
    have hsum := List.sum_le_card_nsmul (items.map fun f => DUST * |w f|) DUST fun x hx => by
      obtain ⟨f, -, rfl⟩ := List.mem_map.mp hx
      exact mul_le_of_le_one_right DUST_nonneg (hw f)
    rw [List.length_map, nsmul_eq_mul] at hsum
    exact hsum.trans (le_of_eq (mul_comm _ _))
  have hround : r.unit * most * 1 * (s.parts.length : ℚ) ≤ r.unit * most * items.length := by
    rw [mul_one]
    exact mul_le_mul_of_nonneg_left (by exact_mod_cast (Nat.le_add_right _ _).trans h.count)
      (mul_nonneg r.unit_nonneg hmost)
  have hlots := lotsDust_nonneg w s.lots
  rw [abs_sub_comm]
  exact h.kept.trans (by rw [bookSlack, add_mul]; linarith)

/-- **A book keeps the quantities** of its fills. -/
theorem fifoBook_keeps (hdouble : r.fl most = most) (hmost : 0 ≤ most)
    (hqty : ∀ f ∈ items, 0 ≤ f.quantity ∧ f.quantity ≤ most) :
    |closedQty .fill (Rounded.fifoBook r key exchange items).closes +
        openQty (Rounded.fifoBook r key exchange items).openLots - boughtQty items| ≤
        bookSlack r most items.length ∧
      |closedQty .fill (Rounded.fifoBook r key exchange items).closes +
        closedQty .unknownOpeningInventory (Rounded.fifoBook r key exchange items).closes -
          soldQty items| ≤ bookSlack r most items.length := by
  have hone : ∀ f, |buyShare f| ≤ 1 ∧ |saleShare f| ≤ 1 := fun f => by
    unfold buyShare saleShare
    split <;> norm_num
  have hbuys := tracedBook_weighed hdouble fun f hf =>
    (⟨(hqty f hf).1, (hqty f hf).2, (hone f).1⟩ : Fits buyShare most 1 f f.quantity)
  have hsales := tracedBook_weighed hdouble fun f hf =>
    (⟨(hqty f hf).1, (hqty f hf).2, (hone f).2⟩ : Fits saleShare most 1 f f.quantity)
  have hbought := weighed_slack (fun f => (hone f).1) hbuys hmost
  have hsold := weighed_slack (fun f => (hone f).2) hsales hmost
  obtain ⟨hclosed, hclosed'⟩ := @partsWeight_shares r most key exchange items _ hbuys.parts
  obtain ⟨hopen, hopen'⟩ := @lotsWeight_shares r items _ hbuys.lots
  rw [hclosed, hopen, show fillsWeight buyShare items = boughtQty items by
    simp [fillsWeight, boughtQty, buyShare]] at hbought
  rw [hclosed', hopen', add_zero, show fillsWeight saleShare items = soldQty items by
    simp [fillsWeight, soldQty, saleShare]] at hsold
  rw [fifoBook_traced]
  exact ⟨hbought, hsold⟩

end Book

/-! ## The partition of the fills -/

section Ledger

def adopted [Casing] (usable : List FillRecord) (f : FillRecord) : FillRecord :=
  adoptIdentity f.symbolKey
    (singleIdentity (usable.filter fun g => g.symbolKey = f.symbolKey)) f

theorem adoptSingleIdentity_perm [Casing] (fills : List FillRecord) :
    List.Perm (adoptSingleIdentity fills) (fills.map (adopted fills)) := by
  have hgroups : adoptSingleIdentity fills =
      ((groupsBy FillRecord.symbolKey fills).flatMap (·.2)).map (adopted fills) := by
    unfold adoptSingleIdentity
    rw [List.map_flatMap]
    refine List.flatMap_congr fun g hg => List.map_congr_left fun f hf => ?_
    obtain ⟨-, hitems⟩ := mem_groupsBy hg
    have hkey : f.symbolKey = g.1 := by
      rw [hitems] at hf
      simpa using (List.mem_filter.mp hf).2
    unfold adopted
    rw [hkey, ← hitems]
  rw [hgroups]
  exact (flatMap_groupsBy_perm _ _).map _

theorem splitByExchange_perm (items : List FillRecord) :
    List.Perm ((splitByExchange items).flatMap (·.2)) items := by
  unfold splitByExchange
  simp only
  split
  · simp
  · exact flatMap_groupsBy_perm _ items

theorem nodup_splitByExchange (items : List FillRecord) :
    ((splitByExchange items).map (·.1)).Nodup := by
  unfold splitByExchange
  simp only
  split
  · simp
  · exact nodup_groupKeys _ items

theorem bookItems_perm [Casing] (fills : List FillRecord) :
    List.Perm ((bookItems fills).flatMap (·.items))
      ((usableFills fills).map (adopted (usableFills fills))) := by
  have hflat : (bookItems fills).flatMap (·.items) =
      (groupsBy FillRecord.bookKey (adoptSingleIdentity (usableFills fills))).flatMap
        fun g => (splitByExchange g.2).flatMap (·.2) := by
    unfold bookItems
    rw [List.flatMap_assoc]
    refine List.flatMap_congr fun g _ => ?_
    rw [List.flatMap_map]
  rw [hflat]
  refine (List.Perm.flatMap_left _ fun g _ => splitByExchange_perm g.2).trans ?_
  exact (flatMap_groupsBy_perm _ _).trans (adoptSingleIdentity_perm _)

theorem nodup_bookItems [Casing] (fills : List FillRecord) :
    ((bookItems fills).map fun b => (b.key, b.exchange)).Nodup := by
  have hmap : (bookItems fills).map (fun b => (b.key, b.exchange)) =
      (groupsBy FillRecord.bookKey (adoptSingleIdentity (usableFills fills))).flatMap
        fun g => (splitByExchange g.2).map fun e => (g.1, e.1) := by
    unfold bookItems
    rw [List.map_flatMap]
    refine List.flatMap_congr fun g _ => ?_
    rw [List.map_map]
    rfl
  rw [hmap, List.nodup_flatMap]
  refine ⟨fun g _ => ?_, ?_⟩
  · have hpair : (splitByExchange g.2).map (fun e => (g.1, e.1)) =
        ((splitByExchange g.2).map (·.1)).map (fun e => (g.1, e)) := by
      rw [List.map_map]
      rfl
    rw [hpair]
    exact (nodup_splitByExchange g.2).map fun a b hab => (Prod.mk.inj hab).2
  · have hkeys : (groupsBy FillRecord.bookKey
        (adoptSingleIdentity (usableFills fills))).Pairwise fun g g' => g.1 ≠ g'.1 := by
      have hnodup := nodup_groupKeys FillRecord.bookKey (adoptSingleIdentity (usableFills fills))
      unfold groupKeys at hnodup
      exact List.pairwise_map.mp hnodup
    refine hkeys.imp fun {g g'} hne => ?_
    intro p hp hp'
    obtain ⟨e, -, rfl⟩ := List.mem_map.mp hp
    obtain ⟨e', -, he'⟩ := List.mem_map.mp hp'
    exact hne (Prod.mk.inj he').1.symm

/-! ## The whole ledger -/

def FifoLedger.closedQty (l : FifoLedger) (basis : Basis) : ℚ :=
  (l.books.map fun b => Intraday.closedQty basis b.closes).sum

def FifoLedger.openQty (l : FifoLedger) : ℚ := (l.books.map fun b => Intraday.openQty b.openLots).sum

def usableQty [Casing] (side : String) (fills : List FillRecord) : ℚ :=
  ((usableFills fills).map fun f =>
    if Casing.lower (strip f.side) = side then f.quantity else 0).sum

def largestQty [Casing] (fills : List FillRecord) : ℚ :=
  ((usableFills fills).map (·.quantity)).foldr max 0

/-- **A ledger that keeps quantities.** Up to `DUST` and one rounding of the largest quantity a
    fill, what is bought is matched or open and what is sold is matched or of unknown opening
    inventory; each usable fill is in one book, and what is not usable is counted. -/
structure KeepsQuantity [Casing] (r : Rounding) (fills : List FillRecord) : Prop where
  bought : |(Rounded.reconstructFifo r fills).closedQty .fill +
    (Rounded.reconstructFifo r fills).openQty - usableQty "buy" fills| ≤
      bookSlack r (largestQty fills) fills.length
  sold : |(Rounded.reconstructFifo r fills).closedQty .fill +
    (Rounded.reconstructFifo r fills).closedQty .unknownOpeningInventory -
      usableQty "sell" fills| ≤ bookSlack r (largestQty fills) fills.length
  books : List.Perm (Rounded.reconstructFifo r fills).books
    ((bookItems fills).map (Rounded.bookOf r))
  apart : ((bookItems fills).map fun b => (b.key, b.exchange)).Nodup
  placed : List.Perm ((bookItems fills).flatMap (·.items))
    ((usableFills fills).map (adopted (usableFills fills)))
  counted : (usableFills fills).length + (Rounded.reconstructFifo r fills).skippedFills =
    fills.length

theorem usable_of_mem [Casing] {fills : List FillRecord} {f : FillRecord} (h : f ∈ usableFills fills) :
    Casing.lower (strip f.side) ∈ ["buy", "sell"] ∧ 0 ≤ f.quantity := by
  obtain ⟨-, hkept⟩ := List.mem_filter.mp h
  simp only [isSkipped, Bool.not_eq_true', decide_eq_false_iff_not, not_or, not_not, not_le] at hkept
  exact ⟨hkept.1, DUST_nonneg.trans hkept.2.2.1.le⟩

theorem qty_adopted [Casing] (fills : List FillRecord) :
    boughtQty ((usableFills fills).map (adopted (usableFills fills))) = usableQty "buy" fills ∧
      soldQty ((usableFills fills).map (adopted (usableFills fills))) = usableQty "sell" fills := by
  unfold boughtQty soldQty usableQty
  rw [List.map_map, List.map_map]
  constructor
  · rfl
  · refine congrArg List.sum (List.map_congr_left fun f hf => ?_)
    show (if Casing.lower (strip f.side) = "buy" then 0 else f.quantity) = _
    rcases List.mem_pair.mp (usable_of_mem hf).1 with hside | hside <;> simp [hside]

theorem books_keep {r : Rounding} {most : ℚ} (hdouble : r.fl most = most) (hmost : 0 ≤ most)
    {parts : List BookItems}
    (hqty : ∀ p ∈ parts, ∀ f ∈ p.items, 0 ≤ f.quantity ∧ f.quantity ≤ most) :
    let books := parts.map (Rounded.bookOf r)
    let fills := parts.flatMap (·.items)
    let matched := (books.map fun b => closedQty .fill b.closes).sum
    let unknown := (books.map fun b => closedQty .unknownOpeningInventory b.closes).sum
    let opened := (books.map fun b => openQty b.openLots).sum
    |matched + opened - boughtQty fills| ≤ bookSlack r most fills.length ∧
      |matched + unknown - soldQty fills| ≤ bookSlack r most fills.length := by
  induction parts with
  | nil => simp [bookSlack]
  | cons p parts ih =>
    have hrest := ih fun q hq => hqty q (List.mem_cons_of_mem p hq)
    have hbook := @fifoBook_keeps r most p.key p.exchange p.items hdouble hmost
      (hqty p (List.mem_cons_self ..))
    simp only [List.map_cons, List.sum_cons, List.flatMap_cons, boughtQty_append, soldQty_append,
      List.length_append, bookSlack, Nat.cast_add, mul_add, Rounded.bookOf, abs_le] at hrest hbook ⊢
    obtain ⟨⟨hlo, hhi⟩, hlo', hhi'⟩ := hrest
    refine ⟨⟨?_, ?_⟩, ?_, ?_⟩ <;>
      linarith [hbook.1.1, hbook.1.2, hbook.2.1, hbook.2.2]

theorem largestQty_double [Casing] {r : Rounding} {fills : List FillRecord}
    (h : ∀ f ∈ usableFills fills, r.fl f.quantity = f.quantity) :
    r.fl (largestQty fills) = largestQty fills := by
  unfold largestQty
  generalize usableFills fills = usable at h ⊢
  induction usable with
  | nil => exact r.fl_zero
  | cons f fs ih =>
    rw [List.map_cons, List.foldr_cons,
      Monotone.map_max (f := r.fl) fun x y hxy => r.mono x y hxy, h f (List.mem_cons_self ..),
      ih fun g hg => h g (List.mem_cons_of_mem f hg)]

/-- The ledger keeps quantities, in every arithmetic in which the quantities are numbers. -/
theorem reconstructFifo_keeps [Casing] {r : Rounding} {fills : List FillRecord}
    (hdouble : ∀ f ∈ usableFills fills, r.fl f.quantity = f.quantity) : KeepsQuantity r fills := by
  have hbooks : List.Perm (Rounded.reconstructFifo r fills).books
      ((bookItems fills).map (Rounded.bookOf r)) := sortedBy_perm _ _
  have hplaced := bookItems_perm fills
  have hcounted : (usableFills fills).length + (Rounded.reconstructFifo r fills).skippedFills =
      fills.length := by
    have hparts := List.length_eq_length_filter_add (l := fills) isSkipped
    show (fills.filter fun f => !isSkipped f).length + (fills.filter isSkipped).length = _
    omega
  have hle : ∀ x ∈ (usableFills fills).map (·.quantity), x ≤ largestQty fills :=
    fun x hx => List.le_max_of_le' 0 hx (le_refl x)
  have hmost : 0 ≤ largestQty fills := by
    unfold largestQty
    induction (usableFills fills).map (·.quantity) with
    | nil => exact le_refl 0
    | cons x xs ih => exact ih.trans (le_max_right _ _)
  have hqty : ∀ p ∈ bookItems fills, ∀ f ∈ p.items,
      0 ≤ f.quantity ∧ f.quantity ≤ largestQty fills := by
    intro p hp f hf
    have hmem := hplaced.mem_iff.mp (List.mem_flatMap.mpr ⟨p, hp, hf⟩)
    obtain ⟨g, hg, rfl⟩ := List.mem_map.mp hmem
    exact ⟨(usable_of_mem hg).2, hle g.quantity (List.mem_map.mpr ⟨g, hg, rfl⟩)⟩
  obtain ⟨hbought, hsold⟩ := books_keep (largestQty_double hdouble) hmost hqty
  have hlength : bookSlack r (largestQty fills) ((bookItems fills).flatMap (·.items)).length ≤
      bookSlack r (largestQty fills) fills.length := by
    have hlen : ((bookItems fills).flatMap (·.items)).length ≤ fills.length := by
      rw [hplaced.length_eq, List.length_map]
      omega
    exact mul_le_mul_of_nonneg_left (Nat.cast_le.mpr hlen)
      (add_nonneg DUST_nonneg (mul_nonneg r.unit_nonneg hmost))
  have hclosed : ∀ basis, (Rounded.reconstructFifo r fills).closedQty basis =
      (((bookItems fills).map (Rounded.bookOf r)).map fun b => closedQty basis b.closes).sum :=
    fun basis => (hbooks.map _).sum_eq
  have hopen : (Rounded.reconstructFifo r fills).openQty =
      (((bookItems fills).map (Rounded.bookOf r)).map fun b => openQty b.openLots).sum :=
    (hbooks.map _).sum_eq
  rw [(boughtQty_perm hplaced).trans (qty_adopted fills).1, ← hclosed, ← hopen] at hbought
  rw [(soldQty_perm hplaced).trans (qty_adopted fills).2, ← hclosed, ← hclosed] at hsold
  exact { bought := hbought.trans hlength, sold := hsold.trans hlength, books := hbooks,
          apart := nodup_bookItems fills, placed := hplaced, counted := hcounted }

/-- **The ledger keeps quantities**, whatever the fills. -/
theorem ledger_conserves [Casing] {fills : List FillRecord}
    (hdouble : ∀ f ∈ fills, toDouble f.quantity = f.quantity) : KeepsQuantity .double fills :=
  reconstructFifo_keeps fun f hf => hdouble f (List.mem_of_mem_filter hf)

end Ledger

/-! ## A sale in fractions -/

section Sample

attribute [local instance] asciiCasing

def fillAt (side : String) (quantity price : ℚ) : FillRecord :=
  { symbol := "AAPL", side, quantity, price, executedAt := some 0 }

def aaplBook : BookKey := ⟨"", "", "", "AAPL"⟩

theorem ledger_conserves_aapl :
    KeepsQuantity .double [fillAt "buy" 10 100, fillAt "sell" (5 / 2) 120] :=
  ledger_conserves (by decide +kernel)

/-- **Of 100000.1 shares 33333.37 are sold**: what is left is rounded, by more than the dust. -/
theorem rounded_sale_drifts :
    ¬ ∀ fills : List FillRecord, (∀ f ∈ fills, toDouble f.quantity = f.quantity) →
      |(Rounded.reconstructFifo .double fills).closedQty .fill +
        (Rounded.reconstructFifo .double fills).openQty - usableQty "buy" fills| ≤
          DUST * fills.length := by
  intro hall
  have hsum := hall [fillAt "buy" (toDouble (1000001 / 10)) 100,
    fillAt "sell" (toDouble (3333337 / 100)) 100] (by decide +kernel)
  revert hsum
  decide +kernel

end Sample

end Investor.Intraday
