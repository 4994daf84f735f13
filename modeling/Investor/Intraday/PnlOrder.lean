import Investor.Intraday.PnlQuantity

/-!
# The execution FIFO and the order of its input

The executions come in whatever order the database returns them. Inside a book the order is lost
by sorting: with distinct fill ids the sort key is total, so a book is a function of the fills
that go into it (`fifoBook_perm`), and identities are read off sets. So the books are always the
same books (`books_perm`).

Their order in the ledger is not always the same. `books.sort` compares currency, venue, symbol
and account, and not the exchange: the books of one identity on several exchanges stay in the
order in which their first fills came. The ledger is a function of the fills exactly where no
identity traded on two exchanges (`ledger_order_free_iff`).
-/

namespace Investor.Intraday

open Lib Universe

/-! ## What is read off a set -/

theorem dedup_length_le_one {α : Type} [DecidableEq α] {xs : List α}
    (h : ∀ a ∈ xs, ∀ b ∈ xs, a = b) : xs.dedup.length ≤ 1 := by
  have hnodup := List.nodup_dedup xs
  have hall : ∀ a ∈ xs.dedup, ∀ b ∈ xs.dedup, a = b := fun a ha b hb =>
    h a (List.mem_dedup.mp ha) b (List.mem_dedup.mp hb)
  match hd : xs.dedup with
  | [] => exact Nat.zero_le _
  | [a] => exact le_refl _
  | a :: b :: rest =>
    rw [hd] at hnodup hall
    have hab := hall a (by simp) b (by simp)
    simp [hab] at hnodup

theorem onlyValue_perm {xs ys : List String} (h : List.Perm xs ys) : onlyValue xs = onlyValue ys := by
  have hdedup := h.dedup
  unfold onlyValue
  match hx : xs.dedup, hy : ys.dedup with
  | [], [] => rfl
  | [a], [b] =>
    rw [hx, hy] at hdedup
    rw [List.singleton_perm_singleton.mp hdedup]
  | a :: b :: as, c :: d :: cs => rfl
  | [], c :: cs => rw [hx, hy] at hdedup; cases hdedup.length_eq
  | a :: as, [] => rw [hx, hy] at hdedup; cases hdedup.length_eq
  | [a], c :: d :: cs => rw [hx, hy] at hdedup; cases hdedup.length_eq
  | a :: b :: as, [c] => rw [hx, hy] at hdedup; cases hdedup.length_eq

/-! ## One book -/

variable {items : List FillRecord}

theorem nodup_sortKey (h : (items.map (·.fillId)).Nodup) :
    (items.map FillRecord.sortKey).Nodup := by
  refine List.Nodup.of_map (fun key => (ofLex (ofLex key).2).2) ?_
  rw [List.map_map]
  exact h

variable {xs ys : List FillRecord}

theorem fifoBook_perm {key : BookKey} {exchange : String} (h : List.Perm xs ys)
    (hids : (xs.map (·.fillId)).Nodup) : fifoBook key exchange xs = fifoBook key exchange ys := by
  unfold fifoBook
  rw [sortedBy_eq_of_perm h (nodup_sortKey hids)]

def exchangesOf (items : List FillRecord) : List String :=
  ((items.map (·.exchange)).filter (· ≠ "")).dedup

theorem splitByExchange_of_le (h : (exchangesOf items).length ≤ 1) :
    splitByExchange items = [((exchangesOf items).headD "", items)] := if_pos h

theorem splitByExchange_of_lt (h : 1 < (exchangesOf items).length) :
    splitByExchange items =
      groupsBy (fun f => if f.exchange = "" then "UNKNOWN" else f.exchange) items :=
  if_neg (not_le.mpr h)

theorem exchangesOf_perm (h : List.Perm xs ys) :
    List.Perm (exchangesOf xs) (exchangesOf ys) := ((h.map _).filter _).dedup

theorem splitBooks_perm {key : BookKey} (h : List.Perm xs ys) (hids : (xs.map (·.fillId)).Nodup) :
    List.Perm ((splitByExchange xs).map fun e => fifoBook key e.1 e.2)
      ((splitByExchange ys).map fun e => fifoBook key e.1 e.2) := by
  have hperm := exchangesOf_perm h
  rcases Nat.lt_or_ge 1 (exchangesOf xs).length with hlong | hshort
  · rw [splitByExchange_of_lt hlong, splitByExchange_of_lt (hperm.length_eq ▸ hlong),
      List.map_eq_flatMap, List.map_eq_flatMap]
    refine flatMap_groupsBy_perm_of_perm h fun exchange zs hzs => ?_
    show List.Perm [fifoBook key exchange _] [fifoBook key exchange zs]
    rw [fifoBook_perm hzs (hids.sublist (List.filter_sublist.map _))]
  · have hone : (exchangesOf xs).headD "" = (exchangesOf ys).headD "" := by
      rcases Nat.le_one_iff_eq_zero_or_eq_one.mp hshort with hnone | hsingle
      · have hnone' : (exchangesOf ys).length = 0 := hperm.length_eq.symm.trans hnone
        rw [List.length_eq_zero_iff.mp hnone, List.length_eq_zero_iff.mp hnone']
      · obtain ⟨a, ha⟩ := List.length_eq_one_iff.mp hsingle
        obtain ⟨b, hb⟩ := List.length_eq_one_iff.mp (hperm.length_eq.symm.trans hsingle)
        rw [ha, hb] at hperm
        rw [ha, hb, List.singleton_perm_singleton.mp hperm]
    rw [splitByExchange_of_le hshort, splitByExchange_of_le (hperm.length_eq ▸ hshort), hone]
    simp [fifoBook_perm h hids]

section Ledger

theorem singleIdentity_perm [Casing] (h : List.Perm xs ys) :
    singleIdentity xs = singleIdentity ys := by
  unfold singleIdentity
  rw [onlyValue_perm ((h.map fun f => strip f.account).filter _),
    onlyValue_perm ((h.filter fun f => !blank f.venue).map _),
    onlyValue_perm ((h.filter fun f => !blank f.currency).map _)]

theorem adopted_perm [Casing] (h : List.Perm xs ys) : adopted xs = adopted ys := by
  funext f
  unfold adopted
  rw [singleIdentity_perm (h.filter _)]

theorem adoptSingleIdentity_perm_of_perm [Casing] (h : List.Perm xs ys) :
    List.Perm (adoptSingleIdentity xs) (adoptSingleIdentity ys) := by
  refine (adoptSingleIdentity_perm xs).trans (List.Perm.trans ?_ (adoptSingleIdentity_perm ys).symm)
  rw [adopted_perm h]
  exact h.map _

theorem fillIds_adopted [Casing] {fills : List FillRecord} (hids : (fills.map (·.fillId)).Nodup) :
    ((adoptSingleIdentity (usableFills fills)).map (·.fillId)).Nodup := by
  refine ((adoptSingleIdentity_perm (usableFills fills)).map _).nodup_iff.mpr ?_
  rw [List.map_map]
  exact hids.sublist (List.filter_sublist.map _)

/-! ## The books of a permuted input -/

variable {fills fills' : List FillRecord}

theorem usableFills_perm [Casing] (h : List.Perm fills fills') :
    List.Perm (usableFills fills) (usableFills fills') := h.filter _

theorem skipped_perm [Casing] (h : List.Perm fills fills') :
    (reconstructFifo fills).skippedFills = (reconstructFifo fills').skippedFills :=
  (h.filter _).length_eq

theorem bookItems_books [Casing] (fills : List FillRecord) :
    (bookItems fills).map BookItems.book =
      (groupsBy FillRecord.bookKey (adoptSingleIdentity (usableFills fills))).flatMap
        fun g => (splitByExchange g.2).map fun e => fifoBook g.1 e.1 e.2 := by
  unfold bookItems
  rw [List.map_flatMap]
  refine List.flatMap_congr fun g _ => ?_
  rw [List.map_map]
  rfl

theorem books_perm [Casing] (h : List.Perm fills fills') (hids : (fills.map (·.fillId)).Nodup) :
    List.Perm ((bookItems fills).map BookItems.book) ((bookItems fills').map BookItems.book) := by
  rw [bookItems_books, bookItems_books]
  refine flatMap_groupsBy_perm_of_perm
    (adoptSingleIdentity_perm_of_perm (usableFills_perm h)) fun key zs hzs => ?_
  exact splitBooks_perm hzs ((fillIds_adopted hids).sublist (List.filter_sublist.map _))

/-! ## The order of the books -/

/-- **No identity traded on two exchanges.** -/
def OneExchange [Casing] (fills : List FillRecord) : Prop :=
  ∀ f ∈ adoptSingleIdentity (usableFills fills), ∀ g ∈ adoptSingleIdentity (usableFills fills),
    f.bookKey = g.bookKey → f.exchange ≠ "" → g.exchange ≠ "" → f.exchange = g.exchange

def BookKey.sortKey (key : BookKey) : String ×ₗ String ×ₗ String ×ₗ String :=
  toLex (key.currency, toLex (key.venue, toLex (key.symbol, key.account)))

theorem BookKey.sortKey_injective : Function.Injective BookKey.sortKey := by
  intro k k' h
  cases k
  cases k'
  have hparts := toLex.injective h
  have hparts' := toLex.injective (Prod.mk.inj hparts).2
  have hparts'' := Prod.mk.inj (toLex.injective (Prod.mk.inj hparts').2)
  rw [BookKey.mk.injEq]
  exact ⟨hparts''.2, (Prod.mk.inj hparts').1, (Prod.mk.inj hparts).1, hparts''.1⟩

theorem nodup_books [Casing] (h : OneExchange fills) :
    (((bookItems fills).map BookItems.book).map FifoBook.sortKey).Nodup := by
  have hkeys : ((bookItems fills).map BookItems.book).map FifoBook.sortKey =
      (groupKeys FillRecord.bookKey (adoptSingleIdentity (usableFills fills))).map
        BookKey.sortKey := by
    rw [bookItems_books, List.map_flatMap, groupKeys, List.map_map, List.map_eq_flatMap]
    refine List.flatMap_congr fun g hg => ?_
    obtain ⟨-, hitems⟩ := mem_groupsBy hg
    have hone : (exchangesOf g.2).length ≤ 1 := by
      refine dedup_length_le_one fun a ha b hb => ?_
      obtain ⟨ha, hane⟩ := List.mem_filter.mp ha
      obtain ⟨hb, hbne⟩ := List.mem_filter.mp hb
      obtain ⟨f, hf, rfl⟩ := List.mem_map.mp ha
      obtain ⟨f', hf', rfl⟩ := List.mem_map.mp hb
      rw [hitems] at hf hf'
      obtain ⟨hf, hkey⟩ := List.mem_filter.mp hf
      obtain ⟨hf', hkey'⟩ := List.mem_filter.mp hf'
      simp only [decide_eq_true_eq] at hkey hkey' hane hbne
      exact h f hf f' hf' (hkey.trans hkey'.symm) hane hbne
    rw [splitByExchange_of_le hone]
    rfl
  rw [hkeys]
  exact (nodup_groupKeys _ _).map BookKey.sortKey_injective

/-! ### The first book of an identity -/

theorem adoptSingleIdentity_cons [Casing] (x : FillRecord) (rest : List FillRecord) :
    ∃ tail, adoptSingleIdentity (x :: rest) = adopted (x :: rest) x :: tail := by
  obtain ⟨ys, groups, hgroups⟩ := groupsBy_cons_head FillRecord.symbolKey x rest
  have hmem : (x.symbolKey, x :: ys) ∈ groupsBy FillRecord.symbolKey (x :: rest) :=
    hgroups ▸ List.mem_cons_self ..
  have hitems : x :: ys = (x :: rest).filter fun g => g.symbolKey = x.symbolKey :=
    (mem_groupsBy hmem).2
  unfold adoptSingleIdentity adopted
  rw [hgroups, List.flatMap_cons, ← hitems]
  exact ⟨_, rfl⟩

theorem splitByExchange_cons {f g : FillRecord} (hg : g ∈ items) (hf : f.exchange ≠ "")
    (hgne : g.exchange ≠ "") (hne : f.exchange ≠ g.exchange) :
    ∃ ys tail, splitByExchange (f :: items) = (f.exchange, ys) :: tail := by
  have hmem : ∀ f' ∈ f :: items, f'.exchange ≠ "" → f'.exchange ∈ exchangesOf (f :: items) :=
    fun f' hf' hne' => List.mem_dedup.mpr
      (List.mem_filter.mpr ⟨List.mem_map_of_mem hf', by simpa using hne'⟩)
  have hlong : 1 < (exchangesOf (f :: items)).length := by
    by_contra hshort
    have hfmem := hmem f (List.mem_cons_self ..) hf
    have hgmem := hmem g (List.mem_cons_of_mem f hg) hgne
    match hx : exchangesOf (f :: items) with
    | [] => rw [hx] at hfmem; cases hfmem
    | [a] =>
      rw [hx, List.mem_singleton] at hfmem hgmem
      exact hne (hfmem.trans hgmem.symm)
    | a :: b :: as => rw [hx] at hshort; simp at hshort
  rw [splitByExchange_of_lt hlong]
  obtain ⟨ys, tail, hgroups⟩ :=
    groupsBy_cons_head (fun f : FillRecord =>
      if f.exchange = "" then "UNKNOWN" else f.exchange) f items
  rw [hgroups]
  simp only [if_neg hf]
  exact ⟨_, _, rfl⟩

/-- Of the books of one key, that of the first fill comes first. -/
theorem first_book [Casing] {x : FillRecord} {rest : List FillRecord} {g : FillRecord}
    (hx : isSkipped x = false)
    (hg : g ∈ adoptSingleIdentity (usableFills (x :: rest)))
    (hkey : (adopted (usableFills (x :: rest)) x).bookKey = g.bookKey)
    (hxne : (adopted (usableFills (x :: rest)) x).exchange ≠ "") (hgne : g.exchange ≠ "")
    (hne : (adopted (usableFills (x :: rest)) x).exchange ≠ g.exchange) :
    (((reconstructFifo (x :: rest)).books.filter
      fun b => b.sortKey = g.bookKey.sortKey).head?).map (·.exchange) =
        some (adopted (usableFills (x :: rest)) x).exchange := by
  have husable : usableFills (x :: rest) = x :: usableFills rest := by
    unfold usableFills
    rw [List.filter_cons, hx]
    rfl
  obtain ⟨tail, htail⟩ := adoptSingleIdentity_cons x (usableFills rest)
  rw [← husable] at htail
  generalize adopted (usableFills (x :: rest)) x = f at *
  obtain ⟨ys, groups, hgroups⟩ := groupsBy_cons_head FillRecord.bookKey f tail
  have hitems : f :: ys = (f :: tail).filter fun g' => g'.bookKey = f.bookKey := by
    have hmem : (f.bookKey, f :: ys) ∈ groupsBy FillRecord.bookKey (f :: tail) :=
      hgroups ▸ List.mem_cons_self ..
    exact (mem_groupsBy hmem).2
  have hgys : g ∈ ys := by
    have hmem : g ∈ f :: ys := by
      rw [hitems]
      exact List.mem_filter.mpr ⟨htail ▸ hg, by simpa using hkey.symm⟩
    rcases List.mem_cons.mp hmem with rfl | hmem
    · exact absurd rfl hne
    · exact hmem
  obtain ⟨zs, parts, hsplit⟩ := splitByExchange_cons hgys hxne hgne hne
  show ((sortedBy FifoBook.sortKey _).filter _).head?.map _ = _
  rw [filter_sortedBy, bookItems_books, htail, hgroups, List.flatMap_cons, hsplit, List.map_cons,
    List.cons_append, List.filter_cons, if_pos]
  · rfl
  · rw [← hkey]
    exact decide_eq_true rfl

/-! ## Where the ledger does not depend on the order -/

/-- **The ledger is a function of the fills exactly where no identity traded on two
    exchanges.** -/
theorem ledger_order_free_iff [Casing] (hids : (fills.map (·.fillId)).Nodup) :
    (∀ fills', List.Perm fills' fills → reconstructFifo fills' = reconstructFifo fills) ↔
      OneExchange fills := by
  constructor
  · intro hfree f hf g hg hkey hfne hgne
    by_contra hne
    -- each of the two fills is put first, and its exchange then is the first book's
    have hfirst : ∀ f ∈ adoptSingleIdentity (usableFills fills),
        ∀ g ∈ adoptSingleIdentity (usableFills fills), f.bookKey = g.bookKey → f.exchange ≠ "" →
        g.exchange ≠ "" → f.exchange ≠ g.exchange →
        (((reconstructFifo fills).books.filter
          fun b => b.sortKey = g.bookKey.sortKey).head?).map (·.exchange) = some f.exchange := by
      intro f hf g hg hkey hfne hgne hne
      obtain ⟨x, hx, rfl⟩ := List.mem_map.mp ((adoptSingleIdentity_perm _).mem_iff.mp hf)
      obtain ⟨hmem, hkept⟩ := List.mem_filter.mp hx
      have hperm : List.Perm (x :: fills.erase x) fills := (List.perm_cons_erase hmem).symm
      have husable := usableFills_perm hperm
      rw [← adopted_perm husable] at hkey hfne hne ⊢
      rw [← hfree _ hperm]
      refine first_book (by simpa using hkept) ?_ hkey hfne hgne hne
      exact (adoptSingleIdentity_perm_of_perm husable).mem_iff.mpr hg
    have hone := hfirst f hf g hg hkey hfne hgne hne
    have htwo := hfirst g hg f hf hkey.symm hgne hfne (Ne.symm hne)
    rw [hkey, hone] at htwo
    exact hne (Option.some.inj htwo)
  · intro hone fills' hperm
    have hbooks : (reconstructFifo fills').books = (reconstructFifo fills).books :=
      (sortedBy_eq_of_perm (books_perm hperm.symm hids) (nodup_books hone)).symm
    have hskipped := skipped_perm hperm
    calc reconstructFifo fills'
        = ⟨(reconstructFifo fills').books, (reconstructFifo fills').skippedFills⟩ := rfl
      _ = ⟨(reconstructFifo fills).books, (reconstructFifo fills).skippedFills⟩ := by
          rw [hbooks, hskipped]
      _ = reconstructFifo fills := rfl

end Ledger

section Samples

attribute [local instance] asciiCasing

def sampleFill (fillId exchange : String) (time : Int) : FillRecord :=
  { symbol := "BHP", side := "buy", quantity := 1, price := 40, executedAt := some time,
    venue := "AU", currency := "AUD", exchange, account := "DU1", fillId }

theorem ledger_order_free_one_exchange :
    (([sampleFill "e1" "ASX" 2, sampleFill "e2" "" 1].map (·.fillId)).Nodup ∧
      OneExchange [sampleFill "e1" "ASX" 2, sampleFill "e2" "" 1]) ∧
    ((∀ fills', List.Perm fills' [sampleFill "e1" "ASX" 2, sampleFill "e2" "" 1] →
        reconstructFifo fills' = reconstructFifo [sampleFill "e1" "ASX" 2, sampleFill "e2" "" 1]) ↔
      OneExchange [sampleFill "e1" "ASX" 2, sampleFill "e2" "" 1]) := by
  have hids : ([sampleFill "e1" "ASX" 2, sampleFill "e2" "" 1].map (·.fillId)).Nodup := by decide
  have hone : OneExchange [sampleFill "e1" "ASX" 2, sampleFill "e2" "" 1] := by
    unfold OneExchange
    decide +kernel
  exact ⟨⟨hids, hone⟩, ledger_order_free_iff hids⟩

/-- **One share bought on each of two exchanges**: the books swap with the fills. -/
theorem exchanges_swap_books :
    ¬ ∀ fills fills' : List FillRecord, (fills.map (·.fillId)).Nodup → List.Perm fills' fills →
      reconstructFifo fills' = reconstructFifo fills := by
  intro hall
  have hids : ([sampleFill "e1" "ASX" 1, sampleFill "e2" "CHIX" 2].map (·.fillId)).Nodup := by
    decide
  have hswap := hall _ [sampleFill "e2" "CHIX" 2, sampleFill "e1" "ASX" 1] hids
    (List.Perm.swap _ _ _)
  have hexchanges := congrArg (fun l => l.books.map (·.exchange)) hswap
  revert hexchanges
  decide +kernel

end Samples

end Investor.Intraday
