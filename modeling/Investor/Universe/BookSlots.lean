import Investor.Universe.WatchlistRuns

/-!
# How many slots the membership book fills

`ranked_membership_book` takes one name of each sector in a round. Round `r` takes the name at
place `r` of those the book does not have yet, and every earlier round has shortened that list by
one. So the place moves forward while the list gets shorter, and a sector gives up after half of
its names, rounded up (`turnsLeft`): it is this that decides when a slot stays empty while eligible
names remain (`fillsBook_iff`).
-/

namespace Investor.Universe

open Lib Market

/-! ## Rounds over shrinking lists -/

/-- The rounds in which a list of `n` names still gives one, from round `r` on. -/
def turnsLeft (r n : ℕ) : ℕ := (n - r + 1) / 2

variable {n : ℕ}

theorem turnsLeft_of_le {r : ℕ} (h : n ≤ r) : turnsLeft r n = 0 := by
  unfold turnsLeft
  omega

theorem turnsLeft_succ {r : ℕ} (h : r < n) : turnsLeft r n = turnsLeft (r + 1) (n - 1) + 1 := by
  unfold turnsLeft
  omega

theorem turnsLeft_zero_eq_iff : turnsLeft 0 n = n ↔ n ≤ 1 := by
  unfold turnsLeft
  omega

theorem turnsLeft_zero_le (n : ℕ) : turnsLeft 0 n ≤ n := by
  unfold turnsLeft
  omega

theorem sum_turnsLeft_le (ns : List ℕ) : (ns.map (turnsLeft 0)).sum ≤ ns.sum := by
  induction ns with
  | nil => exact le_rfl
  | cons n ns ih =>
    have hn := turnsLeft_zero_le n
    rw [List.map_cons, List.sum_cons, List.sum_cons]
    omega

theorem sum_turnsLeft_eq_iff {ns : List ℕ} :
    (ns.map (turnsLeft 0)).sum = ns.sum ↔ ∀ n ∈ ns, n ≤ 1 := by
  induction ns with
  | nil => simp
  | cons n ns ih =>
    have hn := turnsLeft_zero_le n
    have hns := sum_turnsLeft_le ns
    rw [List.map_cons, List.sum_cons, List.sum_cons, List.forall_mem_cons, ← ih,
      ← turnsLeft_zero_eq_iff]
    omega

theorem sum_turnsLeft_eq_zero {ns : List ℕ} (h : (ns.map (turnsLeft 0)).sum = 0) : ns.sum = 0 := by
  refine List.sum_eq_zero fun n hn => ?_
  have hzero := List.sum_eq_zero_iff.mp h (turnsLeft 0 n) (List.mem_map_of_mem hn)
  unfold turnsLeft at hzero
  omega

section Slots

variable [StripCasing]

def spare (book names : List Ticker) : List Ticker := names.filter (· ∉ book)

def turns (roundIdx : ℕ) (book : List Ticker) (items : List (String × List Ticker)) : ℕ :=
  (items.map fun item => turnsLeft roundIdx (spare book item.2).length).sum

def givers (roundIdx : ℕ) (book : List Ticker) (items : List (String × List Ticker)) : ℕ :=
  (items.filter fun item => roundIdx < (spare book item.2).length).length

variable {cap week roundIdx : ℕ} {items : List (String × List Ticker)} {book : List Ticker}

theorem length_rotated (names : List Ticker) :
    ((names.rotate week).filter (· ∉ book)).length = (spare book names).length :=
  ((List.rotate_perm names week).filter _).length_eq

variable {names : List Ticker} {sym : Ticker}

theorem spare_append_of_notMem (h : sym ∉ names) :
    spare (book ++ [sym]) names = spare book names := by
  refine List.filter_congr fun n hn => ?_
  have hne : n ≠ sym := fun heq => h (heq ▸ hn)
  simp [hne]

theorem length_spare_append (hnodup : names.Nodup) (h : sym ∈ spare book names) :
    (spare (book ++ [sym]) names).length = (spare book names).length - 1 := by
  have herase : spare (book ++ [sym]) names = (spare book names).erase sym := by
    have hspare : (spare book names).Nodup := hnodup.filter _
    rw [hspare.erase_eq_filter]
    unfold spare
    rw [List.filter_filter]
    refine List.filter_congr fun n _ => ?_
    by_cases hn : n = sym
    · simp [hn]
    · simp [hn]
  rw [herase, List.length_erase_of_mem h]

theorem givers_append_of_notMem (h : sym ∉ items.flatMap (·.2)) :
    givers roundIdx (book ++ [sym]) items = givers roundIdx book items := by
  unfold givers
  refine congrArg List.length (List.filter_congr fun item hitem => ?_)
  rw [spare_append_of_notMem fun hsym => h (List.mem_flatMap.mpr ⟨item, hitem, hsym⟩)]

theorem turns_append_of_notMem (h : sym ∉ items.flatMap (·.2)) :
    turns roundIdx (book ++ [sym]) items = turns roundIdx book items := by
  unfold turns
  refine congrArg List.sum (List.map_congr_left fun item hitem => ?_)
  rw [spare_append_of_notMem fun hsym => h (List.mem_flatMap.mpr ⟨item, hitem, hsym⟩)]

theorem rotationRound_cons (cap week roundIdx : ℕ) (sector : String) (names : List Ticker)
    (items : List (String × List Ticker)) (book : List Ticker) :
    ((spare book names).length ≤ roundIdx ∧
      rotationRound cap week roundIdx ((sector, names) :: items) book =
        rotationRound cap week roundIdx items book) ∨
    (roundIdx < (spare book names).length ∧ ∃ sym ∈ spare book names,
      rotationRound cap week roundIdx ((sector, names) :: items) book =
        if cap ≤ (book ++ [sym]).length then book ++ [sym]
        else rotationRound cap week roundIdx items (book ++ [sym])) := by
  rw [rotationRound]
  dsimp only
  have hlength := @length_rotated _ week book names
  cases hpick : ((names.rotate week).filter (· ∉ book))[roundIdx]? with
  | none =>
    rw [List.getElem?_eq_none_iff, hlength] at hpick
    exact Or.inl ⟨hpick, rfl⟩
  | some sym =>
    have hlt : roundIdx < (spare book names).length := by
      by_contra hge
      rw [List.getElem?_eq_none (by omega)] at hpick
      cases hpick
    refine Or.inr ⟨hlt, sym, ?_, rfl⟩
    exact ((List.rotate_perm names week).filter _).mem_iff.mp (List.mem_of_getElem? hpick)

theorem mem_of_mem_spare (h : sym ∈ spare book names) :
    sym ∈ names := List.mem_of_mem_filter h

theorem mem_rotationRound (h : sym ∈ rotationRound cap week roundIdx items book) :
    sym ∈ book ∨ sym ∈ items.flatMap (·.2) := by
  induction items generalizing book with
  | nil => exact Or.inl h
  | cons item items ih =>
    obtain ⟨sector, names⟩ := item
    rw [List.flatMap_cons, List.mem_append]
    have hsnoc : ∀ {s : Ticker}, s ∈ spare book names → sym ∈ book ++ [s] →
        sym ∈ book ∨ sym ∈ names := by
      intro s hs hsym
      rcases List.mem_append.mp hsym with hbook | hone
      · exact Or.inl hbook
      · exact Or.inr (List.mem_singleton.mp hone ▸ mem_of_mem_spare hs)
    rcases rotationRound_cons cap week roundIdx sector names items book with
      ⟨-, heq⟩ | ⟨-, s, hs, heq⟩
    · rw [heq] at h
      exact (ih h).imp_right Or.inr
    · rw [heq] at h
      split at h
      · exact (hsnoc hs h).imp_right Or.inl
      · rcases ih h with hbook | hrest
        · exact (hsnoc hs hbook).imp_right Or.inl
        · exact Or.inr (Or.inr hrest)

theorem spare_rotationRound (h : ∀ n ∈ names, n ∉ items.flatMap (·.2)) :
    spare (rotationRound cap week roundIdx items book) names = spare book names := by
  induction items generalizing book with
  | nil => rfl
  | cons item items ih =>
    obtain ⟨sector, names'⟩ := item
    have hrest : ∀ n ∈ names, n ∉ items.flatMap (·.2) := fun n hn hmem =>
      h n hn (List.mem_flatMap.mpr (by
        obtain ⟨item, hitem, hin⟩ := List.mem_flatMap.mp hmem
        exact ⟨item, List.mem_cons_of_mem _ hitem, hin⟩))
    have hsnoc : ∀ {s : Ticker}, s ∈ spare book names' →
        spare (book ++ [s]) names = spare book names := fun hs =>
      spare_append_of_notMem fun hmem =>
        h _ hmem (List.mem_flatMap.mpr ⟨_, List.mem_cons_self, mem_of_mem_spare hs⟩)
    rcases rotationRound_cons cap week roundIdx sector names' items book with
      ⟨-, heq⟩ | ⟨-, s, hs, heq⟩
    · rw [heq]
      exact ih hrest
    · rw [heq]
      split
      · exact hsnoc hs
      · rw [ih hrest, hsnoc hs]

theorem rotationRound_spec (hnodup : (items.flatMap (·.2)).Nodup) (hroom : book.length < cap) :
    (rotationRound cap week roundIdx items book).length =
        min cap (book.length + givers roundIdx book items) ∧
      (book.length + givers roundIdx book items < cap →
        turns roundIdx book items =
          turns (roundIdx + 1) (rotationRound cap week roundIdx items book) items +
            givers roundIdx book items) := by
  induction items generalizing book with
  | nil => exact ⟨by simp [rotationRound, givers]; omega, fun _ => rfl⟩
  | cons item items ih =>
    obtain ⟨sector, names⟩ := item
    rw [List.flatMap_cons, List.nodup_append] at hnodup
    dsimp only at hnodup
    obtain ⟨hnames, hrest, hdisjoint⟩ := hnodup
    have hapart : ∀ n ∈ names, n ∉ items.flatMap (·.2) := fun n hn hmem =>
      hdisjoint n hn n hmem rfl
    have hturns : ∀ r (b : List Ticker), turns r b ((sector, names) :: items) =
        turnsLeft r (spare b names).length + turns r b items := fun r b => by
      simp [turns]
    rcases rotationRound_cons cap week roundIdx sector names items book with
      ⟨hnone, heq⟩ | ⟨hone, s, hs, heq⟩
    · have hgivers : givers roundIdx book ((sector, names) :: items) =
          givers roundIdx book items := by
        simp [givers, Nat.not_lt.mpr hnone]
      obtain ⟨hlength, hleft⟩ := ih hrest hroom
      rw [heq, hgivers]
      refine ⟨hlength, fun hfull => ?_⟩
      rw [hturns, hturns, spare_rotationRound hapart, turnsLeft_of_le hnone,
        turnsLeft_of_le (Nat.le_succ_of_le hnone), hleft hfull]
      omega
    · have hgivers : givers roundIdx book ((sector, names) :: items) =
          givers roundIdx book items + 1 := by
        simp [givers, hone]
      have hother : s ∉ items.flatMap (·.2) := hapart s (mem_of_mem_spare hs)
      rw [heq, hgivers]
      by_cases hfull : cap ≤ (book ++ [s]).length
      · rw [if_pos hfull]
        rw [List.length_append, List.length_singleton] at hfull ⊢
        exact ⟨by omega, fun hnot => by omega⟩
      · rw [if_neg hfull]
        obtain ⟨hlength, hleft⟩ := ih hrest (Nat.lt_of_not_le hfull)
        rw [givers_append_of_notMem hother, List.length_append, List.length_singleton]
          at hlength hleft
        refine ⟨by rw [hlength]; omega, fun hroom' => ?_⟩
        rw [hturns, hturns, spare_rotationRound hapart, length_spare_append hnames hs,
          turnsLeft_succ hone, ← turns_append_of_notMem hother, hleft (by omega)]
        omega

theorem givers_le_turns (roundIdx : ℕ) (book : List Ticker) (items : List (String × List Ticker)) :
    givers roundIdx book items ≤ turns roundIdx book items := by
  induction items with
  | nil => exact le_rfl
  | cons item items ih =>
    unfold givers turns at ih ⊢
    rw [List.filter_cons, List.map_cons, List.sum_cons]
    split
    · rename_i hlt
      rw [List.length_cons, turnsLeft_succ (of_decide_eq_true hlt)]
      omega
    · omega

theorem turns_eq_zero_of_givers (h : givers roundIdx book items = 0) :
    turns roundIdx book items = 0 := by
  unfold givers at h
  rw [List.length_eq_zero_iff, List.filter_eq_nil_iff] at h
  refine List.sum_eq_zero fun k hk => ?_
  obtain ⟨item, hitem, rfl⟩ := List.mem_map.mp hk
  exact turnsLeft_of_le (by simpa using h item hitem)

theorem length_rotation {fuel : ℕ} (hnodup : (items.flatMap (·.2)).Nodup)
    (hbook : book.length ≤ cap) (hfuel : cap ≤ book.length + fuel) :
    (rotation cap week items fuel roundIdx book).length =
      min cap (book.length + turns roundIdx book items) := by
  induction fuel generalizing roundIdx book with
  | zero =>
    rw [rotation]
    omega
  | succ fuel ih =>
    rw [rotation_succ]
    split
    · omega
    rename_i hroom
    obtain ⟨hlength, hleft⟩ :=
      @rotationRound_spec _ cap week roundIdx items book hnodup (Nat.lt_of_not_le hroom)
    split
    · rename_i hsame
      have hnone : givers roundIdx book items = 0 := by omega
      rw [hsame, turns_eq_zero_of_givers hnone]
      omega
    · rename_i hmore
      have hturns := givers_le_turns roundIdx book items
      rw [ih (by omega) (by omega), hlength]
      by_cases hfull : book.length + givers roundIdx book items < cap
      · rw [hleft hfull]
        omega
      · omega

theorem mem_rotation {fuel : ℕ} (h : sym ∈ rotation cap week items fuel roundIdx book) :
    sym ∈ book ∨ sym ∈ items.flatMap (·.2) := by
  induction fuel generalizing roundIdx book with
  | zero => exact Or.inl h
  | succ fuel ih =>
    rw [rotation_succ] at h
    split at h
    · exact Or.inl h
    · split at h
      · exact mem_rotationRound h
      · rcases ih h with hround | hnames
        · exact mem_rotationRound hround
        · exact Or.inr hnames

/-! ## The holdings -/

theorem addHolding_distinctNames (raws : List String) (raw : String) :
    addHolding (distinctNames raws) (Ticker.ofText raw) = distinctNames (raws ++ [raw]) := by
  unfold addHolding distinctNames
  rw [List.map_append, List.filter_append, List.map_singleton]
  generalize Ticker.ofText raw = sym
  by_cases hname : sym.text = ""
  · have hnone : [sym].filter (fun t => t.text ≠ "") = [] := by simp [hname]
    rw [hnone, List.append_nil, if_neg fun h => h.1 hname]
  · have hone : [sym].filter (fun t => t.text ≠ "") = [sym] := by simp [hname]
    rw [hone, eraseDups_snoc]
    by_cases hmem : sym ∈ (raws.map Ticker.ofText).filter fun t => t.text ≠ ""
    · rw [if_pos hmem, if_neg fun h => h.2 (List.mem_eraseDups.mpr hmem)]
    · rw [if_neg hmem, if_pos ⟨hname, fun h => hmem (List.mem_eraseDups.mp h)⟩]

theorem isPrefix_distinctNames (raws raws' : List String) :
    List.IsPrefix (distinctNames raws) (distinctNames (raws ++ raws')) := by
  unfold distinctNames
  rw [List.map_append, List.filter_append, List.eraseDups_append]
  exact List.prefix_append _ _

theorem bookHoldings_eq {raws holdings : List String}
    (hroom : (distinctNames raws).length < cap) :
    bookHoldings cap holdings (distinctNames raws) =
      (distinctNames (raws ++ holdings)).take cap := by
  induction holdings generalizing raws with
  | nil =>
    rw [List.append_nil, List.take_of_length_le hroom.le]
    rfl
  | cons h holdings ih =>
    have hsplit : raws ++ h :: holdings = (raws ++ [h]) ++ holdings := by simp
    have hlength := length_addHolding_le (distinctNames raws) (Ticker.ofText h)
    rw [bookHoldings_cons, addHolding_distinctNames, hsplit]
    rw [addHolding_distinctNames] at hlength
    split
    · rename_i hfull
      have hcap : (distinctNames (raws ++ [h])).length = cap := by omega
      rw [← hcap]
      exact List.prefix_iff_eq_take.mp (isPrefix_distinctNames _ _)
    · rename_i hroom'
      exact ih (Nat.lt_of_not_le hroom')

/-! ## When every slot is filled -/

def eligibleMembers (cfg : UniverseSettings) (idx : IndexSnapshots) (eligible : List String) :
    List Ticker :=
  (membershipSymbols cfg idx none).filter fun t => t.text ∈ eligible.map Casing.upper

def sectorSpare (cfg : UniverseSettings) (idx : IndexSnapshots) (holdings eligible : List String) :
    List ℕ :=
  (membershipBySector cfg idx).map fun (_, names) =>
    (spare (distinctNames holdings)
      (names.filter fun t => t.text ∈ eligible.map Casing.upper)).length

/-- What a membership book is to be: distinct upper-case names, the holdings first, the others
    eligible members, and no slot empty while a name remains. -/
structure FillsBook (cfg : UniverseSettings) (idx : IndexSnapshots) (holdings : List String)
    (limit : Int) (eligible : List String) (book : List Ticker) : Prop where
  distinct : book.Nodup
  upper : ∀ t ∈ book, Casing.upper t.text = t.text
  holdingsFirst : List.IsPrefix ((distinctNames holdings).take book.length) book
  members : ∀ t ∈ book, t ∈ distinctNames holdings ∨ t ∈ eligibleMembers cfg idx eligible
  full : (book.length : Int) = min limit
    ((distinctNames holdings).toFinset ∪ (eligibleMembers cfg idx eligible).toFinset).card

variable {cfg : UniverseSettings} {idx : IndexSnapshots} {holdings eligible : List String}
  {limit : Int} {isoWeek : ℕ}

theorem nodup_membershipSymbols : (membershipSymbols cfg idx none).Nodup := nodup_eraseDups _

theorem membershipBySector_perm :
    List.Perm ((membershipBySector cfg idx).flatMap (·.2)) (membershipSymbols cfg idx none) :=
  (flatMap_groupsBy_perm _ _).trans (sortedBy_perm _ _)

def bookItems (cfg : UniverseSettings) (idx : IndexSnapshots) (eligible : List String)
    (isoWeek : ℕ) : List (String × List Ticker) :=
  (((membershipBySector cfg idx).map fun (sector, names) =>
    (sector, names.filter fun n => n.text ∈ eligible.map Casing.upper)).filter
      fun (_, names) => names ≠ []).rotate isoWeek

theorem flatMap_filter_nonempty (items : List (String × List Ticker)) :
    (items.filter fun (_, names) => names ≠ []).flatMap (·.2) = items.flatMap (·.2) := by
  induction items with
  | nil => rfl
  | cons item items ih =>
    obtain ⟨sector, names⟩ := item
    rw [List.filter_cons, List.flatMap_cons]
    cases names with
    | nil => simpa using ih
    | cons n names => simpa using ih

theorem bookItems_perm :
    List.Perm ((bookItems cfg idx eligible isoWeek).flatMap (·.2))
      (eligibleMembers cfg idx eligible) := by
  refine ((List.rotate_perm _ isoWeek).flatMap_right _).trans ?_
  rw [flatMap_filter_nonempty, List.flatMap_map, ← List.filter_flatMap]
  exact membershipBySector_perm.filter _

theorem nodup_bookItems : ((bookItems cfg idx eligible isoWeek).flatMap (·.2)).Nodup :=
  bookItems_perm.nodup_iff.mpr (nodup_membershipSymbols.filter _)

theorem turns_filter_nonempty (roundIdx : ℕ) (book : List Ticker)
    (items : List (String × List Ticker)) :
    turns roundIdx book (items.filter fun (_, names) => names ≠ []) =
      turns roundIdx book items := by
  induction items with
  | nil => rfl
  | cons item items ih =>
    obtain ⟨sector, names⟩ := item
    unfold turns at ih ⊢
    rw [List.filter_cons, List.map_cons, List.sum_cons]
    cases names with
    | nil => simpa [spare, turnsLeft] using ih
    | cons n names => simpa using ih

theorem turns_bookItems :
    turns 0 (distinctNames holdings) (bookItems cfg idx eligible isoWeek) =
      ((sectorSpare cfg idx holdings eligible).map (turnsLeft 0)).sum := by
  have hrotate : ∀ items : List (String × List Ticker),
      turns 0 (distinctNames holdings) (items.rotate isoWeek) =
        turns 0 (distinctNames holdings) items := fun items =>
    ((List.rotate_perm items isoWeek).map _).sum_eq
  unfold bookItems
  rw [hrotate, turns_filter_nonempty]
  unfold turns sectorSpare
  rw [List.map_map, List.map_map]
  rfl

theorem bookHoldings_nil :
    bookHoldings (max 1 limit).toNat holdings [] = (distinctNames holdings).take (max 1 limit).toNat := by
  have hcap : (distinctNames []).length < (max 1 limit).toNat := by
    show 0 < _
    omega
  exact bookHoldings_eq hcap

theorem length_rankedMembershipBook :
    (rankedMembershipBook cfg idx holdings limit isoWeek eligible).length =
      min (max 1 limit).toNat ((distinctNames holdings).length +
        ((sectorSpare cfg idx holdings eligible).map (turnsLeft 0)).sum) := by
  unfold rankedMembershipBook
  dsimp only
  rw [bookHoldings_nil, ← @turns_bookItems _ cfg idx holdings eligible isoWeek]
  generalize (max 1 limit).toNat = cap
  split
  · rename_i hfull
    rw [List.take_take, List.length_take]
    rw [List.length_take] at hfull
    omega
  · rename_i hroom
    rw [List.length_take] at hroom
    rw [List.take_of_length_le (by omega : (distinctNames holdings).length ≤ cap),
      List.length_take]
    have hlength := @length_rotation _ cap isoWeek 0 (bookItems cfg idx eligible isoWeek)
      (distinctNames holdings) cap nodup_bookItems (by omega) (by omega)
    unfold bookItems at hlength ⊢
    rw [hlength]
    omega

theorem rankedMembershipBook_begins :
    List.IsPrefix ((distinctNames holdings).take
        (rankedMembershipBook cfg idx holdings limit isoWeek eligible).length)
      (rankedMembershipBook cfg idx holdings limit isoWeek eligible) ∧
    ∀ t ∈ rankedMembershipBook cfg idx holdings limit isoWeek eligible,
      t ∈ distinctNames holdings ∨ t ∈ eligibleMembers cfg idx eligible := by
  unfold rankedMembershipBook
  dsimp only
  rw [bookHoldings_nil]
  generalize (max 1 limit).toNat = cap
  split
  · rw [List.take_take, min_self, List.length_take]
    refine ⟨?_, fun t ht => Or.inl (List.mem_of_mem_take ht)⟩
    exact List.take_prefix_take_left (min_le_left _ _)
  · rename_i hroom
    rw [List.length_take] at hroom
    have hbook : (distinctNames holdings).take cap = distinctNames holdings :=
      List.take_of_length_le (by omega)
    rw [hbook]
    have hgrows := (@fills_rotation _ cap isoWeek cap 0 (bookItems cfg idx eligible isoWeek)
      (distinctNames holdings)).grows
    unfold bookItems at hgrows
    constructor
    · refine List.prefix_take_iff.mpr ⟨(List.take_prefix _ _).trans hgrows, ?_⟩
      rw [List.length_take, List.length_take]
      omega
    · intro t ht
      refine (mem_rotation (List.mem_of_mem_take ht)).imp_right fun hnames => ?_
      exact (@bookItems_perm _ cfg idx eligible isoWeek).mem_iff.mp hnames

theorem card_names :
    ((distinctNames holdings).toFinset ∪ (eligibleMembers cfg idx eligible).toFinset).card =
      (distinctNames holdings).length + (sectorSpare cfg idx holdings eligible).sum := by
  have hspare : (sectorSpare cfg idx holdings eligible).sum =
      (spare (distinctNames holdings) (eligibleMembers cfg idx eligible)).length := by
    unfold sectorSpare spare eligibleMembers
    rw [((membershipBySector_perm.filter _).filter _).length_eq.symm]
    rw [List.filter_flatMap, List.filter_flatMap, List.length_flatMap]
  have hnodup : (distinctNames holdings ++
      spare (distinctNames holdings) (eligibleMembers cfg idx eligible)).Nodup := by
    rw [List.nodup_append]
    refine ⟨nodup_eraseDups _, (nodup_membershipSymbols.filter _).filter _, ?_⟩
    intro a ha b hb hab
    exact absurd ha (by simpa [hab] using (List.mem_filter.mp hb).2)
  rw [hspare, ← List.length_append, ← List.toFinset_card_of_nodup hnodup]
  congr 1
  ext t
  simp only [spare, Finset.mem_union, List.mem_toFinset, List.mem_append, List.mem_filter,
    decide_not, Bool.not_eq_eq_eq_not, Bool.not_true, decide_eq_false_iff_not]
  tauto

/-- **When the membership book fills its slots.** Exactly if half of what each sector has beside
    the holdings, rounded up, is enough for the slots the holdings leave, or no sector has two
    such names. A limit below one is taken for one. -/
theorem fillsBook_iff (cfg : UniverseSettings) (idx : IndexSnapshots) (holdings : List String)
    (limit : Int) (isoWeek : ℕ) (eligible : List String) :
    FillsBook cfg idx holdings limit eligible
        (rankedMembershipBook cfg idx holdings limit isoWeek eligible) ↔
      (1 ≤ limit ∨ (limit = 0 ∧ distinctNames holdings = [] ∧
        eligibleMembers cfg idx eligible = [])) ∧
      (limit ≤ ((distinctNames holdings).length +
          ((sectorSpare cfg idx holdings eligible).map fun n => (n + 1) / 2).sum : ℕ) ∨
        ∀ n ∈ sectorSpare cfg idx holdings eligible, n ≤ 1) := by
  have hspec := rankedMembershipBook_spec cfg idx holdings limit isoWeek eligible
  have hbegins := @rankedMembershipBook_begins _ cfg idx holdings eligible limit isoWeek
  have hlength := @length_rankedMembershipBook _ cfg idx holdings eligible limit isoWeek
  have hcard := @card_names _ cfg idx holdings eligible
  have hnone : distinctNames holdings = [] ∧ eligibleMembers cfg idx eligible = [] ↔
      (distinctNames holdings).length + (sectorSpare cfg idx holdings eligible).sum = 0 := by
    rw [← hcard, Finset.card_eq_zero, Finset.union_eq_empty, List.toFinset_eq_empty_iff,
      List.toFinset_eq_empty_iff]
  have hle := sum_turnsLeft_le (sectorSpare cfg idx holdings eligible)
  have hzero := @sum_turnsLeft_eq_zero (sectorSpare cfg idx holdings eligible)
  rw [hnone, ← sum_turnsLeft_eq_iff]
  show _ ↔ _ ∧ (_ ≤ (((distinctNames holdings).length +
    ((sectorSpare cfg idx holdings eligible).map (turnsLeft 0)).sum : ℕ) : Int) ∨ _)
  constructor
  · rintro ⟨-, -, -, -, hfull⟩
    rw [hlength, hcard] at hfull
    omega
  · intro h
    refine ⟨hspec.2.1, fun t _ => t.upper_text, hbegins.1, hbegins.2, ?_⟩
    rw [hlength, hcard]
    omega

end Slots

section Sample

attribute [local instance] asciiStripCasing

/-- **A slot stays empty while a name remains.** AAPL and MSFT are of one sector, and JPM of
    another; the second round looks for a second name in a list of one. -/
theorem smallBook_leaves_slot :
    ¬ ∀ (cfg : UniverseSettings) (idx : IndexSnapshots) (holdings : List String) (limit : Int)
      (isoWeek : ℕ) (eligible : List String), 1 ≤ limit →
        FillsBook cfg idx holdings limit eligible
          (rankedMembershipBook cfg idx holdings limit isoWeek eligible) := by
  intro hall
  have hfull := (hall (sampleUniverse ["AAPL"] "dynamic" 3) sampleSnapshots [] 3 1
    ["AAPL", "MSFT", "JPM"] (by decide)).full
  revert hfull
  decide +kernel

end Sample

end Investor.Universe
