import Mathlib.Data.List.Perm.Basic
import Mathlib.Data.List.Nodup
import Mathlib.Data.List.Sort
import Mathlib.Data.List.Induction
import Mathlib.Data.List.MinMax

/-!
# Grouping by a key, in the order the keys come

`groups.setdefault(key(x), []).append(x)`, over a list: a dictionary of lists whose keys stand
in the order they were first seen. A group is the sublist of its key (`groupsBy_eq`), so nothing
is lost and nothing is doubled (`flatMap_groupsBy_perm`), and the groups of a permuted list are
the permuted groups (`flatMap_groupsBy_perm_of_perm`), up to the order they stand in. That order
is the one thing a permutation changes: the first group is the first element's
(`groupsBy_cons_head`).

Groups commute with a filter of their keys (`filter_groupsBy`), so what is made of the elements of
some keys does not depend on the others.

`eraseDups` keeps the first of each element, and nothing twice.

The last part is about sorting by a key. A sort commutes with any filter (`sortedBy_filter`) and
is stable (`filter_sortedBy`), so what a permutation changes among equal keys it also changes in
the sorted list; with distinct keys it changes nothing (`sortedBy_eq_of_perm`). The first that is
wanted has the least key of those wanted (`find?_sortedBy`), which no permutation changes.
-/

namespace Investor.Lib

variable {α β κ : Type*}

section Groups

variable [DecidableEq κ]

/-- `groups.setdefault(k, []).append(x)`. -/
def addToGroup (k : κ) (x : α) : List (κ × List α) → List (κ × List α)
  | [] => [(k, [x])]
  | g :: gs => if g.1 = k then (g.1, g.2 ++ [x]) :: gs else g :: addToGroup k x gs

def groupsBy (key : α → κ) (xs : List α) : List (κ × List α) :=
  xs.foldl (fun gs x => addToGroup (key x) x gs) []

def groupKeys (key : α → κ) (xs : List α) : List κ := (groupsBy key xs).map (·.1)

variable {key : α → κ}

theorem addToGroup_map {k : κ} {x : α} {f : κ → List α} {ks : List κ} (hnodup : ks.Nodup)
    (hnone : k ∉ ks → f k = []) :
    addToGroup k x (ks.map fun j => (j, f j)) =
      (if k ∈ ks then ks else ks ++ [k]).map fun j => (j, if k = j then f j ++ [x] else f j) := by
  induction ks with
  | nil => simp [addToGroup, hnone List.not_mem_nil]
  | cons j js ih =>
    obtain ⟨hj, hjs⟩ := List.nodup_cons.mp hnodup
    rw [List.map_cons, addToGroup]
    by_cases hk : j = k
    · subst hk
      have hrest : js.map (fun i => (i, f i)) =
          js.map fun i => (i, if j = i then f i ++ [x] else f i) :=
        List.map_congr_left fun i hi => by
          have hji : j ≠ i := fun h => hj (h ▸ hi)
          rw [if_neg hji]
      simp [hrest]
    · have hkj : k ≠ j := fun h => hk h.symm
      rw [if_neg hk, ih hjs fun hmem => hnone fun h => (List.mem_cons.mp h).elim hkj hmem]
      by_cases hmem : k ∈ js <;> simp [hmem, hkj]

theorem groupsBy_snoc (key : α → κ) (xs : List α) (x : α) :
    groupsBy key (xs ++ [x]) = addToGroup (key x) x (groupsBy key xs) :=
  List.foldl_append

theorem groupsBy_spec (key : α → κ) (xs : List α) :
    groupsBy key xs = (groupKeys key xs).map (fun k => (k, xs.filter fun x => key x = k)) ∧
      (groupKeys key xs).Nodup ∧ ∀ k, k ∈ groupKeys key xs ↔ ∃ x ∈ xs, key x = k := by
  induction xs using List.reverseRec with
  | nil => simp [groupKeys, groupsBy]
  | append_singleton xs x ih =>
    obtain ⟨hgroups, hnodup, hkeys⟩ := ih
    have hnone : key x ∉ groupKeys key xs → xs.filter (fun y => key y = key x) = [] := by
      intro hmem
      rw [List.filter_eq_nil_iff]
      intro y hy hkey
      exact hmem ((hkeys _).mpr ⟨y, hy, by simpa using hkey⟩)
    have hstep := addToGroup_map (x := x) (f := fun k => xs.filter fun y => key y = k) hnodup hnone
    rw [← hgroups, ← groupsBy_snoc] at hstep
    have hnew : groupKeys key (xs ++ [x]) =
        if key x ∈ groupKeys key xs then groupKeys key xs else groupKeys key xs ++ [key x] := by
      unfold groupKeys at hstep ⊢
      rw [hstep, List.map_map]
      exact List.map_id _
    refine ⟨?_, ?_, fun k => ?_⟩
    · rw [hnew, hstep]
      refine List.map_congr_left fun j _ => ?_
      by_cases hj : key x = j <;> simp [List.filter_append, hj]
    · rw [hnew]
      split
      · exact hnodup
      · rename_i hmem
        rw [List.nodup_append]
        exact ⟨hnodup, List.nodup_singleton _, fun a ha b hb hab =>
          hmem (List.mem_singleton.mp hb ▸ hab ▸ ha)⟩
    · rw [hnew]
      split
      · rename_i hmem
        rw [hkeys]
        constructor
        · rintro ⟨y, hy, hkey⟩
          exact ⟨y, List.mem_append_left [x] hy, hkey⟩
        · rintro ⟨y, hy, rfl⟩
          rcases List.mem_append.mp hy with hy | hy
          · exact ⟨y, hy, rfl⟩
          · rw [List.mem_singleton.mp hy]
            exact (hkeys _).mp hmem
      · simp only [List.mem_append, hkeys, List.mem_singleton]
        constructor
        · rintro (⟨y, hy, hkey⟩ | rfl)
          · exact ⟨y, Or.inl hy, hkey⟩
          · exact ⟨x, Or.inr rfl, rfl⟩
        · rintro ⟨y, hy | rfl, hkey⟩
          · exact Or.inl ⟨y, hy, hkey⟩
          · exact Or.inr hkey.symm

theorem groupsBy_eq (key : α → κ) (xs : List α) :
    groupsBy key xs = (groupKeys key xs).map (fun k => (k, xs.filter fun x => key x = k)) :=
  (groupsBy_spec key xs).1

theorem nodup_groupKeys (key : α → κ) (xs : List α) : (groupKeys key xs).Nodup :=
  (groupsBy_spec key xs).2.1

theorem mem_groupKeys {xs : List α} {k : κ} : k ∈ groupKeys key xs ↔ ∃ x ∈ xs, key x = k :=
  (groupsBy_spec key xs).2.2 k

theorem mem_groupsBy {xs : List α} {g : κ × List α} (h : g ∈ groupsBy key xs) :
    (∃ x ∈ xs, key x = g.1) ∧ g.2 = xs.filter fun x => key x = g.1 := by
  rw [groupsBy_eq] at h
  obtain ⟨k, hk, rfl⟩ := List.mem_map.mp h
  exact ⟨mem_groupKeys.mp hk, rfl⟩

theorem find?_groupsBy (key : α → κ) (xs : List α) (k : κ) :
    (groupsBy key xs).find? (fun g => g.1 = k) =
      if k ∈ groupKeys key xs then some (k, xs.filter fun x => key x = k) else none := by
  rw [groupsBy_eq]
  generalize groupKeys key xs = keys
  induction keys with
  | nil => rfl
  | cons j keys ih =>
    rw [List.map_cons, List.find?_cons]
    by_cases hj : j = k
    · subst hj
      simp
    · have hne : ¬ k = j := fun h => hj h.symm
      simp [hj, hne, ih]

theorem getD_find?_groupsBy (key : α → κ) (xs : List α) (k : κ) :
    (((groupsBy key xs).find? fun g => g.1 = k).map (·.2)).getD [] =
      xs.filter fun x => key x = k := by
  rw [find?_groupsBy]
  split
  · rfl
  · rename_i hnone
    refine (List.filter_eq_nil_iff.mpr fun x hx hkey => ?_).symm
    exact hnone (mem_groupKeys.mpr ⟨x, hx, by simpa using hkey⟩)

theorem groupsBy_cons_head (key : α → κ) (x : α) (xs : List α) :
    ∃ ys rest, groupsBy key (x :: xs) = (key x, x :: ys) :: rest := by
  induction xs using List.reverseRec with
  | nil => exact ⟨[], [], rfl⟩
  | append_singleton xs y ih =>
    obtain ⟨ys, rest, h⟩ := ih
    rw [← List.cons_append, groupsBy_snoc, h, addToGroup]
    split
    · exact ⟨ys ++ [y], rest, rfl⟩
    · exact ⟨ys, _, rfl⟩

/-! ## Nothing lost, nothing doubled -/

theorem flatMap_filter_perm {xs : List α} : ∀ {ks : List κ}, ks.Nodup → (∀ x ∈ xs, key x ∈ ks) →
    List.Perm (ks.flatMap fun k => xs.filter fun x => key x = k) xs := by
  intro ks
  induction ks generalizing xs with
  | nil =>
    intro _ hall
    cases xs with
    | nil => exact List.Perm.refl _
    | cons x xs => cases hall x (List.mem_cons_self ..)
  | cons k ks ih =>
    intro hnodup hall
    obtain ⟨hk, hks⟩ := List.nodup_cons.mp hnodup
    have hothers : List.Perm
        (ks.flatMap fun j => (xs.filter fun x => key x ≠ k).filter fun x => key x = j)
        (xs.filter fun x => key x ≠ k) := by
      refine ih hks fun x hx => ?_
      obtain ⟨hx, hne⟩ := List.mem_filter.mp hx
      exact (List.mem_cons.mp (hall x hx)).resolve_left (by simpa using hne)
    have hsame : (ks.flatMap fun j => (xs.filter fun x => key x ≠ k).filter fun x => key x = j) =
        ks.flatMap fun j => xs.filter fun x => key x = j := by
      refine List.flatMap_congr fun j hj => ?_
      rw [List.filter_filter]
      refine List.filter_congr fun x _ => ?_
      by_cases hx : key x = j
      · have hne : key x ≠ k := fun h => hk (h ▸ hx ▸ hj)
        simp [hx, hx ▸ hne]
      · simp [hx]
    rw [List.flatMap_cons, ← hsame]
    refine (hothers.append_left _).trans ?_
    simpa using List.filter_append_perm (fun x => decide (key x = k)) xs

theorem flatMap_groupsBy_perm (key : α → κ) (xs : List α) :
    List.Perm ((groupsBy key xs).flatMap (·.2)) xs := by
  rw [groupsBy_eq, List.flatMap_map]
  exact flatMap_filter_perm (nodup_groupKeys key xs) fun x hx => mem_groupKeys.mpr ⟨x, hx, rfl⟩

theorem flatMap_groupsBy_perm_of_perm {f g : κ × List α → List β} {xs ys : List α}
    (h : List.Perm xs ys)
    (hfg : ∀ k zs, List.Perm (xs.filter fun x => key x = k) zs →
      List.Perm (f (k, xs.filter fun x => key x = k)) (g (k, zs))) :
    List.Perm ((groupsBy key xs).flatMap f) ((groupsBy key ys).flatMap g) := by
  have hkeys : List.Perm (groupKeys key xs) (groupKeys key ys) := by
    refine (List.perm_ext_iff_of_nodup (nodup_groupKeys key xs) (nodup_groupKeys key ys)).mpr
      fun k => ?_
    rw [mem_groupKeys, mem_groupKeys]
    exact exists_congr fun x => and_congr_left fun _ => h.mem_iff
  rw [groupsBy_eq key xs, groupsBy_eq key ys, List.flatMap_map, List.flatMap_map]
  refine List.Perm.trans ?_ (hkeys.flatMap_right _)
  exact List.Perm.flatMap_left _ fun k _ => hfg k _ (h.filter _)

/-! ## The groups of some keys -/

theorem filter_addToGroup (p : κ → Bool) (k : κ) (x : α) (gs : List (κ × List α)) :
    (addToGroup k x gs).filter (fun g => p g.1) =
      if p k then addToGroup k x (gs.filter fun g => p g.1) else gs.filter fun g => p g.1 := by
  induction gs with
  | nil => cases hk : p k <;> simp [addToGroup, hk]
  | cons g gs ih =>
    rw [addToGroup]
    by_cases hg : g.1 = k
    · subst hg
      cases hp : p g.1 <;> simp [addToGroup, hp]
    · rw [if_neg hg, List.filter_cons, ih, List.filter_cons]
      cases hp : p g.1 <;> cases hk : p k <;> simp [addToGroup, hg]

theorem filter_groupsBy (p : κ → Bool) (xs : List α) :
    (groupsBy key xs).filter (fun g => p g.1) = groupsBy key (xs.filter fun x => p (key x)) := by
  induction xs using List.reverseRec with
  | nil => rfl
  | append_singleton xs x ih =>
    rw [groupsBy_snoc, filter_addToGroup, ih, List.filter_append]
    cases hp : p (key x)
    · simp [hp]
    · rw [List.filter_cons, hp, if_pos rfl, if_pos rfl, List.filter_nil, groupsBy_snoc]

end Groups

theorem filter_flatMap {p : α → Bool} {q : β → Bool} {f : α → List β} {xs : List α}
    (h : ∀ x ∈ xs, ∀ y ∈ f x, q y = p x) :
    (xs.flatMap f).filter q = (xs.filter p).flatMap f := by
  induction xs with
  | nil => rfl
  | cons x xs ih =>
    have hrest := ih fun y hy => h y (List.mem_cons_of_mem x hy)
    have hhead := h x (List.mem_cons_self ..)
    rw [List.flatMap_cons, List.filter_append, hrest, List.filter_cons]
    cases hp : p x with
    | true =>
      have hall : (f x).filter q = f x :=
        List.filter_eq_self.mpr fun y hy => (hhead y hy).trans hp
      rw [hall, if_pos rfl, List.flatMap_cons]
    | false =>
      have hnone : (f x).filter q = [] :=
        List.filter_eq_nil_iff.mpr fun y hy => by simp [hhead y hy, hp]
      rw [hnone]
      rfl

/-! ## Each element once -/

theorem mem_take_append_cons {x : α} {xs ys : List α} (h : x ∉ xs) {n : ℕ} :
    x ∈ (xs ++ x :: ys).take n ↔ xs.length < n := by
  rw [List.take_append, List.mem_append]
  constructor
  · rintro (hfront | hback)
    · exact absurd (List.mem_of_mem_take hfront) h
    · by_contra hle
      rw [Nat.sub_eq_zero_of_le (Nat.le_of_not_lt hle)] at hback
      cases hback
  · intro hlt
    obtain ⟨k, hk⟩ := Nat.exists_eq_add_of_lt hlt
    refine Or.inr ?_
    rw [hk, show xs.length + k + 1 - xs.length = k + 1 by omega]
    exact List.mem_cons_self

section EachOnce

variable [DecidableEq α]

theorem eraseDups_snoc (xs : List α) (x : α) :
    (xs ++ [x]).eraseDups = if x ∈ xs then xs.eraseDups else xs.eraseDups ++ [x] := by
  rw [List.eraseDups_append]
  split
  · rename_i hx
    simp [List.removeAll, hx]
  · rename_i hx
    simp [List.removeAll, hx, List.eraseDups_cons]

theorem nodup_eraseDups (xs : List α) : xs.eraseDups.Nodup := by
  induction xs using List.reverseRecOn with
  | nil => exact List.nodup_nil
  | append_singleton xs x ih =>
    rw [eraseDups_snoc]
    split
    · exact ih
    · rename_i hx
      rw [List.nodup_append]
      refine ⟨ih, List.nodup_singleton x, fun a ha b hb hab => hx ?_⟩
      obtain rfl := List.mem_singleton.mp hb
      exact hab ▸ List.mem_eraseDups.mp ha

theorem eraseDups_split {x : α} {xs : List α} (h : x ∈ xs) :
    ∃ ys, xs.eraseDups = (xs.takeWhile (· ≠ x)).eraseDups ++ x :: ys := by
  obtain ⟨before, after, rfl, hnot⟩ := List.eq_append_cons_of_mem h
  have hbefore : (before ++ x :: after).takeWhile (· ≠ x) = before := by
    rw [List.takeWhile_append_of_pos]
    · simp
    · exact fun y hy => decide_eq_true fun heq => hnot (heq ▸ hy)
  have hremove : (x :: after).removeAll before = x :: after.removeAll before := by
    rw [List.cons_removeAll, if_pos]
    simpa using hnot
  rw [hbefore, List.eraseDups_append, hremove, List.eraseDups_cons]
  exact ⟨_, rfl⟩

theorem length_eraseDups_le (xs : List α) :
    xs.eraseDups.length ≤ xs.length :=
  (List.subperm_of_subset (nodup_eraseDups xs) fun _ h => List.mem_eraseDups.mp h).length_le

end EachOnce

/-! ## Sorting by a key -/

section Sorting

variable [LinearOrder κ] {key : α → κ}

/-- `sorted(xs, key=key)`: stable. -/
def sortedBy (key : α → κ) (xs : List α) : List α := xs.insertionSort fun a b => key a ≤ key b

theorem sortedBy_perm (key : α → κ) (xs : List α) : List.Perm (sortedBy key xs) xs :=
  List.perm_insertionSort _ xs

theorem pairwise_sortedBy (key : α → κ) (xs : List α) :
    (sortedBy key xs).Pairwise fun a b => key a ≤ key b :=
  have : Std.Total (fun a b : α => key a ≤ key b) := ⟨fun a b => le_total (key a) (key b)⟩
  have : IsTrans α (fun a b : α => key a ≤ key b) := ⟨fun _ _ _ => le_trans⟩
  List.pairwise_insertionSort _ xs

theorem sortedBy_eq_of_perm {xs ys : List α} (h : List.Perm xs ys) (hkeys : (xs.map key).Nodup) :
    sortedBy key xs = sortedBy key ys := by
  have hperm : List.Perm (sortedBy key xs) (sortedBy key ys) :=
    (sortedBy_perm key xs).trans (h.trans (sortedBy_perm key ys).symm)
  refine hperm.eq_of_pairwise (fun a b ha hb hab hba => ?_) (pairwise_sortedBy key xs)
    (pairwise_sortedBy key ys)
  have ha := (sortedBy_perm key xs).mem_iff.mp ha
  have hb := h.mem_iff.mpr ((sortedBy_perm key ys).mem_iff.mp hb)
  exact List.inj_on_of_nodup_map hkeys ha hb (le_antisymm hab hba)

theorem filter_orderedInsert (p : α → Bool) (a : α) {xs : List α}
    (h : xs.Pairwise fun a b => key a ≤ key b) :
    (xs.orderedInsert (fun a b => key a ≤ key b) a).filter p =
      if p a then (xs.filter p).orderedInsert (fun a b => key a ≤ key b) a else xs.filter p := by
  induction xs with
  | nil => cases hp : p a <;> simp [hp]
  | cons b xs ih =>
    obtain ⟨hb, hrest⟩ := List.pairwise_cons.mp h
    rw [List.orderedInsert_cons]
    split
    · rename_i hab
      rw [List.filter_cons]
      cases hp : p a
      · rfl
      · -- whatever is kept stands at or after `b`
        have hfirst : ∀ c ∈ (b :: xs).filter p, key a ≤ key c := by
          intro c hc
          rcases List.mem_cons.mp (List.mem_filter.mp hc).1 with rfl | hc
          · exact hab
          · exact hab.trans (hb c hc)
        match hfilter : (b :: xs).filter p with
        | [] => rfl
        | c :: cs =>
          have hac := hfirst c (hfilter ▸ List.mem_cons_self ..)
          simp [List.orderedInsert_cons, hac]
    · rename_i hab
      rw [List.filter_cons, ih hrest, List.filter_cons]
      cases hp : p a <;> cases hq : p b <;> simp [List.orderedInsert_cons, hab]

theorem sortedBy_filter (p : α → Bool) (xs : List α) :
    (sortedBy key xs).filter p = sortedBy key (xs.filter p) := by
  induction xs with
  | nil => rfl
  | cons x xs ih =>
    have hsorted := pairwise_sortedBy key xs
    unfold sortedBy at ih hsorted ⊢
    rw [List.insertionSort_cons, filter_orderedInsert p x hsorted, ih, List.filter_cons]
    cases p x <;> rfl

theorem filter_sortedBy (key : α → κ) (xs : List α) (k : κ) :
    (sortedBy key xs).filter (fun a => key a = k) = xs.filter fun a => key a = k := by
  have hequal : (xs.filter fun a => key a = k).Pairwise fun a b => key a ≤ key b := by
    refine List.pairwise_of_forall_mem_list fun a ha b hb => ?_
    have ha : key a = k := by simpa using (List.mem_filter.mp ha).2
    have hb : key b = k := by simpa using (List.mem_filter.mp hb).2
    exact (ha.trans hb.symm).le
  rw [sortedBy_filter]
  exact hequal.insertionSort_eq

theorem filter_take_of_pairwise {xs : List α} (h : xs.Pairwise fun a b => key a ≤ key b) (bound : κ) (n : ℕ) :
    (xs.take n).filter (fun a => key a ≤ bound) = (xs.filter fun a => key a ≤ bound).take n := by
  induction xs generalizing n with
  | nil => simp
  | cons x xs ih =>
    obtain ⟨hx, hrest⟩ := List.pairwise_cons.mp h
    cases n with
    | zero => rfl
    | succ n =>
      rw [List.take_succ_cons, List.filter_cons, List.filter_cons, ih hrest]
      by_cases hle : key x ≤ bound
      · rw [if_pos (decide_eq_true hle), if_pos (decide_eq_true hle), List.take_succ_cons]
      · have hnone : xs.filter (fun a => key a ≤ bound) = [] :=
          List.filter_eq_nil_iff.mpr fun a ha hbound =>
            hle ((hx a ha).trans (of_decide_eq_true hbound))
        rw [hnone, List.take_nil, if_neg fun h => hle (of_decide_eq_true h), List.take_nil]

theorem sublist_of_pairwise {xs : List α} (h : xs.Pairwise fun a b => key a ≤ key b) {a b : α} (ha : a ∈ xs)
    (hb : b ∈ xs) (hlt : key a < key b) : [a, b].Sublist xs := by
  induction xs with
  | nil => cases ha
  | cons x xs ih =>
    obtain ⟨hx, hrest⟩ := List.pairwise_cons.mp h
    rcases List.mem_cons.mp ha with rfl | ha'
    · rcases List.mem_cons.mp hb with rfl | hb'
      · exact absurd hlt (lt_irrefl _)
      · exact (List.singleton_sublist.mpr hb').cons_cons a
    · rcases List.mem_cons.mp hb with rfl | hb'
      · exact absurd hlt (not_lt.mpr (hx a ha'))
      · exact (ih hrest ha' hb').cons x

def leastKey (key : α → κ) (xs : List α) : Option κ := (xs.map key).min?

theorem leastKey_eq_some_iff {xs : List α} {k : κ} :
    leastKey key xs = some k ↔ (∃ a ∈ xs, key a = k) ∧ ∀ a ∈ xs, k ≤ key a := by
  rw [leastKey, List.min?_eq_some_iff, List.mem_map, List.forall_mem_map]

theorem leastKey_congr {xs ys : List α} (h : ∀ a, a ∈ xs ↔ a ∈ ys) : leastKey key xs = leastKey key ys := by
  refine Option.ext fun k => ?_
  rw [leastKey_eq_some_iff, leastKey_eq_some_iff]
  simp only [h]

theorem leastKey_append_of_le {xs ys : List α} {k : κ} (h : leastKey key ys = some k)
    (hle : ∀ a ∈ xs, k ≤ key a) : leastKey key (xs ++ ys) = some k := by
  obtain ⟨⟨a, ha, hk⟩, hleast⟩ := leastKey_eq_some_iff.mp h
  refine leastKey_eq_some_iff.mpr ⟨⟨a, List.mem_append_right _ ha, hk⟩, ?_⟩
  intro b hb
  rcases List.mem_append.mp hb with hb | hb
  · exact hle b hb
  · exact hleast b hb

theorem find?_sortedBy (p : α → Bool) (xs : List α) :
    ((sortedBy key xs).find? p).map key = leastKey key (xs.filter p) := by
  rw [← List.head?_filter, sortedBy_filter]
  have hperm := sortedBy_perm key (xs.filter p)
  have hsorted := pairwise_sortedBy key (xs.filter p)
  rw [leastKey_congr fun a => hperm.mem_iff.symm]
  cases hlist : sortedBy key (xs.filter p) with
  | nil => rfl
  | cons a as =>
    rw [hlist] at hsorted
    refine (leastKey_eq_some_iff.mpr ⟨⟨a, List.mem_cons_self .., rfl⟩, ?_⟩).symm
    intro b hb
    rcases List.mem_cons.mp hb with rfl | hb
    · exact le_rfl
    · exact (List.pairwise_cons.mp hsorted).1 b hb

def greatestKey (key : α → κ) (xs : List α) : Option κ := (xs.map key).max?

theorem greatestKey_eq_some_iff {xs : List α} {k : κ} :
    greatestKey key xs = some k ↔ (∃ a ∈ xs, key a = k) ∧ ∀ a ∈ xs, key a ≤ k := by
  rw [greatestKey, List.max?_eq_some_iff, List.mem_map, List.forall_mem_map]

/-- `min(xs, key=key)`: the first of those with the least key. -/
def firstLeast (key : α → κ) (xs : List α) : Option α := xs.argmin key

theorem firstLeast_eq_none_iff {xs : List α} : firstLeast key xs = none ↔ xs = [] := List.argmin_eq_none

theorem firstLeast_least {xs : List α} {a : α} (h : firstLeast key xs = some a) : a ∈ xs ∧ ∀ b ∈ xs, key a ≤ key b :=
  ⟨List.argmin_mem h, fun _ hb => List.le_of_mem_argmin hb h⟩

end Sorting

end Investor.Lib
