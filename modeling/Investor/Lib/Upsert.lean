import Investor.Lib.Table
import Mathlib.Data.List.Induction

/-!
# Upserts

Items are written into a table one after another: an item that has a row rewrites it in
place, an item that has none is given a new row. Which row an item has is a parameter
(`target`); what an upsert loop comes to is said here for targets that the loop itself does
not move.

* `mem_applyAll`: every row of the outcome is an old one no item has, or is as some item left
  it last.
* `applyAll_perm`: if no two items have one row, the outcome is the old rows no item has and
  one row for each item, written over the row as it was before the loop.
* `applyAll_split`: the old rows then keep their places, so that a search from the front finds
  what it found before (`find?_applyAll`).

Nothing here is about any one program: rows, items and identities are parameters.
-/

namespace Investor.Lib

variable {ρ π ι : Type*}

structure Upsert (ρ π ι : Type*) where
  id : ρ → ι
  edit : ρ → π → ρ
  fresh : List ρ → π → ρ
  id_edit : ∀ r p, id (edit r p) = id r
  id_fresh : ∀ rows p, id (fresh rows p) ∉ rows.map id

theorem find?_eq_some_of_unique {α : Type*} {xs : List α} {q : α → Bool} {x : α} (hx : x ∈ xs)
    (hq : q x) (hunique : ∀ y ∈ xs, q y → y = x) : xs.find? q = some x := by
  cases hfound : xs.find? q with
  | none => exact absurd hq (List.find?_eq_none.mp hfound x hx)
  | some y => rw [hunique y (List.mem_of_find?_eq_some hfound) (List.find?_some hfound)]

namespace Upsert

variable {u : Upsert ρ π ι} {target : π → Option ι} {rows : List ρ} {ps : List π} {p : π} {r : ρ}
  {i : ι}

/-! ## What became of a row -/

/-- A row of the outcome, by the item that wrote it last. What no rewriting changes, `k`, is
    still that of an old row. -/
inductive LastWrite {κ : Type*} (u : Upsert ρ π ι) (target : π → Option ι) (k : ρ → κ)
    (rows : List ρ) (ps : List π) (r : ρ) : Prop
  | untouched (mem : r ∈ rows) (free : ∀ p ∈ ps, target p ≠ some (u.id r))
  | edited (p : π) (mem : p ∈ ps) (has : target p = some (u.id r))
      (written : ∃ r', r = u.edit r' p) (old : ∃ r₀ ∈ rows, u.id r₀ = u.id r ∧ k r₀ = k r)
  | made (p : π) (mem : p ∈ ps) (has : target p = none) (new : u.id r ∉ rows.map u.id)
      (written : ∃ before, r = u.fresh before p)

theorem LastWrite.concat {κ : Type*} {k : ρ → κ} (h : LastWrite u target k rows ps r)
    (hp : target p ≠ some (u.id r)) : LastWrite u target k rows (ps ++ [p]) r := by
  cases h with
  | untouched mem free =>
    refine .untouched mem fun q hq => ?_
    rcases List.mem_append.mp hq with hq | hq
    · exact free q hq
    · rwa [List.mem_singleton.mp hq]
  | edited q mem has written old => exact .edited q (List.mem_append_left _ mem) has written old
  | made q mem has new written => exact .made q (List.mem_append_left _ mem) has new written

theorem LastWrite.old {κ : Type*} {k : ρ → κ} (h : LastWrite u target k rows ps r)
    (hid : u.id r ∈ rows.map u.id) : ∃ r₀ ∈ rows, u.id r₀ = u.id r ∧ k r₀ = k r := by
  cases h with
  | untouched mem free => exact ⟨r, mem, rfl, rfl⟩
  | edited q mem has written old => exact old
  | made q mem has new written => exact absurd hid new

/-- What an item that shares its row with no other leaves. -/
inductive Wrote (u : Upsert ρ π ι) (target : π → Option ι) (rows : List ρ) (p : π) : ρ → Prop
  | edited (r₀ : ρ) (mem : r₀ ∈ rows) (has : target p = some (u.id r₀)) :
      Wrote u target rows p (u.edit r₀ p)
  | made (before : List ρ) (has : target p = none)
      (new : u.id (u.fresh before p) ∉ rows.map u.id) : Wrote u target rows p (u.fresh before p)

theorem Wrote.id_ne (h : Wrote u target rows p r) (hi : i ∈ rows.map u.id)
    (hp : target p ≠ some i) : u.id r ≠ i := by
  cases h with
  | edited r₀ mem has =>
    rw [u.id_edit]
    rintro rfl
    exact hp has
  | made before has new =>
    rintro rfl
    exact new hi

/-- What became of an old row where no two items have one row. -/
inductive Rewritten (u : Upsert ρ π ι) (target : π → Option ι) (ps : List π) (r : ρ) : ρ → Prop
  | same (free : ∀ p ∈ ps, target p ≠ some (u.id r)) : Rewritten u target ps r r
  | edited (p : π) (mem : p ∈ ps) (has : target p = some (u.id r)) :
      Rewritten u target ps r (u.edit r p)

theorem Rewritten.id_eq {r' : ρ} (h : Rewritten u target ps r r') : u.id r' = u.id r := by
  cases h with
  | same free => rfl
  | edited p mem has => exact u.id_edit r p

theorem Rewritten.concat {r' : ρ} (h : Rewritten u target ps r r')
    (hp : target p ≠ some (u.id r)) : Rewritten u target (ps ++ [p]) r r' := by
  cases h with
  | same free =>
    refine .same fun q hq => ?_
    rcases List.mem_append.mp hq with hq | hq
    · exact free q hq
    · rwa [List.mem_singleton.mp hq]
  | edited q mem has => exact .edited q (List.mem_append_left _ mem) has

/-! ## The upsert -/

variable [DecidableEq ι]

section

variable (u target)

def apply (rows : List ρ) (p : π) : List ρ :=
  match target p with
  | none => rows ++ [u.fresh rows p]
  | some i => rows.map fun r => if u.id r = i then u.edit r p else r

def applyAll (rows : List ρ) (ps : List π) : List ρ := ps.foldl (u.apply target) rows

end

theorem apply_of_none (h : target p = none) :
    u.apply target rows p = rows ++ [u.fresh rows p] := by
  simp only [apply, h]

theorem apply_of_some (h : target p = some i) :
    u.apply target rows p = rows.map fun r => if u.id r = i then u.edit r p else r := by
  simp only [apply, h]

@[simp] theorem applyAll_nil : u.applyAll target rows [] = rows := rfl

theorem applyAll_concat :
    u.applyAll target rows (ps ++ [p]) = u.apply target (u.applyAll target rows ps) p := by
  simp [applyAll]

/-! ## Identities -/

theorem map_id_edit : (rows.map fun r => if u.id r = i then u.edit r p else r).map u.id =
    rows.map u.id := by
  rw [List.map_map]
  refine List.map_congr_left fun r _ => ?_
  by_cases hi : u.id r = i
  · simp [hi, u.id_edit]
  · simp [hi]

theorem nodup_ids_applyAll (h : (rows.map u.id).Nodup) :
    ((u.applyAll target rows ps).map u.id).Nodup := by
  induction ps using List.reverseRecOn with
  | nil => exact h
  | append_singleton ps p ih =>
    rw [applyAll_concat]
    cases ht : target p with
    | none =>
      rw [apply_of_none ht, List.map_append]
      exact List.Nodup.append ih (List.nodup_singleton _)
        (List.disjoint_singleton.mpr (u.id_fresh _ _))
    | some i => rwa [apply_of_some ht, map_id_edit]

theorem ids_subset_applyAll : rows.map u.id ⊆ (u.applyAll target rows ps).map u.id := by
  induction ps using List.reverseRecOn with
  | nil => exact List.Subset.refl _
  | append_singleton ps p ih =>
    rw [applyAll_concat]
    cases ht : target p with
    | none =>
      rw [apply_of_none ht, List.map_append]
      exact List.Subset.trans ih (List.subset_append_left _ _)
    | some i => rwa [apply_of_some ht, map_id_edit]

theorem id_fresh_applyAll : u.id (u.fresh (u.applyAll target rows ps) p) ∉ rows.map u.id :=
  fun h => u.id_fresh _ _ (ids_subset_applyAll h)

/-! ## Where a row comes from -/

theorem mem_applyAll_of_untouched (hr : r ∈ rows) (h : ∀ p ∈ ps, target p ≠ some (u.id r)) :
    r ∈ u.applyAll target rows ps := by
  induction ps using List.reverseRecOn with
  | nil => exact hr
  | append_singleton ps p ih =>
    have hmem := ih fun q hq => h q (List.mem_append_left _ hq)
    rw [applyAll_concat]
    cases ht : target p with
    | none =>
      rw [apply_of_none ht]
      exact List.mem_append_left _ hmem
    | some i =>
      rw [apply_of_some ht]
      refine List.mem_map.mpr ⟨r, hmem, if_neg ?_⟩
      rintro rfl
      exact h p (by simp) ht

theorem mem_applyAll {κ : Type*} {k : ρ → κ} (hk : ∀ r p, k (u.edit r p) = k r)
    (hhits : ∀ p ∈ ps, ∀ i, target p = some i → i ∈ rows.map u.id)
    (h : r ∈ u.applyAll target rows ps) : LastWrite u target k rows ps r := by
  induction ps using List.reverseRecOn generalizing r with
  | nil => exact .untouched h (by simp)
  | append_singleton ps p ih =>
    have hlast : ∀ {s}, s ∈ u.applyAll target rows ps → LastWrite u target k rows ps s :=
      ih fun q hq => hhits q (List.mem_append_left _ hq)
    rw [applyAll_concat] at h
    cases ht : target p with
    | none =>
      rw [apply_of_none ht] at h
      rcases List.mem_append.mp h with h | h
      · exact (hlast h).concat (by simp [ht])
      · rw [List.mem_singleton.mp h]
        exact .made p (by simp) ht id_fresh_applyAll ⟨_, rfl⟩
    | some i =>
      rw [apply_of_some ht] at h
      obtain ⟨s, hs, rfl⟩ := List.mem_map.mp h
      by_cases hi : u.id s = i
      · rw [if_pos hi]
        have hold := (hlast hs).old (hi ▸ hhits p (by simp) i ht)
        refine .edited p (by simp) ?_ ⟨s, rfl⟩ ?_
        · rw [u.id_edit, hi, ht]
        · rwa [u.id_edit, hk]
      · rw [if_neg hi]
        refine (hlast hs).concat ?_
        rw [ht]
        exact fun h => hi (Option.some.inj h).symm

/-! ## One row for each item -/

def untouched (u : Upsert ρ π ι) (target : π → Option ι) (rows : List ρ) (ps : List π) : List ρ :=
  rows.filter fun r => ps.all fun p => target p ≠ some (u.id r)

theorem mem_untouched : r ∈ u.untouched target rows ps ↔
    r ∈ rows ∧ ∀ p ∈ ps, target p ≠ some (u.id r) := by
  simp [untouched]

theorem untouched_concat : u.untouched target rows (ps ++ [p]) =
    (u.untouched target rows ps).filter fun r => target p ≠ some (u.id r) := by
  unfold untouched
  rw [List.filter_filter]
  refine List.filter_congr fun r _ => ?_
  simp [Bool.and_comm]

theorem map_edit_perm (hids : (rows.map u.id).Nodup) (hr : r ∈ rows) :
    (rows.map fun s => if u.id s = u.id r then u.edit s p else s).Perm
      (u.edit r p :: rows.filter fun s => u.id s ≠ u.id r) := by
  induction rows with
  | nil => cases hr
  | cons s rows ih =>
    obtain ⟨hnew, hids⟩ := List.nodup_cons.mp (List.map_cons ▸ hids)
    by_cases hs : u.id s = u.id r
    · -- the row is the first, and its identity is met nowhere else
      have hrest : ∀ t ∈ rows, u.id t ≠ u.id r := fun t ht heq =>
        hnew (hs.trans heq.symm ▸ List.mem_map_of_mem ht)
      have hsr : s = r := by
        rcases List.mem_cons.mp hr with h | h
        · exact h.symm
        · exact absurd rfl (hrest r h)
      subst hsr
      rw [List.map_cons, if_pos rfl, List.filter_cons_of_neg (by simp),
        List.filter_eq_self.mpr (by simpa using hrest)]
      refine List.Perm.cons _ (List.Perm.of_eq ?_)
      refine (List.map_congr_left fun t ht => if_neg (hrest t ht)).trans (List.map_id _)
    · have hmem : r ∈ rows := by
        rcases List.mem_cons.mp hr with h | h
        · exact absurd (h ▸ rfl) hs
        · exact h
      rw [List.map_cons, if_neg hs, List.filter_cons_of_pos (by simpa using hs)]
      exact ((ih hids hmem).cons s).trans (List.Perm.swap _ _ _)

theorem map_edit_of_ne (h : ∀ r ∈ rows, u.id r ≠ i) :
    (rows.map fun r => if u.id r = i then u.edit r p else r) = rows :=
  (List.map_congr_left fun r hr => if_neg (h r hr)).trans (List.map_id rows)

theorem applyAll_perm (hids : (rows.map u.id).Nodup)
    (hhits : ∀ p ∈ ps, ∀ i, target p = some i → i ∈ rows.map u.id)
    (hapart : ps.Pairwise fun p q => ∀ i, target p = some i → target q ≠ some i) :
    ∃ written, List.Forall₂ (Wrote u target rows) ps written ∧
      (u.applyAll target rows ps).Perm (u.untouched target rows ps ++ written) := by
  induction ps using List.reverseRecOn with
  | nil => exact ⟨[], .nil, by simp [untouched]⟩
  | append_singleton ps p ih =>
    obtain ⟨hapart, -, hlast⟩ := List.pairwise_append.mp hapart
    obtain ⟨written, hwrote, hperm⟩ := ih (fun q hq => hhits q (List.mem_append_left _ hq)) hapart
    rw [applyAll_concat, untouched_concat]
    cases ht : target p with
    | none =>
      refine ⟨written ++ [u.fresh (u.applyAll target rows ps) p],
        List.rel_append hwrote (.cons (.made _ ht id_fresh_applyAll) .nil), ?_⟩
      rw [apply_of_none ht, List.filter_eq_self.mpr (by simp), ← List.append_assoc]
      exact hperm.append_right _
    | some i =>
      obtain ⟨r₀, hr₀, rfl⟩ := List.mem_map.mp (hhits p (by simp) i ht)
      refine ⟨written ++ [u.edit r₀ p], List.rel_append hwrote (.cons (.edited r₀ hr₀ ht) .nil), ?_⟩
      rw [apply_of_some ht]
      -- the row is among the untouched ones, and what the items before wrote it is not
      have hfree : r₀ ∈ u.untouched target rows ps :=
        mem_untouched.mpr ⟨hr₀, fun q hq hqr => hlast q hq p (by simp) _ hqr ht⟩
      have hwritten : ∀ r ∈ written, u.id r ≠ u.id r₀ := by
        intro r hr
        obtain ⟨q, hq, hwr⟩ := forall₂_mem_right hwrote hr
        exact hwr.id_ne (List.mem_map_of_mem hr₀) fun hqr => hlast q hq p (by simp) _ hqr ht
      have hsub : (u.untouched target rows ps).map u.id |>.Nodup :=
        hids.sublist (List.filter_sublist.map _)
      have hsplit := map_edit_perm (p := p) hsub hfree
      refine (hperm.map _).trans ?_
      rw [List.map_append, map_edit_of_ne hwritten]
      refine (hsplit.append_right _).trans ?_
      have hrest : (u.untouched target rows ps).filter (fun r => u.id r ≠ u.id r₀) =
          (u.untouched target rows ps).filter fun r => some (u.id r₀) ≠ some (u.id r) :=
        List.filter_congr fun r _ => by simp [eq_comm]
      rw [hrest, ← List.append_assoc]
      exact (List.perm_append_singleton _ _).symm

/-! ## The rows in place -/

theorem applyAll_split (hhits : ∀ p ∈ ps, ∀ i, target p = some i → i ∈ rows.map u.id)
    (hapart : ps.Pairwise fun p q => ∀ i, target p = some i → target q ≠ some i) :
    ∃ olds news, u.applyAll target rows ps = olds ++ news ∧
      List.Forall₂ (Rewritten u target ps) rows olds ∧
        ∀ n ∈ news, u.id n ∉ rows.map u.id ∧
          ∃ p ∈ ps, target p = none ∧ ∃ before, n = u.fresh before p := by
  induction ps using List.reverseRecOn with
  | nil =>
    refine ⟨rows, [], (List.append_nil rows).symm, ?_, by simp⟩
    exact List.forall₂_same.mpr fun r _ => .same (by simp)
  | append_singleton ps p ih =>
    obtain ⟨hapart, -, hlast⟩ := List.pairwise_append.mp hapart
    obtain ⟨olds, news, heq, holds, hnews⟩ :=
      ih (fun q hq => hhits q (List.mem_append_left _ hq)) hapart
    have hmade : ∀ n ∈ news, u.id n ∉ rows.map u.id ∧
        ∃ q ∈ ps ++ [p], target q = none ∧ ∃ before, n = u.fresh before q := by
      intro n hn
      obtain ⟨hnew, q, hq, hmade⟩ := hnews n hn
      exact ⟨hnew, q, List.mem_append_left _ hq, hmade⟩
    rw [applyAll_concat]
    cases ht : target p with
    | none =>
      refine ⟨olds, news ++ [u.fresh (u.applyAll target rows ps) p], ?_, ?_, ?_⟩
      · rw [apply_of_none ht, heq, List.append_assoc]
      · exact holds.imp fun r r' hr => hr.concat (by simp [ht])
      · intro n hn
        rcases List.mem_append.mp hn with hn | hn
        · exact hmade n hn
        · rw [List.mem_singleton.mp hn]
          exact ⟨id_fresh_applyAll, p, by simp, ht, _, rfl⟩
    | some i =>
      have hi := hhits p (by simp) i ht
      refine ⟨olds.map fun r => if u.id r = i then u.edit r p else r, news, ?_, ?_, hmade⟩
      · have hother : ∀ n ∈ news, u.id n ≠ i := by
          rintro n hn rfl
          exact (hnews n hn).1 hi
        rw [apply_of_some ht, heq, List.map_append, map_edit_of_ne hother]
      · refine List.forall₂_map_right_iff.mpr (holds.imp fun r r' hr => ?_)
        by_cases hri : u.id r = i
        · rw [if_pos (hr.id_eq.trans hri)]
          cases hr with
          | same free => exact .edited p (by simp) (ht.trans (congrArg some hri.symm))
          | edited q mem has =>
            exact absurd (ht.trans (congrArg some hri.symm)) (hlast q mem p (by simp) _ has)
        · rw [if_neg fun h => hri (hr.id_eq.symm.trans h)]
          refine hr.concat ?_
          rw [ht]
          exact fun h => hri (Option.some.inj h).symm

theorem find?_applyAll {b : ρ → Bool}
    (hhits : ∀ p ∈ ps, ∀ i, target p = some i → i ∈ rows.map u.id)
    (hapart : ps.Pairwise fun p q => ∀ i, target p = some i → target q ≠ some i)
    (hedit : ∀ r ∈ rows, ∀ p ∈ ps, target p = some (u.id r) → b (u.edit r p) → b r)
    (hfresh : ∀ p ∈ ps, target p = none → ∀ before, ¬ b (u.fresh before p))
    (hfree : ∀ r ∈ rows.find? b, ∀ p ∈ ps, target p ≠ some (u.id r)) :
    (u.applyAll target rows ps).find? b = rows.find? b := by
  obtain ⟨olds, news, heq, holds, hnews⟩ := applyAll_split (u := u) hhits hapart
  have hpass : ∀ r r', Rewritten u target ps r r' ∧ r ∈ rows ∧ r' ∈ olds → b r' → b r := by
    rintro r r' ⟨hr, hmem, -⟩ hb
    cases hr with
    | same free => exact hb
    | edited p mem has => exact hedit r hmem p mem has hb
  have hnone : news.find? b = none := by
    refine List.find?_eq_none.mpr fun n hn => ?_
    obtain ⟨-, p, hp, hnone, before, rfl⟩ := hnews n hn
    exact hfresh p hp hnone before
  rw [heq, List.find?_append, hnone, Option.or_none]
  cases hfound : rows.find? b with
  | some r =>
    refine find?_of_forall₂ (forall₂_mem holds) hpass hfound ?_
    rintro r' ⟨hr, -, -⟩
    cases hr with
    | same free => rfl
    | edited p mem has => exact absurd has (hfree r hfound p mem)
  | none =>
    refine List.find?_eq_none.mpr fun r' hr' hb => ?_
    obtain ⟨r, hr, hrel⟩ := forall₂_mem_right holds hr'
    exact List.find?_eq_none.mp hfound r hr (hpass r r' ⟨hrel, hr, hr'⟩ hb)

end Upsert

end Investor.Lib
