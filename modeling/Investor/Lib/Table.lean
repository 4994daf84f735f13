import Mathlib.Data.List.Basic
import Mathlib.Data.List.Forall2
import Mathlib.Data.List.Nodup
import Mathlib.Data.List.Pairwise
import Mathlib.Algebra.BigOperators.Group.List.Basic

/-!
# Tables with a unique column

A table is its rows in the order they were inserted. The column `key` carries a
uniqueness constraint, and the constraint is a field of the table: two rows with one
key cannot be built, so `insert` is partial (a database raises an integrity error
there) and a lookup by key finds the row (`find?_eq_some_iff`).

`update` rewrites rows in place and may not touch the key. `putRow` is the same table kept in
memory, as a dictionary that has each row under its key.
-/

namespace Investor.Lib

section Forall₂

variable {α β : Type*} {R : α → β → Prop} {xs : List α} {ys : List β}

theorem forall₂_mem (h : List.Forall₂ R xs ys) :
    List.Forall₂ (fun x y => R x y ∧ x ∈ xs ∧ y ∈ ys) xs ys := by
  induction h with
  | nil => exact List.Forall₂.nil
  | cons hxy _ ih =>
    refine List.Forall₂.cons ⟨hxy, List.mem_cons_self .., List.mem_cons_self ..⟩ (ih.imp ?_)
    intro x y hmem
    exact ⟨hmem.1, List.mem_cons_of_mem _ hmem.2.1, List.mem_cons_of_mem _ hmem.2.2⟩

theorem forall₂_mem_right (h : List.Forall₂ R xs ys) {y : β} (hy : y ∈ ys) : ∃ x ∈ xs, R x y := by
  induction h with
  | nil => cases hy
  | cons hxy _ ih =>
    rcases List.mem_cons.mp hy with rfl | hy
    · exact ⟨_, List.mem_cons_self, hxy⟩
    · obtain ⟨x, hx, hrel⟩ := ih hy
      exact ⟨x, List.mem_cons_of_mem _ hx, hrel⟩

theorem forall₂_mem_left (h : List.Forall₂ R xs ys) {x : α} (hx : x ∈ xs) : ∃ y ∈ ys, R x y :=
  forall₂_mem_right (R := flip R) h.flip hx

theorem find?_of_forall₂ {R : α → α → Prop} {xs ys : List α} {q : α → Bool} {x : α}
    (h : List.Forall₂ R xs ys) (hq : ∀ a b, R a b → q b → q a) (hx : xs.find? q = some x)
    (hsame : ∀ y, R x y → y = x) : ys.find? q = some x := by
  induction h with
  | nil => cases hx
  | @cons a b as bs hab _ ih =>
    rw [List.find?_cons] at hx ⊢
    cases ha : q a with
    | true =>
      rw [ha] at hx
      cases hx
      rw [hsame b hab, ha]
    | false =>
      rw [ha] at hx
      have hb : q b = false := Bool.eq_false_iff.mpr fun hb => by simp [hq a b hab hb] at ha
      rw [hb]
      exact ih hx

end Forall₂

theorem eq_of_nodup_filterMap {α β : Type*} {f : α → Option β} {xs : List α}
    (h : (xs.filterMap f).Nodup) {x y : α} (hx : x ∈ xs) (hy : y ∈ xs) {b : β}
    (hxb : f x = some b) (hyb : f y = some b) : x = y := by
  by_contra hne
  have hsymm : Std.Symm fun x y => ∀ b, f x = some b → ∀ b', f y = some b' → b ≠ b' :=
    ⟨fun x y hxy b hb b' hb' => (hxy b' hb' b hb).symm⟩
  exact (List.pairwise_filterMap.mp h).forall hx hy hne b hxb b hyb rfl

theorem mem_of_mapM {α β : Type} {f : α → Option β} {xs : List α} {ys : List β}
    (h : xs.mapM f = some ys) {y : β} (hy : y ∈ ys) : ∃ x ∈ xs, f x = some y := by
  induction xs generalizing ys with
  | nil =>
    cases h
    cases hy
  | cons x xs ih =>
    rw [List.mapM_cons] at h
    simp only [Option.bind_eq_bind, Option.bind_eq_some_iff, Option.pure_def] at h
    obtain ⟨z, hz, zs, hzs, h⟩ := h
    cases h
    rcases List.mem_cons.mp hy with rfl | hy
    · exact ⟨x, List.mem_cons_self, hz⟩
    · obtain ⟨w, hw, hfw⟩ := ih hzs hy
      exact ⟨w, List.mem_cons_of_mem _ hw, hfw⟩

/-! ## Fresh numbers -/

theorem le_foldl_max (ids : List ℕ) (m : ℕ) :
    m ≤ ids.foldl max m ∧ ∀ i ∈ ids, i ≤ ids.foldl max m := by
  induction ids generalizing m with
  | nil => simp
  | cons i ids ih =>
    obtain ⟨hstart, hall⟩ := ih (max m i)
    refine ⟨Nat.le_trans (Nat.le_max_left m i) hstart, ?_⟩
    rintro j (_ | ⟨_, hj⟩)
    · exact Nat.le_trans (Nat.le_max_right m i) hstart
    · exact hall j hj

theorem foldl_max_succ_notMem (ids : List ℕ) : ids.foldl max 0 + 1 ∉ ids := by
  intro h
  have hle := (le_foldl_max ids 0).2 _ h
  omega

/-! ## The table -/

/-- Rows whose `key` column is unique. -/
structure KeyedTable {ρ κ : Type*} (key : ρ → κ) where
  rows : List ρ
  unique : (rows.map key).Nodup

namespace KeyedTable

variable {ρ κ : Type*} {key : ρ → κ}

def empty : KeyedTable key := ⟨[], List.nodup_nil⟩

@[simp] theorem rows_empty : (empty : KeyedTable key).rows = [] := rfl

theorem ext_rows {t t' : KeyedTable key} (h : t.rows = t'.rows) : t = t' := by
  cases t; cases t'; cases h; rfl

def HasKey (t : KeyedTable key) (k : κ) : Prop := k ∈ t.rows.map key

theorem hasKey_iff {t : KeyedTable key} {k : κ} : t.HasKey k ↔ ∃ r ∈ t.rows, key r = k :=
  List.mem_map

theorem hasKey_of_mem {t : KeyedTable key} {r : ρ} (h : r ∈ t.rows) : t.HasKey (key r) :=
  List.mem_map_of_mem h

theorem eq_of_key_eq {t : KeyedTable key} {r r' : ρ} (h : r ∈ t.rows) (h' : r' ∈ t.rows)
    (hkey : key r = key r') : r = r' :=
  List.inj_on_of_nodup_map t.unique h h' hkey

section Lookup

variable [DecidableEq κ]

instance (t : KeyedTable key) (k : κ) : Decidable (t.HasKey k) :=
  inferInstanceAs (Decidable (k ∈ t.rows.map key))

def find? (t : KeyedTable key) (k : κ) : Option ρ := t.rows.find? (fun r => key r = k)

theorem find?_eq_some_iff {t : KeyedTable key} {k : κ} {r : ρ} :
    t.find? k = some r ↔ r ∈ t.rows ∧ key r = k := by
  constructor
  · intro h
    exact ⟨List.mem_of_find?_eq_some h, by simpa using List.find?_some h⟩
  · rintro ⟨hmem, rfl⟩
    cases hf : t.find? (key r) with
    | none =>
      have := List.find?_eq_none.mp hf r hmem
      simp at this
    | some r' =>
      have hkey : key r' = key r := by simpa using List.find?_some hf
      rw [eq_of_key_eq (List.mem_of_find?_eq_some hf) hmem hkey]

theorem find?_eq_none_iff {t : KeyedTable key} {k : κ} : t.find? k = none ↔ ¬ t.HasKey k := by
  rw [hasKey_iff]
  simp [find?, List.find?_eq_none]

end Lookup

/-! ## Insertion -/

section Insert

variable [DecidableEq κ]

/-- Appends the row, unless its key is taken. -/
def insert (t : KeyedTable key) (r : ρ) : Option (KeyedTable key) :=
  if h : t.HasKey (key r) then none
  else some ⟨t.rows ++ [r], by
    rw [List.map_append, List.nodup_append]
    refine ⟨t.unique, by simp, ?_⟩
    intro a ha b hb hab
    simp only [List.map_cons, List.map_nil, List.mem_singleton] at hb
    exact h (hb ▸ hab ▸ ha)⟩

theorem insert_eq_some {t t' : KeyedTable key} {r : ρ} (h : t.insert r = some t') :
    ¬ t.HasKey (key r) ∧ t'.rows = t.rows ++ [r] := by
  unfold insert at h
  split at h
  · cases h
  · rename_i hk
    exact ⟨hk, by rw [← Option.some.inj h]⟩

theorem insert_eq_none_iff {t : KeyedTable key} {r : ρ} :
    t.insert r = none ↔ t.HasKey (key r) := by
  unfold insert
  split <;> simp_all

/-- Appends the row if its key is new, and leaves the table else. -/
def putNew (t : KeyedTable key) (r : ρ) : KeyedTable key := (t.insert r).getD t

theorem find?_putNew (t : KeyedTable key) (r : ρ) (k : κ) :
    (t.putNew r).find? k = (t.find? k).or (if key r = k then some r else none) := by
  unfold putNew
  cases hins : t.insert r with
  | none =>
    rw [Option.getD_none]
    by_cases hk : key r = k
    · have hsome : t.find? k ≠ none := fun h =>
        find?_eq_none_iff.mp h (hk ▸ insert_eq_none_iff.mp hins)
      obtain ⟨x, hx⟩ := Option.ne_none_iff_exists'.mp hsome
      rw [hx, Option.some_or]
    · rw [if_neg hk, Option.or_none]
  | some t' =>
    rw [Option.getD_some, find?, (insert_eq_some hins).2, List.find?_append, List.find?_singleton]
    simp only [decide_eq_true_eq]
    rfl

theorem mem_putNew {t : KeyedTable key} {r x : ρ} (hx : x ∈ (t.putNew r).rows) :
    x ∈ t.rows ∨ x = r := by
  unfold putNew at hx
  cases hins : t.insert r with
  | none =>
    rw [hins] at hx
    exact Or.inl hx
  | some t' =>
    rw [hins, Option.getD_some, (insert_eq_some hins).2] at hx
    exact (List.mem_append.mp hx).imp_right List.mem_singleton.mp

def insertAll (t : KeyedTable key) : List ρ → Option (KeyedTable key)
  | [] => some t
  | r :: rs => (t.insert r).bind (fun t' => t'.insertAll rs)

theorem insertAll_rows {rs : List ρ} : ∀ {t t' : KeyedTable key},
    t.insertAll rs = some t' → t'.rows = t.rows ++ rs := by
  induction rs with
  | nil => intro t t' h; simp only [insertAll, Option.some.injEq] at h; simp [h]
  | cons r rs ih =>
    intro t t' h
    simp only [insertAll, Option.bind_eq_some_iff] at h
    obtain ⟨t₁, h₁, h₂⟩ := h
    rw [ih h₂, (insert_eq_some h₁).2, List.append_assoc]
    rfl

theorem insertAll_isSome_iff {rs : List ρ} : ∀ {t : KeyedTable key},
    (t.insertAll rs).isSome ↔ (rs.map key).Nodup ∧ ∀ r ∈ rs, ¬ t.HasKey (key r) := by
  induction rs with
  | nil => intro t; simp [insertAll]
  | cons r rs ih =>
    intro t
    cases h : t.insert r with
    | none =>
      have := insert_eq_none_iff.mp h
      simp [insertAll, h, this]
    | some t₁ =>
      obtain ⟨hfresh, hrows⟩ := insert_eq_some h
      have hkey : ∀ k, t₁.HasKey k ↔ t.HasKey k ∨ k = key r := by
        intro k; simp [HasKey, hrows, eq_comm]
      simp only [insertAll, h, Option.bind_some, ih, List.map_cons, List.nodup_cons, hkey,
        List.mem_map, List.mem_cons, forall_eq_or_imp, not_or]
      constructor
      · rintro ⟨hnd, hall⟩
        exact ⟨⟨fun ⟨x, hx, hxk⟩ => (hall x hx).2 hxk, hnd⟩, hfresh, fun x hx => (hall x hx).1⟩
      · rintro ⟨⟨hne, hnd⟩, _, hall⟩
        exact ⟨hnd, fun x hx => ⟨hall x hx, fun hxk => hne ⟨x, hx, hxk⟩⟩⟩

end Insert

/-! ## Rewriting rows in place -/

def update (t : KeyedTable key) (f : ρ → ρ) (hf : ∀ r, key (f r) = key r) : KeyedTable key :=
  ⟨t.rows.map f, by rw [List.map_map, show key ∘ f = key from funext hf]; exact t.unique⟩

@[simp] theorem rows_update (t : KeyedTable key) (f : ρ → ρ) (hf : ∀ r, key (f r) = key r) :
    (t.update f hf).rows = t.rows.map f := rfl

theorem find?_update [DecidableEq κ] {t : KeyedTable key} {f : ρ → ρ}
    (hf : ∀ r, key (f r) = key r) {k : κ} : (t.update f hf).find? k = (t.find? k).map f := by
  unfold find?
  rw [rows_update, List.find?_map]
  simp only [Function.comp_def, hf]

theorem hasKey_update {t : KeyedTable key} {f : ρ → ρ} (hf : ∀ r, key (f r) = key r) {k : κ} :
    (t.update f hf).HasKey k ↔ t.HasKey k := by
  unfold HasKey
  rw [rows_update, List.map_map, show key ∘ f = key from funext hf]

def updateAt [DecidableEq κ] (t : KeyedTable key) (k : κ) (f : ρ → ρ)
    (hf : ∀ r, key (f r) = key r) : KeyedTable key :=
  t.update (fun r => if key r = k then f r else r) fun r => by split <;> simp [hf]

theorem find?_updateAt [DecidableEq κ] {t : KeyedTable key} {k : κ} {f : ρ → ρ}
    (hf : ∀ r, key (f r) = key r) {j : κ} :
    (t.updateAt k f hf).find? j = (t.find? j).map fun r => if j = k then f r else r := by
  unfold updateAt
  rw [find?_update]
  refine Option.map_congr fun r hr => ?_
  rw [(find?_eq_some_iff.mp hr).2]

/-! ## Passes over many rows -/

section Folds

variable {σ : Type*} [DecidableEq κ] {view : σ → KeyedTable key}
  {f : σ → ρ → σ} {g : ρ → ρ → ρ}

theorem find?_foldl (hf : ∀ s row k, (view (f s row)).find? k =
      ((view s).find? k).map fun r => if k = key row then g row r else r)
    {rows : List ρ} (hunique : (rows.map key).Nodup) (s : σ) (k : κ) :
    (view (rows.foldl f s)).find? k = ((view s).find? k).map fun r =>
      (rows.find? fun row => key row = k).elim r fun row => g row r := by
  induction rows generalizing s with
  | nil => simp
  | cons row rows ih =>
    rw [List.map_cons, List.nodup_cons] at hunique
    rw [List.foldl_cons, ih hunique.2, hf, Option.map_map]
    congr 1
    funext r
    by_cases hk : key row = k
    · have hnone : (rows.find? fun x => key x = k) = none := by
        rw [List.find?_eq_none]
        intro x hx heq
        exact hunique.1 (List.mem_map.mpr ⟨x, hx, (of_decide_eq_true heq).trans hk.symm⟩)
      simp [hk, hnone]
    · simp [hk, Ne.symm hk]

theorem find?_foldl_filter (hf : ∀ s row k, (view (f s row)).find? k =
      ((view s).find? k).map fun r => if k = key row then g row r else r)
    (p : ρ → Bool) (s : σ) (k : κ) :
    (view (((view s).rows.filter p).foldl f s)).find? k =
      ((view s).find? k).map fun r => if p r then g r r else r := by
  rw [find?_foldl hf ((view s).unique.sublist (List.filter_sublist.map _))]
  refine Option.map_congr fun r hr => ?_
  obtain ⟨hmem, hkey⟩ := find?_eq_some_iff.mp hr
  by_cases hp : p r
  · have hfind : ((view s).rows.filter p).find? (fun x => key x = k) = some r := by
      cases hfound : ((view s).rows.filter p).find? (fun x => key x = k) with
      | none =>
        have := List.find?_eq_none.mp hfound r (List.mem_filter.mpr ⟨hmem, hp⟩)
        simp [hkey] at this
      | some x =>
        have hx := List.mem_filter.mp (List.mem_of_find?_eq_some hfound)
        have hxkey : key x = k := by simpa using List.find?_some hfound
        rw [eq_of_key_eq hx.1 hmem (hxkey.trans hkey.symm)]
    rw [hfind, if_pos hp]
    rfl
  · have hfind : ((view s).rows.filter p).find? (fun x => key x = k) = none := by
      rw [List.find?_eq_none]
      intro x hx heq
      obtain ⟨hxmem, hxp⟩ := List.mem_filter.mp hx
      rw [eq_of_key_eq hxmem hmem ((of_decide_eq_true heq).trans hkey.symm)] at hxp
      exact hp hxp
    rw [hfind, if_neg hp]
    rfl

end Folds

/-! ## Tables that are related row by row -/

section Related

variable [DecidableEq κ] {R : ρ → ρ → Prop} {t t' : KeyedTable key}

/-- The tables have their rows in one order, and each row is related to its counterpart. -/
def Related (R : ρ → ρ → Prop) (t t' : KeyedTable key) : Prop := List.Forall₂ R t.rows t'.rows

theorem Related.find (hkey : ∀ r r', R r r' → key r' = key r) (h : Related R t t') (k : κ) :
    Option.Rel R (t.find? k) (t'.find? k) := by
  unfold find?
  unfold Related at h
  generalize t.rows = rows at h ⊢
  generalize t'.rows = rows' at h ⊢
  induction h with
  | nil => exact Option.Rel.none
  | @cons r r' rows rows' hr _ ih =>
    rw [List.find?_cons, List.find?_cons, hkey r r' hr]
    by_cases hk : key r = k
    · simp only [hk, decide_true]
      exact Option.Rel.some hr
    · simp only [hk, decide_false]
      exact ih

theorem Related.rewrite (hkey : ∀ r r', R r r' → key r' = key r) (h : Related R t t') {k : κ}
    {f f' : ρ → ρ} (hff : ∀ r ∈ t.find? k, ∀ r' ∈ t'.find? k, R r r' → R (f r) (f' r')) :
    List.Forall₂ R (t.rows.map fun r => if key r = k then f r else r)
      (t'.rows.map fun r => if key r = k then f' r else r) := by
  refine List.rel_map (R := fun r r' => R r r' ∧ r ∈ t.rows ∧ r' ∈ t'.rows) ?_ (forall₂_mem h)
  intro r r' hr
  obtain ⟨hr, hmem, hmem'⟩ := hr
  dsimp only
  by_cases hk : key r = k
  · rw [if_pos hk, if_pos ((hkey r r' hr).trans hk)]
    exact hff r (find?_eq_some_iff.mpr ⟨hmem, hk⟩) r'
      (find?_eq_some_iff.mpr ⟨hmem', (hkey r r' hr).trans hk⟩) hr
  · rw [if_neg hk, if_neg fun hk' => hk ((hkey r r' hr).symm.trans hk')]
    exact hr

theorem Related.hasKey (hkey : ∀ r r', R r r' → key r' = key r) (h : Related R t t') (k : κ) :
    t'.HasKey k ↔ t.HasKey k := by
  have hfind := h.find hkey k
  rw [← not_iff_not, ← find?_eq_none_iff, ← find?_eq_none_iff]
  generalize t.find? k = found at hfind ⊢
  generalize t'.find? k = found' at hfind ⊢
  cases hfind with
  | some _ => simp
  | none => simp

theorem Related.insert (hkey : ∀ r r', R r r' → key r' = key r) (h : Related R t t') {r : ρ}
    (hr : R r r) : Related R ((t.insert r).getD t) ((t'.insert r).getD t') := by
  cases hins : t.insert r with
  | none =>
    rw [insert_eq_none_iff.mpr ((h.hasKey hkey _).mpr (insert_eq_none_iff.mp hins))]
    exact h
  | some s =>
    cases hins' : t'.insert r with
    | none => exact absurd ((h.hasKey hkey _).mp (insert_eq_none_iff.mp hins')) (insert_eq_some hins).1
    | some s' =>
      show List.Forall₂ R s.rows s'.rows
      rw [(insert_eq_some hins).2, (insert_eq_some hins').2]
      exact List.rel_append h (List.Forall₂.cons hr List.Forall₂.nil)

end Related

end KeyedTable

/-! ## Rows put by key

A dictionary whose values carry their own key: putting a row replaces the row of its key
where it stands, and appends it if there is none. -/

section Put

variable {ρ κ : Type*} [DecidableEq κ]

def putRow (key : ρ → κ) (r : ρ) : List ρ → List ρ
  | [] => [r]
  | x :: xs => if key x = key r then r :: xs else x :: putRow key r xs

variable {key : ρ → κ} {r : ρ}

theorem putRow_of_fresh {rows : List ρ} (h : ∀ x ∈ rows, key x ≠ key r) :
    putRow key r rows = rows ++ [r] := by
  induction rows with
  | nil => rfl
  | cons x xs ih =>
    rw [putRow, if_neg (h x (List.mem_cons_self ..)),
      ih fun y hy => h y (List.mem_cons_of_mem x hy)]
    rfl

theorem mem_putRow {rows : List ρ} {x : ρ} (h : x ∈ putRow key r rows) : x ∈ rows ∨ x = r := by
  induction rows with
  | nil => exact Or.inr (List.mem_singleton.mp h)
  | cons y ys ih =>
    rw [putRow] at h
    split at h
    · rcases List.mem_cons.mp h with h | h
      · exact Or.inr h
      · exact Or.inl (List.mem_cons_of_mem y h)
    · rcases List.mem_cons.mp h with h | h
      · exact Or.inl (h ▸ List.mem_cons_self ..)
      · exact (ih h).imp_left (List.mem_cons_of_mem y)

theorem map_putRow_of_find {β : Type*} {f : ρ → β} {rows : List ρ} {x : ρ}
    (hfind : rows.find? (fun y => key y = key r) = some x) (hf : f r = f x) :
    (putRow key r rows).map f = rows.map f := by
  induction rows with
  | nil => cases hfind
  | cons y ys ih =>
    rw [List.find?_cons] at hfind
    by_cases hkey : key y = key r
    · have hyx : y = x := by simpa [hkey] using hfind
      rw [putRow, if_pos hkey, List.map_cons, List.map_cons, hf, hyx]
    · rw [putRow, if_neg hkey, List.map_cons, List.map_cons, ih (by simpa [hkey] using hfind)]

theorem find?_putRow_same (rows : List ρ) :
    (putRow key r rows).find? (fun y => key y = key r) = some r := by
  induction rows with
  | nil => simp [putRow]
  | cons y ys ih =>
    rw [putRow]
    split
    · simp
    · rename_i hkey
      rw [List.find?_cons, decide_eq_false hkey]
      exact ih

theorem find?_putRow_map {β : Type*} {f : ρ → β} {q : ρ → Bool} {rows : List ρ} {x : ρ}
    (hfind : rows.find? (fun y => key y = key r) = some x) (hq : q r = q x) (hf : f r = f x) :
    ((putRow key r rows).find? q).map f = (rows.find? q).map f := by
  induction rows with
  | nil => cases hfind
  | cons y ys ih =>
    rw [List.find?_cons] at hfind
    by_cases hkey : key y = key r
    · obtain rfl : y = x := by simpa [hkey] using hfind
      rw [putRow, if_pos hkey, List.find?_cons, List.find?_cons, hq]
      cases q y with
      | true => exact congrArg some hf
      | false => rfl
    · rw [putRow, if_neg hkey, List.find?_cons, List.find?_cons]
      cases q y with
      | true => rfl
      | false => exact ih (by simpa [hkey] using hfind)

end Put

/-! ## The first row that passes a test -/

section First

variable {ρ : Type*}

/-- Rewrites the first row that passes the test, and appends a row if there is none. -/
def upsertFirst (p : ρ → Bool) (f : ρ → ρ) (new : ρ) : List ρ → List ρ
  | [] => [new]
  | r :: rows => if p r then f r :: rows else r :: upsertFirst p f new rows

variable {p q : ρ → Bool} {f : ρ → ρ} {new r : ρ} {rows : List ρ}

theorem mem_upsertFirst (h : r ∈ upsertFirst p f new rows) :
    r ∈ rows ∨ r = new ∨ ∃ r₀ ∈ rows, p r₀ ∧ r = f r₀ := by
  induction rows with
  | nil => exact Or.inr (Or.inl (List.mem_singleton.mp h))
  | cons x rows ih =>
    unfold upsertFirst at h
    split at h
    · rename_i hx
      rcases List.mem_cons.mp h with rfl | h
      · exact Or.inr (Or.inr ⟨x, List.mem_cons_self, hx, rfl⟩)
      · exact Or.inl (List.mem_cons_of_mem _ h)
    · rcases List.mem_cons.mp h with rfl | h
      · exact Or.inl List.mem_cons_self
      · rcases ih h with h | h | ⟨r₀, hr₀, hp, heq⟩
        · exact Or.inl (List.mem_cons_of_mem _ h)
        · exact Or.inr (Or.inl h)
        · exact Or.inr (Or.inr ⟨r₀, List.mem_cons_of_mem _ hr₀, hp, heq⟩)

theorem filter_upsertFirst_self (hf : ∀ r ∈ rows, p r → p (f r)) (hnew : p new)
    (hone : (rows.filter p).length ≤ 1) :
    ∃ r, (upsertFirst p f new rows).filter p = [r] ∧ (r = new ∨ ∃ r₀, r = f r₀) := by
  induction rows with
  | nil => exact ⟨new, by simp [upsertFirst, hnew], Or.inl rfl⟩
  | cons x rows ih =>
    unfold upsertFirst
    by_cases hx : p x
    · rw [if_pos hx]
      rw [List.filter_cons_of_pos hx, List.length_cons] at hone
      have hnil : rows.filter p = [] := List.length_eq_zero_iff.mp (by omega)
      exact ⟨f x, by rw [List.filter_cons_of_pos (hf x List.mem_cons_self hx), hnil],
        Or.inr ⟨x, rfl⟩⟩
    · rw [List.filter_cons_of_neg hx] at hone
      rw [if_neg hx, List.filter_cons_of_neg hx]
      exact ih (fun r hr => hf r (List.mem_cons_of_mem _ hr)) hone

theorem filter_upsertFirst_other (hold : ∀ r ∈ rows, p r → q r = false ∧ q (f r) = false)
    (hnew : q new = false) : (upsertFirst p f new rows).filter q = rows.filter q := by
  induction rows with
  | nil => simp [upsertFirst, hnew]
  | cons x rows ih =>
    unfold upsertFirst
    by_cases hx : p x
    · obtain ⟨hqx, hqf⟩ := hold x List.mem_cons_self hx
      rw [if_pos hx, List.filter_cons_of_neg (by simp [hqf]), List.filter_cons_of_neg (by simp [hqx])]
    · rw [if_neg hx, List.filter_cons, List.filter_cons,
        ih fun r hr => hold r (List.mem_cons_of_mem _ hr)]

end First

end Investor.Lib
