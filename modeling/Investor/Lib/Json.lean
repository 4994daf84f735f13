import Investor.Lib.Text
import Mathlib.Data.List.Nodup
import Mathlib.Algebra.BigOperators.Group.List.Basic

/-!
# Insertion-ordered dictionaries and JSON values

A `Dict` is the list of its entries in insertion order; setting a key that is there
replaces the value where it stands, setting a new one appends. Reading back what was
set is the one law used over and over (`Dict.get?_set`), and it does not need the keys
of the list to be distinct: a lookup sees the first entry, and so does an update.

`Json` is what a parsed JSON text can be. Numbers are rationals.
-/

namespace Investor.Lib

abbrev Dict (β : Type*) := List (String × β)

namespace Dict

variable {β : Type*}

def get? (d : Dict β) (k : String) : Option β := (d.find? (fun e => e.1 = k)).map (·.2)

def set : Dict β → String → β → Dict β
  | [], k, v => [(k, v)]
  | e :: d, k, v => if e.1 = k then (k, v) :: d else e :: set d k v

def erase (d : Dict β) (k : String) : Dict β := d.filter (fun e => e.1 ≠ k)

def contains (d : Dict β) (k : String) : Bool := d.any (fun e => e.1 = k)

def ofPairs (pairs : List (String × β)) : Dict β := pairs.foldl (fun acc x => set acc x.1 x.2) []

/-- `{**d, **e}`: the entries of `e` set over those of `d`. -/
def merge (d e : Dict β) : Dict β := e.foldl (fun acc x => set acc x.1 x.2) d

@[simp] theorem get?_nil (k : String) : get? ([] : Dict β) k = none := rfl

theorem get?_cons (e : String × β) (d : Dict β) (k : String) :
    get? (e :: d) k = if e.1 = k then some e.2 else get? d k := by
  unfold get?
  rw [List.find?_cons]
  by_cases h : e.1 = k <;> simp [h]

@[simp] theorem get?_set_self (d : Dict β) (k : String) (v : β) : get? (set d k v) k = some v := by
  induction d with
  | nil => simp [set, get?_cons]
  | cons e d ih =>
    unfold set
    split
    · simp [get?_cons]
    · rename_i h; simp [get?_cons, h, ih]

variable {k : String}

theorem get?_set_of_ne (d : Dict β) {k' : String} (v : β) (h : k ≠ k') :
    get? (set d k v) k' = get? d k' := by
  induction d with
  | nil => simp [set, get?_cons, h]
  | cons e d ih =>
    unfold set
    split
    · rename_i he; simp [get?_cons, h, he]
    · simp [get?_cons, ih]

theorem get?_erase_of_ne (d : Dict β) {k' : String} (h : k ≠ k') :
    get? (erase d k) k' = get? d k' := by
  induction d with
  | nil => rfl
  | cons e d ih =>
    unfold erase at ih ⊢
    rw [List.filter_cons, get?_cons]
    split
    · rw [get?_cons, ih]
    · rename_i hk
      rw [ih, if_neg fun heq => hk (decide_eq_true fun hek => h (hek.symm.trans heq))]

theorem get?_erase_self (d : Dict β) (k : String) : get? (erase d k) k = none := by
  unfold get? erase
  rw [Option.map_eq_none_iff, List.find?_eq_none]
  intro e he
  simpa using (List.mem_filter.mp he).2

theorem get?_set (d : Dict β) (k k' : String) (v : β) :
    get? (set d k v) k' = if k = k' then some v else get? d k' := by
  split
  · rename_i h; subst h; exact get?_set_self d k v
  · rename_i h; exact get?_set_of_ne d v h

theorem get?_foldl_set (pairs : List (String × β)) (d : Dict β) (k : String) :
    get? (pairs.foldl (fun acc x => set acc x.1 x.2) d) k =
      match pairs.reverse.find? (fun e => e.1 = k) with
      | some e => some e.2
      | none => get? d k := by
  induction pairs generalizing d with
  | nil => rfl
  | cons e pairs ih =>
    rw [List.foldl_cons, ih, List.reverse_cons, List.find?_append]
    cases pairs.reverse.find? (fun e => decide (e.1 = k)) with
    | some e' => rfl
    | none =>
      rw [get?_set, Option.none_or, List.find?_singleton]
      by_cases h : e.1 = k <;> simp [h]

theorem get?_ofPairs (pairs : List (String × β)) (k : String) :
    get? (ofPairs pairs) k = (pairs.reverse.find? fun e => e.1 = k).map (·.2) := by
  unfold ofPairs
  rw [get?_foldl_set]
  cases pairs.reverse.find? (fun e => decide (e.1 = k)) <;> rfl

theorem mem_of_get?_ofPairs {pairs : List (String × β)} {v : β}
    (h : get? (ofPairs pairs) k = some v) : (k, v) ∈ pairs := by
  rw [get?_ofPairs, Option.map_eq_some_iff] at h
  obtain ⟨e, he, rfl⟩ := h
  have hk : e.1 = k := by simpa using List.find?_some he
  rw [← hk]
  exact List.mem_reverse.mp (List.mem_of_find?_eq_some he)

theorem mem_set {d : Dict β} {v : β} {e : String × β} (h : e ∈ set d k v) : e ∈ d ∨ e = (k, v) := by
  induction d with
  | nil => exact Or.inr (List.mem_singleton.mp h)
  | cons e' d ih =>
    unfold set at h
    split at h
    · rcases List.mem_cons.mp h with rfl | hd
      · exact Or.inr rfl
      · exact Or.inl (List.mem_cons_of_mem _ hd)
    · rcases List.mem_cons.mp h with rfl | hd
      · exact Or.inl List.mem_cons_self
      · exact (ih hd).imp_left (List.mem_cons_of_mem _)

theorem keys_set (d : Dict β) (k : String) (v : β) :
    (set d k v).map (·.1) =
      if k ∈ d.map (·.1) then d.map (·.1) else d.map (·.1) ++ [k] := by
  induction d with
  | nil => rfl
  | cons e d ih =>
    unfold set
    by_cases he : e.1 = k
    · simp [he]
    · have hk : ¬ k = e.1 := fun h => he h.symm
      rw [if_neg he, List.map_cons, ih, List.map_cons]
      by_cases hmem : k ∈ d.map (·.1)
      · rw [if_pos hmem, if_pos (List.mem_cons_of_mem _ hmem)]
      · have hcons : k ∉ e.1 :: d.map (·.1) := List.not_mem_cons_of_ne_of_not_mem hk hmem
        rw [if_neg hmem, if_neg hcons, List.cons_append]

theorem nodup_set {d : Dict β} (h : (d.map (·.1)).Nodup) (k : String) (v : β) :
    ((set d k v).map (·.1)).Nodup := by
  rw [keys_set]
  split
  · exact h
  · rename_i hk
    rw [List.nodup_append]
    refine ⟨h, List.nodup_singleton k, fun a ha b hb hab => hk ?_⟩
    rw [← List.mem_singleton.mp hb, ← hab]
    exact ha

theorem nodup_merge {d : Dict β} (h : (d.map (·.1)).Nodup) (e : Dict β) :
    ((merge d e).map (·.1)).Nodup := by
  unfold merge
  induction e generalizing d with
  | nil => exact h
  | cons x e ih => exact ih (nodup_set h x.1 x.2)

theorem nodup_ofPairs (pairs : List (String × β)) : ((ofPairs pairs).map (·.1)).Nodup :=
  nodup_merge (d := []) List.nodup_nil pairs

theorem set_of_notMem {d : Dict β} {v : β} (h : k ∉ d.map (·.1)) : set d k v = d ++ [(k, v)] := by
  induction d with
  | nil => rfl
  | cons e d ih =>
    rw [List.map_cons, List.mem_cons, not_or] at h
    rw [set, if_neg (Ne.symm h.1), ih h.2, List.cons_append]

theorem ofPairs_of_nodup {pairs : List (String × β)} (h : (pairs.map (·.1)).Nodup) :
    ofPairs pairs = pairs := by
  have hfold : ∀ d : Dict β, ((d ++ pairs).map (·.1)).Nodup →
      pairs.foldl (fun acc x => set acc x.1 x.2) d = d ++ pairs := by
    clear h
    induction pairs with
    | nil => exact fun d _ => (List.append_nil d).symm
    | cons x pairs ih =>
      intro d hd
      have hnew : x.1 ∉ d.map (·.1) := by
        rw [List.map_append] at hd
        exact fun hmem => (List.nodup_append.mp hd).2.2 x.1 hmem x.1 List.mem_cons_self rfl
      have hsplit : d ++ x :: pairs = (d ++ [x]) ++ pairs := by simp
      rw [List.foldl_cons, set_of_notMem hnew, hsplit]
      exact ih (d ++ [x]) (hsplit ▸ hd)
  exact hfold [] h

theorem get?_map_values {γ : Type*} (f : β → γ) (d : Dict β) (k : String) :
    get? (d.map fun e => (e.1, f e.2)) k = (get? d k).map f := by
  induction d with
  | nil => rfl
  | cons e d ih =>
    rw [List.map_cons, get?_cons, get?_cons, ih]
    split
    · rfl
    · rfl

theorem get?_merge_of_mem {d e : Dict β} (hkeys : (e.map (·.1)).Nodup) {x : String × β}
    (hx : x ∈ e) : get? (merge d e) x.1 = some x.2 := by
  unfold merge
  rw [get?_foldl_set]
  cases hfind : e.reverse.find? fun y => decide (y.1 = x.1) with
  | none =>
    have hnone := List.find?_eq_none.mp hfind x (List.mem_reverse.mpr hx)
    simp at hnone
  | some y =>
    have hkey : y.1 = x.1 := by simpa using List.find?_some hfind
    have hy : y ∈ e := List.mem_reverse.mp (List.mem_of_find?_eq_some hfind)
    rw [List.inj_on_of_nodup_map hkeys hy hx hkey]

theorem mem_merge {d e : Dict β} {x : String × β} (h : x ∈ merge d e) : x ∈ d ∨ x ∈ e := by
  unfold merge at h
  induction e generalizing d with
  | nil => exact Or.inl h
  | cons y e ih =>
    rcases ih h with hset | he
    · rcases mem_set hset with hd | rfl
      · exact Or.inl hd
      · exact Or.inr List.mem_cons_self
    · exact Or.inr (List.mem_cons_of_mem _ he)

theorem mem_ofPairs {pairs : List (String × β)} {x : String × β} (h : x ∈ ofPairs pairs) :
    x ∈ pairs := (mem_merge h).resolve_left List.not_mem_nil

theorem mem_of_get? {d : Dict β} {v : β} (h : get? d k = some v) : (k, v) ∈ d := by
  simp only [get?, Option.map_eq_some_iff] at h
  obtain ⟨e, he, rfl⟩ := h
  have hk : e.1 = k := by simpa using List.find?_some he
  rw [← hk]
  exact List.mem_of_find?_eq_some he

theorem get?_of_mem {d : Dict β} (h : (d.map (·.1)).Nodup) {e : String × β} (he : e ∈ d) :
    get? d e.1 = some e.2 := by
  induction d with
  | nil => cases he
  | cons e' d ih =>
    rw [List.map_cons, List.nodup_cons] at h
    rw [get?_cons]
    rcases List.mem_cons.mp he with rfl | hmem
    · rw [if_pos rfl]
    · have hne : e'.1 ≠ e.1 := fun heq => h.1 (heq ▸ List.mem_map_of_mem hmem)
      rw [if_neg hne]
      exact ih h.2 hmem

theorem get?_eq_none_iff {d : Dict β} : get? d k = none ↔ k ∉ d.map (·.1) := by
  simp only [get?, Option.map_eq_none_iff, List.find?_eq_none, List.mem_map]
  constructor
  · rintro h ⟨e, he, hkey⟩
    simpa [hkey] using h e he
  · intro h e he
    simpa using fun hkey => h ⟨e, he, hkey⟩

def LastIn (pairs : List (String × β)) (e : String × β) : Prop :=
  ∃ front back, pairs = front ++ e :: back ∧ ∀ x ∈ back, x.1 ≠ e.1

theorem get?_ofPairs_iff {pairs : List (String × β)} {e : String × β} :
    get? (ofPairs pairs) e.1 = some e.2 ↔ LastIn pairs e := by
  rw [get?_ofPairs, Option.map_eq_some_iff]
  constructor
  · rintro ⟨x, hfind, hvalue⟩
    obtain ⟨hkey, back, front, hsplit, hback⟩ := List.find?_eq_some_iff_append.mp hfind
    have hx : x = e := Prod.ext (by simpa using hkey) hvalue
    refine ⟨front.reverse, back.reverse, ?_, ?_⟩
    · rw [← hx, ← List.reverse_reverse pairs, hsplit]
      simp
    · intro y hy
      simpa using hback y (List.mem_reverse.mp hy)
  · rintro ⟨front, back, rfl, hback⟩
    refine ⟨e, List.find?_eq_some_iff_append.mpr ⟨by simp, back.reverse, front.reverse, ?_, ?_⟩, rfl⟩
    · simp
    · intro y hy
      simpa using hback y (List.mem_reverse.mp hy)

theorem LastIn.mem {pairs : List (String × β)} {e : String × β} (h : LastIn pairs e) : e ∈ pairs := by
  obtain ⟨front, back, rfl, -⟩ := h
  simp

theorem get?_ofPairs_eq_none_iff {pairs : List (String × β)} :
    get? (ofPairs pairs) k = none ↔ k ∉ pairs.map (·.1) := by
  rw [get?_ofPairs, Option.map_eq_none_iff, List.find?_eq_none]
  simp only [List.mem_reverse, decide_eq_true_eq, List.mem_map, not_exists, not_and]

theorem get?_merge {d e : Dict β} (hkeys : (e.map (·.1)).Nodup) (k : String) :
    get? (merge d e) k = (get? e k).or (get? d k) := by
  cases hget : get? e k with
  | some v => exact get?_merge_of_mem hkeys (mem_of_get? hget)
  | none =>
    have hnone : e.reverse.find? (fun x => decide (x.1 = k)) = none := by
      refine List.find?_eq_none.mpr fun x hx => ?_
      have hkey : x.1 ≠ k := fun heq =>
        get?_eq_none_iff.mp hget (heq ▸ List.mem_map_of_mem (List.mem_reverse.mp hx))
      simpa using hkey
    rw [merge, get?_foldl_set, hnone]
    rfl

theorem exists_set_eq {d : Dict β} {old : β} (h : get? d k = some old) :
    ∃ front back, d = front ++ (k, old) :: back ∧
      ∀ v, set d k v = front ++ (k, v) :: back := by
  induction d with
  | nil => cases h
  | cons e d ih =>
    rw [get?_cons] at h
    split at h
    · rename_i hkey
      refine ⟨[], d, ?_, fun v => ?_⟩
      · rw [← hkey, ← Option.some.inj h]
        rfl
      · rw [set, if_pos hkey]
        rfl
    · rename_i hkey
      obtain ⟨front, back, hd, hset⟩ := ih h
      refine ⟨e :: front, back, ?_, fun v => ?_⟩
      · rw [hd]
        rfl
      · rw [set, if_neg hkey, hset]
        rfl

theorem get?_ofPairs_map {f : String → β} {keys : List String} (h : k ∈ keys) :
    get? (ofPairs (keys.map fun s => (s, f s))) k = some (f k) := by
  rw [get?_ofPairs]
  cases hfind : (keys.map fun s => (s, f s)).reverse.find? fun e => decide (e.1 = k) with
  | none =>
    have hmem : (k, f k) ∈ (keys.map fun s => (s, f s)).reverse :=
      List.mem_reverse.mpr (List.mem_map.mpr ⟨k, h, rfl⟩)
    exact absurd (decide_eq_true rfl) (List.find?_eq_none.mp hfind _ hmem)
  | some e =>
    obtain ⟨s, -, rfl⟩ := List.mem_map.mp (List.mem_reverse.mp (List.mem_of_find?_eq_some hfind))
    have hkey := List.find?_some hfind
    have hsame : s = k := of_decide_eq_true hkey
    rw [hsame]
    rfl

/-! ## Counters -/

theorem getD_set_add [AddZeroClass β] (d : Dict β) (k k' : String) (x : β) :
    (get? (set d k ((get? d k).getD 0 + x)) k').getD 0 =
      (get? d k').getD 0 + if k = k' then x else 0 := by
  by_cases h : k = k'
  · rw [if_pos h, ← h, get?_set_self]
    rfl
  · rw [if_neg h, get?_set_of_ne _ _ h, add_zero]

theorem getD_foldl_set_add {α : Type*} [AddCommMonoid β] (key : α → String) (w : α → β)
    (xs : List α) (d : Dict β) (k : String) :
    (get? (xs.foldl (fun d x => set d (key x) ((get? d (key x)).getD 0 + w x)) d) k).getD 0 =
      (get? d k).getD 0 + ((xs.filter fun x => key x = k).map w).sum := by
  induction xs generalizing d with
  | nil => simp
  | cons x xs ih =>
    rw [List.foldl_cons, ih, getD_set_add, List.filter_cons]
    by_cases h : key x = k
    · simp [h, add_assoc]
    · simp [h]

end Dict

inductive Json
  | null
  | bool (b : Bool)
  | num (q : ℚ)
  | str (s : String)
  | arr (items : List Json)
  | obj (entries : List (String × Json))
  deriving Inhabited

/-- `float(value)`, `none` where it raises. -/
def Json.float? : Json → Option ℚ
  | .num q => some q
  | .bool b => some (if b then 1 else 0)
  | .str s => parseFloat s
  | _ => none

/-- Python's truth value. -/
def Json.truthy : Json → Bool
  | .null => false
  | .bool b => b
  | .num q => decide (q ≠ 0)
  | .str s => decide (s ≠ "")
  | .arr items => !items.isEmpty
  | .obj entries => !entries.isEmpty

/-- `a or b`. -/
def Json.orElse (a b : Json) : Json := if a.truthy then a else b

def Json.isNull : Json → Bool
  | .null => true
  | _ => false

def Json.isObj : Json → Bool
  | .obj _ => true
  | _ => false

/-- `d.get(key)`, with `None` for a key that is not there. -/
def Dict.at (d : Dict Json) (k : String) : Json := (Dict.get? d k).getD .null

/-- `d.setdefault(key, value)`. -/
def Dict.setDefault (d : Dict Json) (k : String) (v : Json) : Dict Json :=
  if Dict.contains d k then d else Dict.set d k v

/-- The first of the keys whose value is accepted, and that value. -/
def Dict.firstAt (d : Dict Json) (keys : List String) (accept : Json → Bool) : Option Json :=
  (keys.map (Dict.at d)).find? accept

end Investor.Lib
