import Investor.Lib.Json
import Mathlib.Algebra.Order.Ring.Rat

/-!
# JSON values as Python holds them

A number of a JSON text is an integer of any size or a float, and a float may be infinite or no
number at all. `float()` raises on what is no number, on a text that spells none, and on an
integer beyond the largest float. Finite floats are exact here.

The second half is about dictionaries that are edited key by key: `Dict.SameBut` says which keys
an edit leaves alone, and what returns is told step by step (`Returns`).
-/

namespace Investor.Lib

/-! ## Floats -/

inductive PyFloat
  | fin (q : ℚ)
  | inf
  | negInf
  | nan
  deriving DecidableEq

namespace PyFloat

/-- `x > r`. -/
def gt (x : PyFloat) (r : ℚ) : Bool :=
  match x with
  | .fin q => decide (r < q)
  | .inf => true
  | .negInf | .nan => false

/-- `x <= r`. -/
def le (x : PyFloat) (r : ℚ) : Bool :=
  match x with
  | .fin q => decide (q ≤ r)
  | .negInf => true
  | .inf | .nan => false

/-- `x >= r`. -/
def ge (x : PyFloat) (r : ℚ) : Bool :=
  match x with
  | .fin q => decide (r ≤ q)
  | .inf => true
  | .negInf | .nan => false

/-- `max(lo, min(hi, x))`: what is no number loses every comparison, and `hi` stays. -/
def clampTo (lo hi : ℚ) : PyFloat → ℚ
  | .fin q => max lo (min hi q)
  | .inf | .nan => max lo hi
  | .negInf => lo

/-- `x * r`, for a positive number. -/
def times (x : PyFloat) (r : ℚ) : PyFloat :=
  match x with
  | .fin q => .fin (q * r)
  | x => x

end PyFloat

/-- The integers from here on are too large for a float. -/
def floatLimit : ℕ := 2 ^ 1024 - 2 ^ 970

/-- The float next to a number, infinite beyond the largest one. -/
def PyFloat.ofRat (q : ℚ) : PyFloat :=
  if (floatLimit : ℚ) ≤ q then .inf else if q ≤ -(floatLimit : ℚ) then .negInf else .fin q

def withoutUnderscores : List Char → Option (List Char)
  | [] => some []
  | '_' :: _ => none
  | c :: '_' :: d :: cs =>
    if c.isDigit && d.isDigit then (withoutUnderscores (d :: cs)).map (c :: ·) else none
  | c :: cs => (withoutUnderscores cs).map (c :: ·)

/-- `float(text)`, `none` for the `ValueError`. -/
def parsePyFloat (s : String) : Option PyFloat :=
  let text := strip s
  let (sign, body) := splitSign text.toList
  let word := asciiLower (String.ofList body)
  if word = "nan" then some .nan
  else if word = "inf" ∨ word = "infinity" then some (if sign < 0 then .negInf else .inf)
  else (withoutUnderscores text.toList).bind fun cs =>
    (parseFloat (String.ofList cs)).map PyFloat.ofRat

/-! ## Values -/

/-- What is raised in the code modelled here. -/
inductive PyRaise
  | attributeError | typeError | valueError | overflowError
  deriving DecidableEq

inductive PyJson
  | null
  | bool (b : Bool)
  | int (n : ℤ)
  | float (x : PyFloat)
  | str (s : String)
  | arr (items : List PyJson)
  | obj (entries : List (String × PyJson))
  deriving Inhabited

namespace PyJson

/-- `float(value)`. -/
def toFloat : PyJson → Except PyRaise PyFloat
  | .bool b => .ok (.fin (if b then 1 else 0))
  | .int n => if floatLimit ≤ n.natAbs then .error .overflowError else .ok (.fin n)
  | .float x => .ok x
  | .str s =>
    match parsePyFloat s with
    | some x => .ok x
    | none => .error .valueError
  | .null | .arr _ | .obj _ => .error .typeError

/-- Python's truth value. -/
def truthy : PyJson → Bool
  | .null => false
  | .bool b => b
  | .int n => decide (n ≠ 0)
  | .float x => decide (x ≠ .fin 0)
  | .str s => decide (s ≠ "")
  | .arr items => !items.isEmpty
  | .obj entries => !entries.isEmpty

/-- `a or b`. -/
def orElse (a b : PyJson) : PyJson := if a.truthy then a else b

def isNull : PyJson → Bool
  | .null => true
  | _ => false

def isBool : PyJson → Bool
  | .bool _ => true
  | _ => false

/-- `isinstance(value, (int, float))`. -/
def isNumber : PyJson → Bool
  | .bool _ | .int _ | .float _ => true
  | _ => false

def isStr : PyJson → Bool
  | .str _ => true
  | _ => false

/-- `hash(value)` raises. -/
def isContainer : PyJson → Bool
  | .arr _ | .obj _ => true
  | _ => false

def isHuge : PyJson → Bool
  | .int n => decide (floatLimit ≤ n.natAbs)
  | _ => false

@[simp] theorem isHuge_null : isHuge .null = false := rfl

@[simp] theorem isHuge_bool (b : Bool) : isHuge (.bool b) = false := rfl

@[simp] theorem isHuge_float (x : PyFloat) : isHuge (.float x) = false := rfl

@[simp] theorem isHuge_str (s : String) : isHuge (.str s) = false := rfl

@[simp] theorem isHuge_arr (items : List PyJson) : isHuge (.arr items) = false := rfl

@[simp] theorem isHuge_obj (entries : List (String × PyJson)) : isHuge (.obj entries) = false := rfl

@[simp] theorem isNull_iff {v : PyJson} : v.isNull = true ↔ v = .null := by
  cases v <;> simp [isNull]

/-- `try: float(value) except (TypeError, ValueError)`: only the integers that are too large get
    through. -/
def floatOr {α : Type} (v : PyJson) (missing : α) (use : PyFloat → Except PyRaise α) :
    Except PyRaise α :=
  match v.toFloat with
  | .ok x => use x
  | .error .overflowError => .error .overflowError
  | .error _ => .ok missing

end PyJson

/-! ## What returns -/

section Returning

variable {ε α β : Type}

def Returns (x : Except ε α) : Prop := x.isOk = true

instance (x : Except ε α) : Decidable (Returns x) := inferInstanceAs (Decidable (_ = _))

@[simp] theorem returns_ok (a : α) : Returns (.ok a : Except ε α) := rfl

@[simp] theorem returns_pure (a : α) : Returns (pure a : Except ε α) := rfl

@[simp] theorem not_returns_error (e : ε) : ¬ Returns (.error e : Except ε α) := Bool.false_ne_true

theorem returns_iff {x : Except ε α} : Returns x ↔ ∃ a, x = .ok a := by
  cases x with
  | error e => simp
  | ok a => simp

theorem bind_ok_iff {x : Except ε α} {f : α → Except ε β} {b : β} :
    (x >>= f) = .ok b ↔ ∃ a, x = .ok a ∧ f a = .ok b := by
  cases x <;> simp [Bind.bind, Except.bind]

theorem pure_ok_iff {a b : α} : (pure a : Except ε α) = .ok b ↔ a = b := Except.ok.injEq a b ▸ Iff.rfl

theorem map_ok_iff {x : Except ε α} {f : α → β} {b : β} :
    f <$> x = .ok b ↔ ∃ a, x = .ok a ∧ f a = b := by
  cases x <;> simp [Functor.map, Except.map]

theorem returns_bind {x : Except ε α} {f : α → Except ε β} :
    Returns (x >>= f) ↔ Returns x ∧ ∀ a, x = .ok a → Returns (f a) := by
  cases x with
  | error e =>
    simp [Bind.bind, Except.bind]
  | ok a => simp [Bind.bind, Except.bind]

@[simp] theorem returns_map {x : Except ε α} {f : α → β} : Returns (f <$> x) ↔ Returns x := by
  cases x <;> simp [Functor.map, Except.map, Returns, Except.isOk, Except.toBool]

/-- A step that is only taken under a condition. -/
def onlyIf (c : Bool) (f : α → Except ε α) (a : α) : Except ε α := if c then f a else .ok a

theorem returns_onlyIf {c : Bool} {f : α → Except ε α} {a : α} :
    Returns (onlyIf c f a) ↔ (c = true → Returns (f a)) := by
  cases c <;> simp [onlyIf]

theorem onlyIf_ok {c : Bool} {f : α → Except ε α} {a a' : α} (h : onlyIf c f a = .ok a') :
    (c = true ∧ f a = .ok a') ∨ (c = false ∧ a' = a) := by
  cases c with
  | true => exact Or.inl ⟨rfl, h⟩
  | false =>
    cases h
    exact Or.inr ⟨rfl, rfl⟩

theorem returns_mapM {f : α → Except ε β} {xs : List α} :
    Returns (xs.mapM f) ↔ ∀ x ∈ xs, Returns (f x) := by
  induction xs with
  | nil => simp
  | cons x xs ih =>
    rw [List.mapM_cons, returns_bind, List.forall_mem_cons]
    refine and_congr_right fun hx => ?_
    obtain ⟨b, hb⟩ := returns_iff.mp hx
    constructor
    · intro hrest
      exact ih.mp (returns_bind.mp (hrest b hb)).1
    · intro hxs b' _
      exact returns_bind.mpr ⟨ih.mpr hxs, fun bs _ => returns_pure _⟩

theorem mapM_ok_iff {f : α → Except ε β} {xs : List α} {ys : List β} :
    xs.mapM f = .ok ys ↔ List.Forall₂ (fun x y => f x = .ok y) xs ys := by
  induction xs generalizing ys with
  | nil =>
    rw [List.mapM_nil, List.forall₂_nil_left_iff]
    exact pure_ok_iff.trans eq_comm
  | cons x xs ih =>
    rw [List.mapM_cons, bind_ok_iff, List.forall₂_cons_left_iff]
    constructor
    · rintro ⟨y, hy, h⟩
      obtain ⟨ys', hys, h⟩ := bind_ok_iff.mp h
      exact ⟨y, ys', hy, ih.mp hys, (pure_ok_iff.mp h).symm⟩
    · rintro ⟨y, ys', hy, hys, rfl⟩
      exact ⟨y, hy, bind_ok_iff.mpr ⟨ys', ih.mpr hys, rfl⟩⟩

theorem returns_foldlM {f : β → α → Except ε β} {P : α → Prop}
    (hstep : ∀ b a, Returns (f b a) ↔ P a) {xs : List α} {b : β} :
    Returns (xs.foldlM f b) ↔ ∀ a ∈ xs, P a := by
  induction xs generalizing b with
  | nil => simp
  | cons x xs ih =>
    rw [List.foldlM_cons, returns_bind, hstep, List.forall_mem_cons]
    refine and_congr_right fun hx => ?_
    obtain ⟨b', hb'⟩ := returns_iff.mp ((hstep b x).mpr hx)
    constructor
    · intro hrest
      exact ih.mp (hrest b' hb')
    · intro hxs c _
      exact ih.mpr hxs

theorem foldlM_holds {f : β → α → Except ε β} {I : β → Prop}
    (hstep : ∀ b a b', f b a = .ok b' → I b → I b') {xs : List α} {b b' : β}
    (h : xs.foldlM f b = .ok b') (hb : I b) : I b' := by
  induction xs generalizing b with
  | nil =>
    rw [List.foldlM_nil] at h
    exact pure_ok_iff.mp h ▸ hb
  | cons x xs ih =>
    rw [List.foldlM_cons] at h
    obtain ⟨c, hc, hrest⟩ := bind_ok_iff.mp h
    exact ih hrest (hstep b x c hc hb)

end Returning

/-! ## Edited dictionaries -/

namespace Dict

variable {β : Type}

/-- `d.setdefault(key, value)`. -/
def ensure (d : Dict β) (k : String) (v : β) : Dict β := if contains d k then d else set d k v

/-- `d[key] = f(d[key])`, where the key is there. -/
def adjust (d : Dict β) (k : String) (f : β → β) : Dict β :=
  match get? d k with
  | some v => set d k (f v)
  | none => d

def adjustM (d : Dict β) (k : String) (f : β → Except PyRaise β) : Except PyRaise (Dict β) :=
  match get? d k with
  | some v => do
    let v ← f v
    return set d k v
  | none => .ok d

/-- `d.pop(key, None)`, for each of the keys. -/
def without (d : Dict β) (keys : List String) : Dict β := d.filter fun e => e.1 ∉ keys

def SameBut (keys : List String) (d d' : Dict β) : Prop := ∀ k, k ∉ keys → get? d' k = get? d k

theorem contains_iff {d : Dict β} {k : String} : contains d k = true ↔ (get? d k).isSome = true := by
  unfold contains get?
  rw [Option.isSome_map, List.find?_isSome]
  simp

theorem SameBut.refl {keys : List String} {d : Dict β} : SameBut keys d d := fun _ _ => rfl

theorem SameBut.trans {ks ls : List String} {d d' d'' : Dict β} (h : SameBut ks d d')
    (h' : SameBut ls d' d'') : SameBut (ks ++ ls) d d'' := by
  intro k hk
  rw [List.mem_append, not_or] at hk
  exact (h' k hk.2).trans (h k hk.1)

theorem SameBut.mono {ks ls : List String} {d d' : Dict β} (h : SameBut ks d d') (hsub : ks ⊆ ls) :
    SameBut ls d d' := fun k hk => h k fun hmem => hk (hsub hmem)

theorem sameBut_set (d : Dict β) (k : String) (v : β) : SameBut [k] d (set d k v) := by
  intro k' hk'
  exact get?_set_of_ne d v fun heq => hk' (List.mem_singleton.mpr heq.symm)

theorem sameBut_ensure (d : Dict β) (k : String) (v : β) : SameBut [k] d (ensure d k v) := by
  unfold ensure
  split
  · exact SameBut.refl
  · exact sameBut_set d k v

theorem sameBut_adjust (d : Dict β) (k : String) (f : β → β) : SameBut [k] d (adjust d k f) := by
  unfold adjust
  split
  · exact sameBut_set d k _
  · exact SameBut.refl

theorem sameBut_adjustM {d d' : Dict β} {k : String} {f : β → Except PyRaise β}
    (h : adjustM d k f = .ok d') : SameBut [k] d d' := by
  unfold adjustM at h
  split at h
  · obtain ⟨v, _, hv⟩ := bind_ok_iff.mp h
    cases hv
    exact sameBut_set d k v
  · cases h
    exact SameBut.refl

theorem get?_without (d : Dict β) (keys : List String) (k : String) :
    get? (without d keys) k = if k ∈ keys then none else get? d k := by
  unfold without get?
  rw [List.find?_filter]
  split
  · rename_i hk
    rw [Option.map_eq_none_iff, List.find?_eq_none]
    intro e _ he
    simp at he
    exact he.1 (he.2 ▸ hk)
  · rename_i hk
    congr 2
    funext e
    by_cases he : e.1 = k
    · simp [he, hk]
    · simp [he]

theorem get?_filter_mem (d : Dict β) (keys : List String) {k : String} (hk : k ∈ keys) :
    get? (d.filter fun e => e.1 ∈ keys) k = get? d k := by
  unfold get?
  rw [List.find?_filter]
  congr 2
  funext e
  by_cases he : e.1 = k
  · simp [he, hk]
  · simp [he]

theorem sameBut_without (d : Dict β) (keys : List String) : SameBut keys d (without d keys) := by
  intro k hk
  rw [get?_without, if_neg hk]

theorem sameBut_erase (d : Dict β) (k : String) : SameBut [k] d (erase d k) := by
  intro k' hk'
  exact get?_erase_of_ne d fun heq => hk' (List.mem_singleton.mpr heq.symm)

/-- Every entry of the edited dictionary was there before, or its value is one of these. -/
def NewAre (P : β → Prop) (d d' : Dict β) : Prop := ∀ e ∈ d', e ∈ d ∨ P e.2

section NewAre

variable {P : β → Prop} {d d' d'' : Dict β} {k : String}

theorem NewAre.refl : NewAre P d d := fun _ he => Or.inl he

theorem NewAre.trans (h : NewAre P d d') (h' : NewAre P d' d'') : NewAre P d d'' := by
  intro e he
  rcases h' e he with hmem | hP
  · exact h e hmem
  · exact Or.inr hP

theorem newAre_set {v : β} (hv : P v) : NewAre P d (set d k v) := by
  intro e he
  rcases mem_set he with hmem | rfl
  · exact Or.inl hmem
  · exact Or.inr hv

theorem newAre_ensure {v : β} (hv : P v) : NewAre P d (ensure d k v) := by
  unfold ensure
  split
  · exact NewAre.refl
  · exact newAre_set hv

theorem newAre_erase : NewAre P d (erase d k) := fun _ he => Or.inl (List.mem_filter.mp he).1

theorem newAre_without {keys : List String} : NewAre P d (without d keys) :=
  fun _ he => Or.inl (List.mem_filter.mp he).1

theorem newAre_adjustM {f : β → Except PyRaise β} (hf : ∀ v w, f v = .ok w → w = v ∨ P w)
    (h : adjustM d k f = .ok d') : NewAre P d d' := by
  unfold adjustM at h
  split at h
  · rename_i v hv
    obtain ⟨w, hw, hd'⟩ := bind_ok_iff.mp h
    rw [← pure_ok_iff.mp hd']
    intro e he
    rcases mem_set he with hmem | rfl
    · exact Or.inl hmem
    · rcases hf v w hw with rfl | hP
      · exact Or.inl (mem_of_get? hv)
      · exact Or.inr hP
  · cases h
    exact NewAre.refl

theorem newAre_adjust {f : β → β} (hf : ∀ v, f v = v ∨ P (f v)) : NewAre P d (adjust d k f) := by
  unfold adjust
  split
  · rename_i v hv
    intro e he
    rcases mem_set he with hmem | rfl
    · exact Or.inl hmem
    · rcases hf v with heq | hP
      · rw [heq]
        exact Or.inl (mem_of_get? hv)
      · exact Or.inr hP
  · exact NewAre.refl

end NewAre

/-- `d.get(key)`, with `None` for a key that is not there. -/
def read (d : Dict PyJson) (k : String) : PyJson := (get? d k).getD .null

theorem read_of_not_contains {d : Dict PyJson} {k : String} (h : contains d k = false) :
    read d k = .null := by
  rw [Bool.eq_false_iff, Ne, contains_iff, Bool.not_eq_true, Option.isSome_eq_false_iff,
    Option.isNone_iff_eq_none] at h
  rw [read, h]
  rfl

/-- The first of the keys whose value is accepted, and that value. -/
def firstOf (d : Dict PyJson) (keys : List String) (accept : PyJson → Bool) : Option PyJson :=
  (keys.map (read d)).find? accept

theorem SameBut.read {keys : List String} {d d' : Dict PyJson} (h : SameBut keys d d') {k : String}
    (hk : k ∉ keys) : Dict.read d' k = Dict.read d k := by
  unfold Dict.read
  rw [h k hk]

theorem adjustM_read {d d' : Dict PyJson} {k : String} {f : PyJson → Except PyRaise PyJson}
    (hnull : f .null = .ok .null) (h : adjustM d k f = .ok d') :
    f (Dict.read d k) = .ok (Dict.read d' k) := by
  unfold adjustM at h
  unfold Dict.read
  split at h
  · rename_i v hv
    obtain ⟨w, hw, hd'⟩ := bind_ok_iff.mp h
    rw [← pure_ok_iff.mp hd', get?_set_self, hv]
    exact hw
  · rename_i hnone
    cases h
    rw [hnone]
    exact hnull

theorem returns_adjustM {d : Dict PyJson} {k : String} {f : PyJson → Except PyRaise PyJson}
    (hnull : f .null = .ok .null) : Returns (adjustM d k f) ↔ Returns (f (Dict.read d k)) := by
  unfold adjustM Dict.read
  cases get? d k with
  | none => simp [hnull]
  | some v => simp

theorem SameBut.contains {keys : List String} {d d' : Dict β} (h : SameBut keys d d') {k : String}
    (hk : k ∉ keys) : contains d' k = contains d k := by
  rw [Bool.eq_iff_iff, contains_iff, contains_iff, h k hk]

end Dict

end Investor.Lib
