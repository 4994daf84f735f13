import Mathlib.Data.List.Basic
import Mathlib.Data.List.DropRight
import Mathlib.Data.List.Infix
import Mathlib.Data.Rat.Defs

/-!
# Text: case folding, stripping, and keys built with separators

Three facts about text carry the string reasoning of the development.

* Case folding is a parameter. `upper` and `lower` of a language runtime follow the
  Unicode tables; what programs rely on is that each is idempotent and that on ASCII
  text it is the ASCII map. `Casing` is the class of such pairs, so that a theorem
  proved over it holds for the full tables. `asciiCasing` is the concrete pair that
  evaluation uses.
* `strip` removes white space at both ends.
* A key `a ++ ":" ++ b` determines `b` and then `a` as soon as `b` holds no separator
  (`append_sep_inj`).
-/

namespace Investor.Lib

/-! ## Case folding -/

def isAscii (s : String) : Prop := ∀ c ∈ s.toList, c.toNat < 128

instance (s : String) : Decidable (isAscii s) :=
  List.decidableBAll (fun c : Char => c.toNat < 128) s.toList

def asciiUpper (s : String) : String := String.ofList (s.toList.map Char.toUpper)

def asciiLower (s : String) : String := String.ofList (s.toList.map Char.toLower)

/-- Upper and lower casing: idempotent, and ASCII's own on ASCII text. -/
class Casing where
  upper : String → String
  lower : String → String
  upper_upper : ∀ s, upper (upper s) = upper s
  lower_lower : ∀ s, lower (lower s) = lower s
  upper_ascii : ∀ s, isAscii s → upper s = asciiUpper s
  lower_ascii : ∀ s, isAscii s → lower s = asciiLower s

attribute [simp] Casing.upper_upper Casing.lower_lower

theorem toUpper_toUpper (c : Char) : c.toUpper.toUpper = c.toUpper := by
  unfold Char.toUpper
  split
  · rename_i h
    rw [dif_neg]
    simp only [UInt32.le_iff_toNat_le, Char.reduceVal] at h ⊢
    simp at h ⊢
    omega
  · rfl

theorem toLower_toLower (c : Char) : c.toLower.toLower = c.toLower := by
  unfold Char.toLower
  split
  · rename_i h
    rw [dif_neg]
    simp only [UInt32.le_iff_toNat_le, Char.reduceVal] at h ⊢
    simp at h ⊢
    omega
  · rfl

theorem asciiUpper_asciiUpper (s : String) : asciiUpper (asciiUpper s) = asciiUpper s := by
  simp [asciiUpper, Function.comp_def, toUpper_toUpper]

theorem asciiLower_asciiLower (s : String) : asciiLower (asciiLower s) = asciiLower s := by
  simp [asciiLower, Function.comp_def, toLower_toLower]

@[reducible] def asciiCasing : Casing where
  upper := asciiUpper
  lower := asciiLower
  upper_upper := asciiUpper_asciiUpper
  lower_lower := asciiLower_asciiLower
  upper_ascii := fun _ _ => rfl
  lower_ascii := fun _ _ => rfl

/-! ## White space -/

/-- The characters `str.isspace` accepts. -/
def isSpace (c : Char) : Bool :=
  let n := c.toNat
  (9 ≤ n && n ≤ 13) || (28 ≤ n && n ≤ 32) || n == 0x85 || n == 0xA0 || n == 0x1680 ||
    (0x2000 ≤ n && n ≤ 0x200A) || n == 0x2028 || n == 0x2029 || n == 0x202F || n == 0x205F ||
    n == 0x3000

/-- `str.strip()`: the text without the white space at its ends. -/
def strip (s : String) : String :=
  String.ofList (((s.toList.dropWhile isSpace).reverse.dropWhile isSpace).reverse)

theorem dropWhile_trim {γ : Type*} (p : γ → Bool) (l : List γ) :
    ((l.dropWhile p).rdropWhile p).dropWhile p = (l.dropWhile p).rdropWhile p := by
  obtain ⟨back, hback⟩ := List.rdropWhile_prefix p (l := l.dropWhile p)
  cases htrim : (l.dropWhile p).rdropWhile p with
  | nil => rfl
  | cons c cs =>
    have hc : ¬ p c = true := by
      have hhead := List.head?_dropWhile_not p l
      rw [← hback, htrim] at hhead
      simpa using hhead
    exact List.dropWhile_cons_of_neg hc

theorem strip_eq (s : String) :
    strip s = String.ofList ((s.toList.dropWhile isSpace).rdropWhile isSpace) := rfl

theorem strip_strip (s : String) : strip (strip s) = strip s := by
  rw [strip_eq s, strip_eq, String.toList_ofList, dropWhile_trim, List.rdropWhile_idempotent]

theorem mem_of_mem_strip {s : String} {c : Char} (h : c ∈ (strip s).toList) : c ∈ s.toList := by
  unfold strip at h
  rw [String.toList_ofList, List.mem_reverse] at h
  exact (List.dropWhile_suffix _).subset
    (List.mem_reverse.mp ((List.dropWhile_suffix _).subset h))

/-- A casing that goes character by character: a stripped upper-case text is in upper case, and
    only the empty text is empty in upper case. -/
class StripCasing extends Casing where
  upper_strip : ∀ s, upper (strip (upper s)) = strip (upper s)
  upper_eq_empty : ∀ s, upper s = "" → s = ""

@[reducible] def asciiStripCasing : StripCasing :=
  { asciiCasing with
    upper_strip := by
      intro s
      show asciiUpper (strip (asciiUpper s)) = strip (asciiUpper s)
      have hfixed : ∀ c ∈ (strip (asciiUpper s)).toList, c.toUpper = c := by
        intro c hc
        have hmem := mem_of_mem_strip hc
        unfold asciiUpper at hmem
        rw [String.toList_ofList] at hmem
        obtain ⟨c', _, rfl⟩ := List.mem_map.mp hmem
        exact toUpper_toUpper c'
      show String.ofList ((strip (asciiUpper s)).toList.map Char.toUpper) = strip (asciiUpper s)
      rw [List.map_congr_left hfixed, List.map_id', String.ofList_toList]
    upper_eq_empty := by
      intro s h
      have hlist : s.toList.map Char.toUpper = [] := by
        rw [← String.toList_ofList (l := s.toList.map Char.toUpper)]
        exact congrArg String.toList h
      rw [← String.ofList_toList (s := s), List.map_eq_nil_iff.mp hlist] }

theorem isSpace_of_between {c : Char} (hlo : 33 ≤ c.toNat) (hhi : c.toNat < 0x85) :
    isSpace c = false := by
  unfold isSpace
  simp
  omega

theorem isSpace_toLower (c : Char) : isSpace c.toLower = isSpace c := by
  by_cases hupper : 65 ≤ c.toNat ∧ c.toNat ≤ 90
  · have hlower : c.toLower.toNat = c.toNat + 32 := by
      unfold Char.toLower
      rw [dif_pos (by simpa [UInt32.le_iff_toNat_le] using hupper)]
      simp only [Char.toNat]
      rw [UInt32.toNat_add]
      have hval : c.val.toNat = c.toNat := rfl
      have hstep : ('a'.val - 'A'.val).toNat = 32 := by decide
      omega
    rw [isSpace_of_between (by omega) (by omega), isSpace_of_between (by omega) (by omega)]
  · unfold Char.toLower
    rw [dif_neg (by simpa [UInt32.le_iff_toNat_le] using hupper)]

theorem strip_asciiLower (s : String) : strip (asciiLower s) = asciiLower (strip s) := by
  have hspace : isSpace ∘ Char.toLower = isSpace := funext isSpace_toLower
  rw [strip_eq, strip_eq]
  unfold asciiLower
  simp only [String.toList_ofList, List.rdropWhile, List.dropWhile_map, ← List.map_reverse, hspace]

/-- A casing that puts no white space at the ends of a stripped text. -/
class LowerCasing extends Casing where
  strip_lower_strip : ∀ s, strip (lower (strip s)) = lower (strip s)

@[reducible] def asciiLowerCasing : LowerCasing :=
  { asciiCasing with
    strip_lower_strip := fun s =>
      (strip_asciiLower (strip s)).trans (congrArg asciiLower (strip_strip s)) }

/-- `s[:n]`. -/
def takeChars (n : ℕ) (s : String) : String := String.ofList (s.toList.take n)

theorem takeChars_of_length_le {n : ℕ} {s : String} (h : s.length ≤ n) : takeChars n s = s := by
  unfold takeChars
  rw [List.take_of_length_le (String.length_toList.trans_le h), String.ofList_toList]

theorem length_takeChars {n : ℕ} {s : String} : (takeChars n s).length = min n s.length := by
  unfold takeChars
  rw [String.length_ofList, List.length_take, String.length_toList]

theorem takeChars_append_eq {n : ℕ} {front s t : String} (h : n ≤ front.length) :
    takeChars n (front ++ s) = takeChars n (front ++ t) := by
  unfold takeChars
  rw [String.toList_append, String.toList_append,
    List.take_append_of_le_length (h.trans_eq String.length_toList.symm),
    List.take_append_of_le_length (h.trans_eq String.length_toList.symm)]

/-- `part in s`. -/
def hasPart (s part : String) : Bool := decide (part.toList <:+: s.toList)

/-- `s.startswith(front)`. -/
def hasPrefix (s front : String) : Bool := front.toList.isPrefixOf s.toList

/-- `s.endswith(end)`. -/
def endsWith (s tail : String) : Bool := tail.toList.isSuffixOf s.toList

/-! ## Decimal numerals -/

def digits? (cs : List Char) : Option ℕ :=
  if cs ≠ [] ∧ cs.all Char.isDigit then
    some (cs.foldl (fun n c => n * 10 + (c.toNat - 48)) 0)
  else none

def splitSign : List Char → ℤ × List Char
  | '-' :: cs => (-1, cs)
  | '+' :: cs => (1, cs)
  | cs => (1, cs)

/-- The exponent behind the `e` of a numeral; `0` when there is none. -/
def exponent? : List Char → Option ℤ
  | [] => some 0
  | _ :: cs => (digits? (splitSign cs).2).map fun n => (splitSign cs).1 * n

/-- `float(text)`, for the finite numerals: a sign, digits with at most one point, and an
    exponent. -/
def parseFloat (s : String) : Option ℚ :=
  let (sign, body) := splitSign (strip s).toList
  let mantissa := body.takeWhile fun c => c ≠ 'e' ∧ c ≠ 'E'
  let whole := mantissa.takeWhile (· ≠ '.')
  let frac := (mantissa.dropWhile (· ≠ '.')).drop 1
  match digits? (whole ++ frac), exponent? (body.drop mantissa.length) with
  | some n, some e => some (sign * n * (10 : ℚ) ^ (e - frac.length))
  | _, _ => none

/-! ## Keys with separators -/

theorem append_cons_inj_left {γ : Type*} {c : γ} :
    ∀ {a a' b b' : List γ}, c ∉ a → c ∉ a' → a ++ c :: b = a' ++ c :: b' → a = a' ∧ b = b'
  | [], [], _, _, _, _, h => ⟨rfl, (List.cons.inj h).2⟩
  | [], x :: _, _, _, _, ha', h => absurd (List.cons.inj h).1 (by rintro rfl; simp at ha')
  | x :: _, [], _, _, ha, _, h => absurd (List.cons.inj h).1 (by rintro rfl; simp at ha)
  | x :: a, y :: a', _, _, ha, ha', h => by
    obtain ⟨rfl, htail⟩ := List.cons.inj h
    obtain ⟨rfl, rfl⟩ := append_cons_inj_left (fun hc => ha (List.mem_cons_of_mem _ hc))
      (fun hc => ha' (List.mem_cons_of_mem _ hc)) htail
    exact ⟨rfl, rfl⟩

theorem append_cons_inj_right {γ : Type*} {c : γ} {a a' b b' : List γ} (hb : c ∉ b)
    (hb' : c ∉ b') (h : a ++ c :: b = a' ++ c :: b') : a = a' ∧ b = b' := by
  have hrev := congrArg List.reverse h
  simp only [List.reverse_append, List.reverse_cons, List.append_assoc, List.singleton_append]
    at hrev
  obtain ⟨h₁, h₂⟩ := append_cons_inj_left (by simpa using hb) (by simpa using hb') hrev
  exact ⟨List.reverse_injective h₂, List.reverse_injective h₁⟩

theorem append_sep_inj {a a' b b' : String} (hb : ':' ∉ b.toList) (hb' : ':' ∉ b'.toList)
    (h : a ++ ":" ++ b = a' ++ ":" ++ b') : a = a' ∧ b = b' := by
  have hl := congrArg String.toList h
  simp only [String.toList_append, List.append_assoc] at hl
  obtain ⟨h₁, h₂⟩ := append_cons_inj_right hb hb' hl
  exact ⟨String.toList_inj.mp h₁, String.toList_inj.mp h₂⟩

/-- The text ends in the separator and `b`. -/
def endsWithPart (s b : String) : Bool := (":" ++ b).toList.isSuffixOf s.toList

theorem endsWithPart_append (a b : String) : endsWithPart (a ++ ":" ++ b) b = true := by
  simp [endsWithPart, List.isSuffixOf_iff_suffix, String.toList_append]

theorem endsWithPart_iff {a b b' : String} (hb : ':' ∉ b.toList) (hb' : ':' ∉ b'.toList) :
    endsWithPart (a ++ ":" ++ b) b' = true ↔ b = b' := by
  constructor
  · intro h
    obtain ⟨pre, hpre⟩ := List.isSuffixOf_iff_suffix.mp h
    simp only [String.toList_append, List.append_assoc] at hpre
    exact (String.toList_inj.mp (append_cons_inj_right hb' hb hpre).2).symm
  · rintro rfl
    exact endsWithPart_append a b

end Investor.Lib
