import Mathlib.Algebra.Order.Ring.Int
import Mathlib.Data.Nat.Basic
import Mathlib.Data.List.Infix
import Mathlib.Tactic.Ring

/-!
# Dates with a time and a zone, and their ISO text

A `Datetime` is the fields of a date on the Gregorian calendar and of a time of the day, to the
microsecond, with the offset of its zone. The fields are in range by construction, so a text that
spells a 30th of February is no datetime.

`isoformat` writes one and `fromisoformat` reads one: the date with dashes, the time with colons, an
optional fraction and an optional offset. Week dates and the forms without separators are not read.
A text is read from the front by small readers, each of which gives what it has read and what is left
(`number_pad` is the law of the one below all others), and **what was written is read back**
(`fromisoformat_isoformat`).
-/

namespace Investor.Lib

/-! ## The calendar -/

def isLeap (year : ℕ) : Bool := year % 4 = 0 && (year % 100 ≠ 0 || year % 400 = 0)

def daysInMonth (year month : ℕ) : ℕ :=
  if month = 2 then if isLeap year then 29 else 28
  else if month ∈ [4, 6, 9, 11] then 30 else 31

def daysBeforeYear (year : ℕ) : ℕ :=
  (year - 1) * 365 + (year - 1) / 4 - (year - 1) / 100 + (year - 1) / 400

def daysBeforeMonth (year month : ℕ) : ℕ :=
  ((List.range (month - 1)).map fun m => daysInMonth year (m + 1)).sum

/-- Fields that are in range. -/
def CivilValid (year month day hour minute second microsecond : ℕ) : Prop :=
  (1 ≤ year ∧ year ≤ 9999) ∧ (1 ≤ month ∧ month ≤ 12) ∧ (1 ≤ day ∧ day ≤ daysInMonth year month) ∧
    hour < 24 ∧ minute < 60 ∧ second < 60 ∧ microsecond < 1000000

instance (year month day hour minute second microsecond : ℕ) :
    Decidable (CivilValid year month day hour minute second microsecond) :=
  inferInstanceAs (Decidable ((1 ≤ year ∧ year ≤ 9999) ∧ (1 ≤ month ∧ month ≤ 12) ∧
    (1 ≤ day ∧ day ≤ daysInMonth year month) ∧ hour < 24 ∧ minute < 60 ∧ second < 60 ∧
    microsecond < 1000000))

theorem CivilValid.midnight {year month day hour minute second microsecond : ℕ}
    (h : CivilValid year month day hour minute second microsecond) :
    CivilValid year month day 0 0 0 0 := by
  obtain ⟨hyear, hmonth, hday, -⟩ := h
  exact ⟨hyear, hmonth, hday, by omega, by omega, by omega, by omega⟩

/-- A date and a time of the day. -/
structure Civil where
  year : ℕ
  month : ℕ
  day : ℕ
  hour : ℕ
  minute : ℕ
  second : ℕ
  microsecond : ℕ
  valid : CivilValid year month day hour minute second microsecond
  deriving DecidableEq

def DAY_MICROS : ℕ := 86400000000

/-- An offset from UTC in microseconds, of less than a day. -/
abbrev Zone := { offset : Int // offset.natAbs < DAY_MICROS }

def Zone.utc : Zone := ⟨0, by decide⟩

structure Datetime extends Civil where
  zone : Zone
  deriving DecidableEq

namespace Datetime

def toordinal (d : Datetime) : ℕ := daysBeforeYear d.year + daysBeforeMonth d.year d.month + d.day

def daySeconds (d : Datetime) : ℕ := (d.hour * 60 + d.minute) * 60 + d.second

/-- The point of time, in microseconds. -/
def instant (d : Datetime) : Int :=
  ((d.toordinal * 86400 + d.daySeconds) * 1000000 + d.microsecond : ℕ) - d.zone.val

/-- `d.replace(hour=0, minute=0, second=0, microsecond=0)`. -/
def midnight (d : Datetime) : Datetime :=
  { d with hour := 0, minute := 0, second := 0, microsecond := 0, valid := d.valid.midnight }

end Datetime

/-! ## Numbers of a width -/

/-- The last `n` digits of the number. -/
def pad : ℕ → ℕ → List Char
  | 0, _ => []
  | n + 1, v => Nat.digitChar (v / 10 ^ n % 10) :: pad n v

/-- The next `n` digits, behind those that have been read. -/
def number : ℕ → ℕ → List Char → Option (ℕ × List Char)
  | 0, acc, cs => some (acc, cs)
  | _ + 1, _, [] => none
  | n + 1, acc, c :: cs => if c.isDigit then number n (acc * 10 + (c.toNat - 48)) cs else none

theorem isDigit_digitChar {d : ℕ} (h : d < 10) : (Nat.digitChar d).isDigit := by
  have hall : ∀ d < 10, (Nat.digitChar d).isDigit := by decide
  exact hall d h

theorem number_pad (n v acc : ℕ) (cs : List Char) :
    number n acc (pad n v ++ cs) = some (acc * 10 ^ n + v % 10 ^ n, cs) := by
  induction n generalizing acc with
  | zero => simp [number, pad, Nat.mod_one]
  | succ n ih =>
    have hdigit : v / 10 ^ n % 10 < 10 := Nat.mod_lt _ (by omega)
    have hvalue : (Nat.digitChar (v / 10 ^ n % 10)).toNat - 48 = v / 10 ^ n % 10 := by
      rw [Nat.toNat_digitChar_of_lt_ten hdigit]
      omega
    rw [pad, List.cons_append, number, if_pos (isDigit_digitChar hdigit), hvalue, ih, Nat.mod_pow_succ]
    congr 2
    ring

theorem number_pad_of_lt {n v : ℕ} (h : v < 10 ^ n) (cs : List Char) :
    number n 0 (pad n v ++ cs) = some (v, cs) := by
  rw [number_pad, Nat.mod_eq_of_lt h, Nat.zero_mul, Nat.zero_add]

theorem length_pad (n v : ℕ) : (pad n v).length = n := by
  induction n with
  | zero => rfl
  | succ n ih => rw [pad, List.length_cons, ih]

theorem isDigit_of_mem_pad {n v : ℕ} {c : Char} (h : c ∈ pad n v) : c.isDigit := by
  induction n with
  | zero => cases h
  | succ n ih =>
    rcases List.mem_cons.mp h with rfl | h
    · exact isDigit_digitChar (Nat.mod_lt _ (by omega))
    · exact ih h

/-! ## Clocks -/

/-- A time of the day, in no range. -/
structure Clock where
  hour : ℕ
  minute : ℕ
  second : ℕ
  microsecond : ℕ
  deriving DecidableEq

/-- `.ffffff`, or nothing. -/
def fractionText (microsecond : ℕ) : List Char :=
  if microsecond = 0 then [] else '.' :: pad 6 microsecond

/-- `HH:MM:SS[.ffffff]`. -/
def clockText (k : Clock) : List Char :=
  pad 2 k.hour ++ ':' :: (pad 2 k.minute ++ ':' :: (pad 2 k.second ++ fractionText k.microsecond))

/-- `HH:MM[:SS[.ffffff]]`. -/
def shortClockText (k : Clock) : List Char :=
  if k.second = 0 ∧ k.microsecond = 0 then pad 2 k.hour ++ ':' :: pad 2 k.minute else clockText k

/-- The microseconds behind the point; digits after the sixth are cut off. -/
def fraction? : List Char → Option ℕ
  | [] => some 0
  | c :: cs =>
    if (c = '.' ∨ c = ',') ∧ cs ≠ [] ∧ cs.all Char.isDigit then
      (number 6 0 (cs ++ List.replicate 6 '0')).map (·.1)
    else none

def second? : List Char → Option (ℕ × ℕ)
  | [] => some (0, 0)
  | c :: cs =>
    if c = ':' then (number 2 0 cs).bind fun s => (fraction? s.2).map fun us => (s.1, us) else none

def minute? : List Char → Option (ℕ × ℕ × ℕ)
  | [] => some (0, 0, 0)
  | c :: cs =>
    if c = ':' then (number 2 0 cs).bind fun m => (second? m.2).map fun r => (m.1, r) else none

/-- `HH[:MM[:SS[.ffffff]]]`. -/
def clock? (cs : List Char) : Option Clock :=
  (number 2 0 cs).bind fun h => (minute? h.2).map fun r => ⟨h.1, r.1, r.2.1, r.2.2⟩

structure Clock.Fits (k : Clock) : Prop where
  hour : k.hour < 100
  minute : k.minute < 100
  second : k.second < 100
  microsecond : k.microsecond < 1000000

theorem fraction?_fractionText {us : ℕ} (h : us < 1000000) : fraction? (fractionText us) = some us := by
  unfold fractionText
  split
  · rename_i hzero
    rw [hzero]
    rfl
  · have hne : pad 6 us ≠ [] := List.ne_nil_of_length_eq_add_one (length_pad 6 us)
    have hall : (pad 6 us).all Char.isDigit := List.all_eq_true.mpr fun c => isDigit_of_mem_pad
    rw [fraction?, if_pos ⟨Or.inl rfl, hne, hall⟩, number_pad_of_lt (by omega), Option.map_some]

theorem clock?_clockText {k : Clock} (h : k.Fits) : clock? (clockText k) = some k := by
  unfold clockText clock?
  rw [number_pad_of_lt (by simpa using h.hour), Option.bind_some, minute?, if_pos rfl,
    number_pad_of_lt (by simpa using h.minute), Option.bind_some, second?, if_pos rfl,
    number_pad_of_lt (by simpa using h.second), Option.bind_some, fraction?_fractionText h.microsecond]
  rfl

theorem clock?_shortClockText {k : Clock} (h : k.Fits) : clock? (shortClockText k) = some k := by
  unfold shortClockText
  split
  · rename_i hwhole
    obtain ⟨hour, minute, second, microsecond⟩ := k
    obtain ⟨rfl, rfl⟩ := hwhole
    unfold clock?
    have hminute := number_pad_of_lt (n := 2) (by simpa using h.minute) []
    rw [List.append_nil] at hminute
    rw [number_pad_of_lt (by simpa using h.hour), Option.bind_some, minute?, if_pos rfl, hminute]
    rfl
  · exact clock?_clockText h

/-! ## Zones -/

namespace Clock

def micros (k : Clock) : ℕ := ((k.hour * 60 + k.minute) * 60 + k.second) * 1000000 + k.microsecond

def ofMicros (n : ℕ) : Clock :=
  ⟨n / 3600000000, n / 60000000 % 60, n / 1000000 % 60, n % 1000000⟩

theorem micros_ofMicros (n : ℕ) : (ofMicros n).micros = n := by
  unfold ofMicros micros
  dsimp only
  omega

theorem fits_ofMicros {n : ℕ} (h : n < DAY_MICROS) : (ofMicros n).Fits := by
  unfold DAY_MICROS at h
  exact ⟨by unfold ofMicros; dsimp only; omega, by unfold ofMicros; dsimp only; omega,
    by unfold ofMicros; dsimp only; omega, by unfold ofMicros; dsimp only; omega⟩

end Clock

theorem natAbs_signed {n : ℕ} (h : n < DAY_MICROS) (negative : Bool) :
    (if negative then -(n : Int) else n).natAbs < DAY_MICROS := by
  cases negative
  · simpa using h
  · simpa using h

/-- The zone of an offset, unless it is a day or more. -/
def zoneOf? (negative : Bool) (n : ℕ) : Option Zone :=
  if h : n < DAY_MICROS then some ⟨if negative then -(n : Int) else n, natAbs_signed h negative⟩
  else none

/-- `+HH:MM[:SS[.ffffff]]`. -/
def zoneText (z : Zone) : List Char :=
  (if z.val < 0 then '-' else '+') :: shortClockText (Clock.ofMicros z.val.natAbs)

/-- An offset, `Z`, or nothing for a naive datetime. -/
def zone? : List Char → Option (Option Zone)
  | [] => some none
  | c :: cs =>
    if c = 'Z' then if cs = [] then some (some Zone.utc) else none
    else if c = '+' ∨ c = '-' then
      (clock? cs).bind fun k => (zoneOf? (c = '-') k.micros).map some
    else none

theorem zoneOf?_natAbs (z : Zone) : zoneOf? (decide (z.val < 0)) z.val.natAbs = some z := by
  obtain ⟨offset, hoffset⟩ := z
  rw [zoneOf?, dif_pos hoffset]
  congr 2
  by_cases hneg : offset < 0
  · simp only [hneg, decide_true, if_true]
    omega
  · simp only [hneg, decide_false, Bool.false_eq_true, if_false]
    omega

theorem zone?_zoneText (z : Zone) : zone? (zoneText z) = some (some z) := by
  have hread : clock? (shortClockText (Clock.ofMicros z.val.natAbs)) =
      some (Clock.ofMicros z.val.natAbs) := clock?_shortClockText (Clock.fits_ofMicros z.property)
  have hzone := zoneOf?_natAbs z
  unfold zoneText
  by_cases hneg : z.val < 0
  · rw [decide_eq_true hneg] at hzone
    rw [if_pos hneg, zone?, if_neg (by decide), if_pos (Or.inr rfl), hread, Option.bind_some,
      Clock.micros_ofMicros, decide_eq_true rfl, hzone]
    rfl
  · rw [decide_eq_false hneg] at hzone
    rw [if_neg hneg, zone?, if_neg (by decide), if_pos (Or.inl rfl), hread, Option.bind_some,
      Clock.micros_ofMicros, decide_eq_false (by decide), hzone]
    rfl

/-! ## Datetimes -/

/-- `YYYY-MM-DD`. -/
def dateText (year month day : ℕ) : List Char :=
  pad 4 year ++ '-' :: (pad 2 month ++ '-' :: pad 2 day)

namespace Datetime

def clock (d : Civil) : Clock := ⟨d.hour, d.minute, d.second, d.microsecond⟩

/-- `d.isoformat()`. -/
def isoformat (d : Datetime) : String :=
  String.ofList (dateText d.year d.month d.day ++
    'T' :: (clockText (clock d.toCivil) ++ zoneText d.zone))

end Datetime

def after (c : Char) : List Char → Option (List Char)
  | [] => none
  | c' :: cs => if c' = c then some cs else none

/-- `YYYY-MM-DD`, and what is left. -/
def date? (cs : List Char) : Option ((ℕ × ℕ × ℕ) × List Char) :=
  (number 4 0 cs).bind fun year => (after '-' year.2).bind fun cs =>
    (number 2 0 cs).bind fun month => (after '-' month.2).bind fun cs =>
      (number 2 0 cs).map fun day => ((year.1, month.1, day.1), day.2)

def civil? (date : ℕ × ℕ × ℕ) (k : Clock) : Option Civil :=
  if h : CivilValid date.1 date.2.1 date.2.2 k.hour k.minute k.second k.microsecond then
    some ⟨date.1, date.2.1, date.2.2, k.hour, k.minute, k.second, k.microsecond, h⟩
  else none

def startsZone (c : Char) : Bool := c ∈ ['+', '-', 'Z']

def timeAndZone? (cs : List Char) : Option (Clock × Option Zone) :=
  if cs.drop 1 = [] then some (⟨0, 0, 0, 0⟩, none)
  else
    (clock? ((cs.drop 1).takeWhile fun c => !startsZone c)).bind fun k =>
      (zone? ((cs.drop 1).dropWhile fun c => !startsZone c)).map fun z => (k, z)

/-- `datetime.fromisoformat(text)`, `none` where it raises: the fields, and the zone if there is one. -/
def fromisoformat (text : String) : Option (Civil × Option Zone) :=
  (date? text.toList).bind fun d => (timeAndZone? d.2).bind fun t =>
    (civil? d.1 t.1).map fun c => (c, t.2)

namespace Datetime

theorem fits_clock (d : Civil) : (clock d).Fits := by
  obtain ⟨-, -, -, hhour, hminute, hsecond, hmicro⟩ := d.valid
  exact ⟨by show d.hour < 100; omega, by show d.minute < 100; omega, by show d.second < 100; omega,
    hmicro⟩

theorem date?_dateText {year month day : ℕ} (hyear : year < 10000) (hmonth : month < 100)
    (hday : day < 100) (cs : List Char) :
    date? (dateText year month day ++ cs) = some ((year, month, day), cs) := by
  unfold dateText date?
  rw [List.append_assoc, number_pad_of_lt hyear, Option.bind_some]
  show ((number 2 0 (pad 2 month ++ '-' :: pad 2 day ++ cs)).bind fun month' =>
    (after '-' month'.2).bind fun cs =>
      (number 2 0 cs).map fun day => ((year, month'.1, day.1), day.2)) = _
  rw [List.append_assoc, number_pad_of_lt hmonth, Option.bind_some]
  show ((number 2 0 (pad 2 day ++ cs)).map fun day => ((year, month, day.1), day.2)) = _
  rw [number_pad_of_lt hday, Option.map_some]

theorem not_startsZone_of_isDigit {c : Char} (h : c.isDigit) : startsZone c = false := by
  rw [Bool.eq_false_iff]
  intro hzone
  have hmem : c ∈ ['+', '-', 'Z'] := of_decide_eq_true hzone
  rcases List.mem_cons.mp hmem with rfl | hmem
  · cases h
  · rcases List.mem_cons.mp hmem with rfl | hmem
    · cases h
    · cases List.mem_singleton.mp hmem
      cases h

theorem not_startsZone_clockText {k : Clock} {c : Char} (h : c ∈ clockText k) :
    (!startsZone c) = true := by
  have hpad : ∀ {n v : ℕ}, c ∈ pad n v → (!startsZone c) = true := fun hc => by
    rw [not_startsZone_of_isDigit (isDigit_of_mem_pad hc)]
    rfl
  have hcolon : c = ':' → (!startsZone c) = true := by
    rintro rfl
    rfl
  have hfraction : c ∈ fractionText k.microsecond → (!startsZone c) = true := by
    unfold fractionText
    split
    · intro hc
      cases hc
    · intro hc
      rcases List.mem_cons.mp hc with rfl | hc
      · rfl
      · exact hpad hc
  unfold clockText at h
  simp only [List.mem_append, List.mem_cons] at h
  rcases h with h | h | h | h | h | h
  · exact hpad h
  · exact hcolon h
  · exact hpad h
  · exact hcolon h
  · exact hpad h
  · exact hfraction h

theorem startsZone_zoneText (z : Zone) : ∃ c cs, zoneText z = c :: cs ∧ startsZone c := by
  unfold zoneText
  by_cases hneg : z.val < 0
  · exact ⟨'-', _, by rw [if_pos hneg], rfl⟩
  · exact ⟨'+', _, by rw [if_neg hneg], rfl⟩

theorem timeAndZone?_texts {k : Clock} (h : k.Fits) (z : Zone) :
    timeAndZone? ('T' :: (clockText k ++ zoneText z)) = some (k, some z) := by
  obtain ⟨c, cs, hcs, hstarts⟩ := startsZone_zoneText z
  have hall : ∀ c ∈ clockText k, (!startsZone c) = true := fun c => not_startsZone_clockText
  have htake : (clockText k ++ zoneText z).takeWhile (fun c => !startsZone c) = clockText k := by
    rw [List.takeWhile_append_of_pos hall, hcs, List.takeWhile_cons_of_neg (by simp [hstarts]),
      List.append_nil]
  have hdrop : (clockText k ++ zoneText z).dropWhile (fun c => !startsZone c) = zoneText z := by
    rw [List.dropWhile_append_of_pos hall, hcs, List.dropWhile_cons_of_neg (by simp [hstarts])]
  have hne : clockText k ++ zoneText z ≠ [] := by
    rw [hcs]
    exact List.append_ne_nil_of_right_ne_nil _ (List.cons_ne_nil c cs)
  unfold timeAndZone?
  rw [List.drop_one, List.tail_cons, if_neg hne, htake, hdrop, clock?_clockText h, Option.bind_some,
    zone?_zoneText, Option.map_some]

theorem daysInMonth_le (year month : ℕ) : daysInMonth year month ≤ 31 := by
  unfold daysInMonth
  split
  · split <;> omega
  · split <;> omega

theorem civil?_clock (d : Civil) : civil? (d.year, d.month, d.day) (clock d) = some d :=
  dif_pos d.valid

theorem fromisoformat_isoformat (d : Datetime) :
    fromisoformat d.isoformat = some (d.toCivil, some d.zone) := by
  obtain ⟨hyear, hmonth, hday, -⟩ := d.valid
  have hdays := daysInMonth_le d.year d.month
  unfold fromisoformat isoformat
  rw [String.toList_ofList, date?_dateText (by omega) (by omega) (by omega), Option.bind_some,
    timeAndZone?_texts (fits_clock d.toCivil), Option.bind_some, civil?_clock]
  rfl

end Datetime

end Investor.Lib
