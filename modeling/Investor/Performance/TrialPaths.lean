import Investor.Lib.Datetime
import Investor.Lib.FloatOrder
import Investor.Performance.TrialExits

/-!
# Which level a trial reached first

`price_path` reads marks of any kind: their times may be naive, aware or no times at all, and
their prices missing, not positive, infinite or not a number. What is left is walked in the order
of the times until both levels have been reached.

The path is read off three things (`pricePath_eq`): whether any mark is usable, and when each
level is first reached. Both times are a least one among marks, so the order of the marks is of no
effect, and neither is a mark that reaches no level or comes after both. That no mark is usable is
told apart from marks that reach nothing.
-/

namespace Investor.Performance.Marks

open Lib

/-- What stands as the time of a mark: a datetime without a zone, one with a zone, or neither. -/
inductive MarkTime
  | naive (c : Civil)
  | aware (d : Datetime)
  | other

/-- `as_utc`, of what is a datetime. -/
def asUtc : MarkTime → Option Datetime
  | .naive c => some { c with zone := Zone.utc }
  | .aware d => some d
  | .other => none

/-- `_price`. -/
def price : Option PyFloat → Option PyFloat
  | none => none
  | some number => if number.atMost (.fin 0) || number = .nan then none else some number

structure Mark where
  ts : MarkTime
  px : Option PyFloat

def Mark.usable (m : Mark) : Option (Int × PyFloat) :=
  (price m.px).bind fun px => (asUtc m.ts).map fun ts => (ts.instant, px)

def firstSeen (touches : Bool) (ts : Int) (seen : Option Int) : Option Int :=
  if touches && seen = none then some ts else seen

def walkMarks (stop target : Option PyFloat) :
    List (Int × PyFloat) → Option Int → Option Int → Option Int × Option Int
  | [], stopAt, targetAt => (stopAt, targetAt)
  | (ts, px) :: rest, stopAt, targetAt =>
    let stopAt := firstSeen (stop.any fun s => px.atMost s) ts stopAt
    let targetAt := firstSeen (target.any fun t => t.atMost px) ts targetAt
    if stopAt ≠ none ∧ targetAt ≠ none then (stopAt, targetAt)
    else walkMarks stop target rest stopAt targetAt

/-- `price_path`. -/
def pricePath (marks : List Mark) (stop target : Option PyFloat) : String :=
  if stop = none ∧ target = none then PATH_UNOBSERVED
  else
    let ordered := sortedBy (·.1) (marks.filterMap Mark.usable)
    if ordered = [] then PATH_UNOBSERVED
    else
      let at_ := walkMarks stop target ordered none none
      pathOf at_.1 at_.2

/-! ## When a level is reached -/

def Observed (marks : List Mark) : Prop := marks.filterMap Mark.usable ≠ []

instance (marks : List Mark) : Decidable (Observed marks) := inferInstanceAs (Decidable (_ ≠ _))

def firstReached (reaches : PyFloat → Bool) (marks : List Mark) : Option Int :=
  leastKey (·.1) ((marks.filterMap Mark.usable).filter fun m => reaches m.2)

def stopReached (stop : Option PyFloat) : List Mark → Option Int :=
  firstReached fun px => stop.any fun s => px.atMost s

def targetReached (target : Option PyFloat) : List Mark → Option Int :=
  firstReached fun px => target.any fun t => t.atMost px

theorem firstSeen_or (reaches : PyFloat → Bool) (m : Int × PyFloat) (rest : List (Int × PyFloat))
    (seen : Option Int) :
    (firstSeen (reaches m.2) m.1 seen).or ((rest.find? fun m => reaches m.2).map (·.1)) =
      seen.or (((m :: rest).find? fun m => reaches m.2).map (·.1)) := by
  cases hreach : reaches m.2 <;> cases seen <;> simp [firstSeen, hreach]

theorem walkMarks_eq (stop target : Option PyFloat) (ms : List (Int × PyFloat))
    (stopAt targetAt : Option Int) :
    walkMarks stop target ms stopAt targetAt =
      (stopAt.or ((ms.find? fun m => stop.any fun s => m.2.atMost s).map (·.1)),
        targetAt.or ((ms.find? fun m => target.any fun t => t.atMost m.2).map (·.1))) := by
  induction ms generalizing stopAt targetAt with
  | nil => simp [walkMarks]
  | cons m rest ih =>
    have hstop := firstSeen_or (fun px => stop.any fun s => px.atMost s) m rest stopAt
    have htarget := firstSeen_or (fun px => target.any fun t => t.atMost px) m rest targetAt
    rw [walkMarks]
    split
    · rename_i hboth
      obtain ⟨s, hs⟩ := Option.ne_none_iff_exists'.mp hboth.1
      obtain ⟨t, ht⟩ := Option.ne_none_iff_exists'.mp hboth.2
      rw [← hstop, ← htarget, hs, ht, Option.some_or, Option.some_or]
    · rw [ih, hstop, htarget]

theorem pricePath_eq (marks : List Mark) {stop target : Option PyFloat}
    (hlevels : ¬(stop = none ∧ target = none)) :
    pricePath marks stop target =
      if Observed marks then pathOf (stopReached stop marks) (targetReached target marks)
      else PATH_UNOBSERVED := by
  have hempty : sortedBy Prod.fst (marks.filterMap Mark.usable) = [] ↔ ¬Observed marks := by
    rw [Observed, not_not]
    constructor
    · intro h
      exact (h ▸ sortedBy_perm Prod.fst (marks.filterMap Mark.usable)).symm.eq_nil
    · intro h
      rw [h]
      rfl
  rw [pricePath, if_neg hlevels]
  extract_lets ordered reached
  by_cases hobserved : Observed marks
  · rw [if_neg fun h => hempty.mp h hobserved, if_pos hobserved]
    show pathOf (walkMarks stop target ordered none none).1 (walkMarks stop target ordered none none).2 = _
    rw [walkMarks_eq, Option.none_or, Option.none_or, find?_sortedBy, find?_sortedBy]
    rfl
  · rw [if_pos (hempty.mpr hobserved), if_neg hobserved]

theorem pathOf_targetFirst {stopAt targetAt : Option Int} (h : pathOf stopAt targetAt = "target_first") :
    ∃ s t, stopAt = some s ∧ targetAt = some t ∧ t < s := by
  cases stopAt with
  | none => cases targetAt <;> simp [pathOf] at h
  | some s =>
    cases targetAt with
    | none => simp [pathOf] at h
    | some t =>
      refine ⟨s, t, rfl, rfl, ?_⟩
      by_contra hlate
      rw [pathOf, if_neg hlate] at h
      split at h <;> simp at h

/-! ## More marks -/

section More

variable {marks marks' extra : List Mark} {reaches : PyFloat → Bool}

theorem mem_usable_of_perm (h : List.Perm marks' marks) (u : Int × PyFloat) :
    u ∈ marks'.filterMap Mark.usable ↔ u ∈ marks.filterMap Mark.usable :=
  (h.filterMap Mark.usable).mem_iff

theorem Observed.iff_of_perm (h : List.Perm marks' marks) : Observed marks' ↔ Observed marks := by
  have hperm := h.filterMap Mark.usable
  rw [Observed, Observed, not_iff_not]
  constructor
  · intro hnil
    exact (hnil ▸ hperm).symm.eq_nil
  · intro hnil
    exact (hnil ▸ hperm).eq_nil

theorem Observed.append_iff : Observed (extra ++ marks) ↔ Observed extra ∨ Observed marks := by
  rw [Observed, Observed, Observed, List.filterMap_append, Ne, List.append_eq_nil_iff, not_and_or]

theorem firstReached_perm (h : List.Perm marks' marks) :
    firstReached reaches marks' = firstReached reaches marks :=
  leastKey_congr fun u => by rw [List.mem_filter, List.mem_filter, mem_usable_of_perm h]

theorem firstReached_append_of_none
    (h : ∀ u ∈ extra.filterMap Mark.usable, reaches u.2 = false) :
    firstReached reaches (extra ++ marks) = firstReached reaches marks := by
  have hnone : (extra.filterMap Mark.usable).filter (fun u => reaches u.2) = [] :=
    List.filter_eq_nil_iff.mpr fun u hu hreach => by simp [h u hu] at hreach
  rw [firstReached, List.filterMap_append, List.filter_append, hnone, List.nil_append]
  rfl

theorem firstReached_append_of_later {at_ : Int} (h : firstReached reaches marks = some at_)
    (hlater : ∀ u ∈ extra.filterMap Mark.usable, at_ ≤ u.1) :
    firstReached reaches (extra ++ marks) = some at_ := by
  rw [firstReached, List.filterMap_append, List.filter_append]
  exact leastKey_append_of_le h fun u hu => hlater u (List.mem_filter.mp hu).1

theorem Observed.of_firstReached {at_ : Int} (h : firstReached reaches marks = some at_) : Observed marks := by
  obtain ⟨⟨u, hu, -⟩, -⟩ := leastKey_eq_some_iff.mp h
  exact List.ne_nil_of_mem (List.mem_filter.mp hu).1

end More

theorem pricePath_congr {marks marks' : List Mark} {stop target : PyFloat}
    (hobserved : Observed marks' ↔ Observed marks)
    (hstop : stopReached (some stop) marks' = stopReached (some stop) marks)
    (htarget : targetReached (some target) marks' = targetReached (some target) marks) :
    pricePath marks' (some stop) (some target) = pricePath marks (some stop) (some target) := by
  have hlevels : ¬(some stop = none ∧ some target = none) := fun h => Option.some_ne_none stop h.1
  rw [pricePath_eq _ hlevels, pricePath_eq _ hlevels, hstop, htarget]
  simp only [hobserved]

/-- **The order of the marks is of no effect**, nor are marks between the levels or after both, once there
is a usable mark; and no target comes first of a stop that was reached no later. -/
theorem pricePath_of_marks (marks : List Mark) (stop target : PyFloat) :
    (∀ marks', (Observed marks' ↔ Observed marks) →
      stopReached (some stop) marks' = stopReached (some stop) marks →
      targetReached (some target) marks' = targetReached (some target) marks →
      pricePath marks' (some stop) (some target) = pricePath marks (some stop) (some target)) ∧
    (∀ marks', List.Perm marks' marks →
      pricePath marks' (some stop) (some target) = pricePath marks (some stop) (some target)) ∧
    (∀ extra marks', List.Perm marks' (extra ++ marks) → (Observed extra → Observed marks) →
      (∀ u ∈ extra.filterMap Mark.usable, stop.below u.2 ∧ u.2.below target) →
      pricePath marks' (some stop) (some target) = pricePath marks (some stop) (some target)) ∧
    (∀ extra marks' stopAt targetAt, List.Perm marks' (extra ++ marks) →
      stopReached (some stop) marks = some stopAt → targetReached (some target) marks = some targetAt →
      (∀ u ∈ extra.filterMap Mark.usable, stopAt ≤ u.1 ∧ targetAt ≤ u.1) →
      pricePath marks' (some stop) (some target) = pricePath marks (some stop) (some target)) ∧
    ((∃ u ∈ marks.filterMap Mark.usable, u.2.atMost stop ∧
        ∀ u' ∈ marks.filterMap Mark.usable, target.atMost u'.2 → u.1 ≤ u'.1) →
      pricePath marks (some stop) (some target) ≠ "target_first") := by
  refine ⟨fun marks' => pricePath_congr, ?_, ?_, ?_, ?_⟩
  · intro marks' hperm
    exact pricePath_congr (Observed.iff_of_perm hperm) (firstReached_perm hperm) (firstReached_perm hperm)
  · intro extra marks' hperm hkept hbetween
    refine pricePath_congr ?_ ?_ ?_
    · rw [Observed.iff_of_perm hperm, Observed.append_iff]
      exact or_iff_right_of_imp hkept
    · exact (firstReached_perm hperm).trans (firstReached_append_of_none fun u hu =>
        PyFloat.not_atMost_of_below (hbetween u hu).1)
    · exact (firstReached_perm hperm).trans (firstReached_append_of_none fun u hu =>
        PyFloat.not_atMost_of_below (hbetween u hu).2)
  · intro extra marks' stopAt targetAt hperm hstop htarget hlater
    refine pricePath_congr ?_ ?_ ?_
    · rw [Observed.iff_of_perm hperm, Observed.append_iff]
      exact or_iff_right_of_imp fun _ => Observed.of_firstReached hstop
    · rw [hstop]
      exact (firstReached_perm hperm).trans
        (firstReached_append_of_later hstop fun u hu => (hlater u hu).1)
    · rw [htarget]
      exact (firstReached_perm hperm).trans
        (firstReached_append_of_later htarget fun u hu => (hlater u hu).2)
  · intro hfirst hpath
    obtain ⟨u, hu, hstop, hbefore⟩ := hfirst
    have hlevels : ¬(some stop = none ∧ some target = none) := fun h => Option.some_ne_none stop h.1
    have hobserved : Observed marks := List.ne_nil_of_mem hu
    rw [pricePath_eq _ hlevels, if_pos hobserved] at hpath
    obtain ⟨s, t, hs, ht, hlt⟩ := pathOf_targetFirst hpath
    -- the stop was reached no later than at `u`, and the target no sooner
    have hsu : s ≤ u.1 := (leastKey_eq_some_iff.mp hs).2 u (List.mem_filter.mpr ⟨hu, hstop⟩)
    obtain ⟨⟨u', hu', rfl⟩, -⟩ := leastKey_eq_some_iff.mp ht
    obtain ⟨hu', htarget⟩ := List.mem_filter.mp hu'
    have hut := hbefore u' hu' htarget
    omega

/-- A first mark between the levels is seen: before it nothing was, after it no level was reached. -/
theorem first_mark_is_seen : ¬∀ (marks extra : List Mark) (stop target : PyFloat), stop.below target →
    (∀ u ∈ extra.filterMap Mark.usable, stop.below u.2 ∧ u.2.below target) →
    pricePath (extra ++ marks) (some stop) (some target) = pricePath marks (some stop) (some target) := by
  intro h
  have hsame := h []
    [{ ts := .naive ⟨2026, 10, 1, 1, 0, 0, 0, by decide⟩, px := some (.fin 100) }]
    (.fin 99) (.fin 101) (by decide +kernel) (by decide +kernel)
  have hdiffer : ¬pricePath [{ ts := .naive ⟨2026, 10, 1, 1, 0, 0, 0, by decide⟩, px := some (.fin 100) }]
      (some (.fin 99)) (some (.fin 101)) = pricePath [] (some (.fin 99)) (some (.fin 101)) := by
    decide +kernel
  exact hdiffer hsame

/-! ## The marks of a lifecycle -/

end Investor.Performance.Marks
