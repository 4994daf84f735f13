import Investor.Lib.Run
import Mathlib.Data.Rat.Floor

/-!
# Method trials

A trial is the technique at entry and the result at exit. The exit is observed one or more times,
and each observation is merged into what the row holds (`merge_exit`): the first one closes the
trial, and a later one fills in what is still unknown. What is known is kept (`Kept`), the last
observation says nothing new (`mergeExit_again`), and a trial counts for its method exactly if it
was captured at its open, executed faithfully, and has a result (`mergeExit_sound`).
-/

namespace Investor.Performance

open Lib

/-! ## Rows -/

structure ExitJudgment where
  executionVerdict : Option String := none
  cause : Option String := none
  strategyVerdict : Option String := none
  intendedOrderType : Option String := none
  brokerOrderType : Option String := none
  deriving DecidableEq

structure ExitFacts where
  grossPnl : Option ℚ := none
  fee : Option ℚ := none
  feesKnown : Bool := false
  exitPrice : Option ℚ := none
  closedAt : Option Int := none
  holdingMinutes : Option ℚ := none
  path : Option String := none
  judgment : ExitJudgment := {}
  deriving DecidableEq

/-- `_exit_state`: the columns of a `MethodTrial` that its exit reads and writes. -/
@[ext]
structure ExitState extends ExitFacts where
  status : String
  entryCapturedAtOpen : Bool
  countsForMethod : Bool
  deriving DecidableEq

def PATH_UNOBSERVED : String := "unobserved"

/-- `counts_for_method`. -/
def countsForMethod (entryCapturedAtOpen : Bool) (executionVerdict : Option String)
    (grossPnl : Option ℚ) : Bool :=
  entryCapturedAtOpen && executionVerdict = some "faithful" && grossPnl.isSome

/-! ## Merging -/

def fillMissing {α : Type} (first : Bool) (current observed : Option α) : Option α :=
  if first || current.isNone then observed.or current else current

def isKnown (unknown : String) (text : Option String) : Bool := text.getD "" ∉ ["", unknown]

/-- What comes with a text is taken the first time, and while the text is not known. -/
def fillUnknown {α : Type} (first : Bool) (unknown : String) (text : α → Option String)
    (current observed : α) : α :=
  if (first || !isKnown unknown (text current)) && isKnown "" (text observed) then observed
  else current

/-- `merge_exit`. -/
def mergeExit (current : ExitState) (observed : ExitFacts) : ExitState :=
  let first := current.status ≠ "closed"
  let fees := observed.feesKnown && !current.feesKnown
  let grossPnl := fillMissing first current.grossPnl observed.grossPnl
  let judgment := fillUnknown first "unknown" (·.executionVerdict) current.judgment observed.judgment
  { grossPnl
    feesKnown := if fees then true else current.feesKnown
    fee := if fees then observed.fee else current.fee
    closedAt := fillMissing first current.closedAt observed.closedAt
    holdingMinutes := fillMissing first current.holdingMinutes observed.holdingMinutes
    exitPrice := fillMissing first current.exitPrice observed.exitPrice
    path := fillUnknown first PATH_UNOBSERVED id current.path observed.path
    judgment
    status := "closed"
    entryCapturedAtOpen := current.entryCapturedAtOpen
    countsForMethod := current.countsForMethod ||
      countsForMethod current.entryCapturedAtOpen judgment.executionVerdict grossPnl }

section Fills

variable {α : Type} {first : Bool}

theorem fillMissing_some {x : α} (observed : Option α) :
    fillMissing false (some x) observed = some x := rfl

theorem fillMissing_again (current observed : Option α) :
    fillMissing false (fillMissing first current observed) observed =
      fillMissing first current observed := by
  cases first <;> cases current <;> cases observed <;> rfl

variable {unknown : String} {text : α → Option String} {current : α}

theorem fillUnknown_known (h : isKnown unknown (text current) = true) (observed : α) :
    fillUnknown false unknown text current observed = current := by
  simp [fillUnknown, h]

theorem fillUnknown_again (observed : α) :
    fillUnknown false unknown text (fillUnknown first unknown text current observed) observed =
      fillUnknown first unknown text current observed := by
  cases hobserved : isKnown "" (text observed) with
  | false => simp [fillUnknown, hobserved]
  | true =>
    cases hcurrent : isKnown unknown (text current) with
    | false => simp [fillUnknown, hobserved, hcurrent]
    | true =>
      cases first with
      | false => simp [fillUnknown, hcurrent]
      | true => simp [fillUnknown, hobserved]

end Fills

/-! ## What a merge keeps -/

/-- What is known of an exit stays as it is. -/
structure Kept (s t : ExitState) : Prop where
  grossPnl : ∀ x, s.grossPnl = some x → t.grossPnl = some x
  exitPrice : ∀ x, s.exitPrice = some x → t.exitPrice = some x
  closedAt : ∀ x, s.closedAt = some x → t.closedAt = some x
  path : isKnown PATH_UNOBSERVED s.path = true → t.path = s.path
  judgment : isKnown "unknown" s.judgment.executionVerdict = true → t.judgment = s.judgment

theorem Kept.refl (s : ExitState) : Kept s s :=
  ⟨fun _ h => h, fun _ h => h, fun _ h => h, fun _ => rfl, fun _ => rfl⟩

variable {s : ExitState}

theorem Kept.trans {t u : ExitState} (h : Kept s t) (h' : Kept t u) : Kept s u where
  grossPnl x hx := h'.grossPnl x (h.grossPnl x hx)
  exitPrice x hx := h'.exitPrice x (h.exitPrice x hx)
  closedAt x hx := h'.closedAt x (h.closedAt x hx)
  path hp := (h'.path (by rw [h.path hp]; exact hp)).trans (h.path hp)
  judgment hj := (h'.judgment (by rw [h.judgment hj]; exact hj)).trans (h.judgment hj)

structure ExitState.IsOpen (s : ExitState) : Prop where
  status : s.status ≠ "closed"
  grossPnl : s.grossPnl = none
  exitPrice : s.exitPrice = none
  closedAt : s.closedAt = none
  path : isKnown PATH_UNOBSERVED s.path = false
  judgment : isKnown "unknown" s.judgment.executionVerdict = false
  countsForMethod : s.countsForMethod = false

/-- The row that `open_method_trial` inserts. -/
def openedTrial (capturedAtOpen : Bool) : ExitState :=
  { status := "open", entryCapturedAtOpen := capturedAtOpen, countsForMethod := false }

theorem openedTrial_isOpen (capturedAtOpen : Bool) : (openedTrial capturedAtOpen).IsOpen := by
  refine ⟨?_, rfl, rfl, rfl, rfl, rfl, rfl⟩
  simp [openedTrial]

/-- The invariant: the trial is open, or it is closed and counts as it should. -/
structure ExitState.Consistent (s : ExitState) : Prop where
  openOrClosed : s.status = "closed" ∨ s.IsOpen
  counts : s.countsForMethod = true ↔ s.entryCapturedAtOpen = true ∧
    s.judgment.executionVerdict = some "faithful" ∧ s.grossPnl.isSome = true

theorem ExitState.IsOpen.consistent (h : s.IsOpen) : s.Consistent := by
  refine ⟨Or.inr h, ?_⟩
  rw [h.countsForMethod, h.grossPnl]
  simp

theorem countsForMethod_iff {captured : Bool} {verdict : Option String} {gross : Option ℚ} :
    countsForMethod captured verdict gross = true ↔
      captured = true ∧ verdict = some "faithful" ∧ gross.isSome = true := by
  simp [countsForMethod, and_assoc]

theorem kept_mergeExit (h : s.status = "closed" ∨ s.IsOpen) (o : ExitFacts) :
    Kept s (mergeExit s o) := by
  rcases h with hclosed | hopen
  · have hfirst : decide (s.status ≠ "closed") = false := by simp [hclosed]
    refine ⟨fun x hx => ?_, fun x hx => ?_, fun x hx => ?_, fun hp => ?_, fun hj => ?_⟩
    · show fillMissing (decide (s.status ≠ "closed")) s.grossPnl o.grossPnl = some x
      rw [hfirst, hx, fillMissing_some]
    · show fillMissing (decide (s.status ≠ "closed")) s.exitPrice o.exitPrice = some x
      rw [hfirst, hx, fillMissing_some]
    · show fillMissing (decide (s.status ≠ "closed")) s.closedAt o.closedAt = some x
      rw [hfirst, hx, fillMissing_some]
    · show fillUnknown (decide (s.status ≠ "closed")) PATH_UNOBSERVED id s.path o.path = s.path
      have hpath : isKnown PATH_UNOBSERVED (id s.path) = true := hp
      rw [hfirst]
      exact fillUnknown_known hpath o.path
    · show fillUnknown (decide (s.status ≠ "closed")) "unknown" (·.executionVerdict) s.judgment
        o.judgment = s.judgment
      rw [hfirst]
      exact fillUnknown_known hj o.judgment
  · refine ⟨fun x hx => ?_, fun x hx => ?_, fun x hx => ?_, fun hp => ?_, fun hj => ?_⟩
    · rw [hopen.grossPnl] at hx
      cases hx
    · rw [hopen.exitPrice] at hx
      cases hx
    · rw [hopen.closedAt] at hx
      cases hx
    · rw [hopen.path] at hp
      cases hp
    · rw [hopen.judgment] at hj
      cases hj

theorem mergeExit_again (s : ExitState) (o : ExitFacts) :
    mergeExit (mergeExit s o) o = mergeExit s o := by
  have hfees : (o.feesKnown && !(mergeExit s o).feesKnown) = false := by
    cases ho : o.feesKnown <;> cases hs : s.feesKnown <;> simp [mergeExit, ho, hs]
  ext1
  · exact fillMissing_again s.grossPnl o.grossPnl
  · show (if o.feesKnown && !(mergeExit s o).feesKnown then _ else _) = _
    rw [hfees]
    rfl
  · show (if o.feesKnown && !(mergeExit s o).feesKnown then _ else _) = _
    rw [hfees]
    rfl
  · exact fillMissing_again s.exitPrice o.exitPrice
  · exact fillMissing_again s.closedAt o.closedAt
  · exact fillMissing_again s.holdingMinutes o.holdingMinutes
  · exact fillUnknown_again o.path
  · exact fillUnknown_again o.judgment
  · rfl
  · rfl
  · have hgross : (mergeExit (mergeExit s o) o).grossPnl = (mergeExit s o).grossPnl :=
      fillMissing_again s.grossPnl o.grossPnl
    have hjudgment : (mergeExit (mergeExit s o) o).judgment = (mergeExit s o).judgment :=
      fillUnknown_again o.judgment
    show ((mergeExit s o).countsForMethod || countsForMethod s.entryCapturedAtOpen
      (mergeExit (mergeExit s o) o).judgment.executionVerdict
      (mergeExit (mergeExit s o) o).grossPnl) = (mergeExit s o).countsForMethod
    have hcounts : (mergeExit s o).countsForMethod = (s.countsForMethod ||
      countsForMethod s.entryCapturedAtOpen (mergeExit s o).judgment.executionVerdict
        (mergeExit s o).grossPnl) := rfl
    rw [hgross, hjudgment, hcounts, Bool.or_assoc, Bool.or_self]

theorem mergeExit_consistent (h : s.Consistent) (o : ExitFacts) : (mergeExit s o).Consistent := by
  refine ⟨Or.inl rfl, ?_⟩
  have hkept := kept_mergeExit h.openOrClosed o
  have hcounts : (mergeExit s o).countsForMethod = (s.countsForMethod ||
    countsForMethod s.entryCapturedAtOpen (mergeExit s o).judgment.executionVerdict
      (mergeExit s o).grossPnl) := rfl
  rw [hcounts, Bool.or_eq_true, countsForMethod_iff]
  refine ⟨fun hor => hor.elim (fun hbefore => ?_) id, Or.inr⟩
  -- what counted before is known, so it counts as it did
  obtain ⟨hcaptured, hverdict, hgross⟩ := h.counts.mp hbefore
  obtain ⟨x, hx⟩ := Option.isSome_iff_exists.mp hgross
  have hfaithful : isKnown "unknown" s.judgment.executionVerdict = true := by
    rw [hverdict]
    rfl
  refine ⟨hcaptured, ?_, ?_⟩
  · rw [hkept.judgment hfaithful]
    exact hverdict
  · rw [hkept.grossPnl x hx]
    rfl

/-! ## All observations of an exit -/

theorem consistent_run (h : s.Consistent) (observed : List ExitFacts) :
    (runFrom mergeExit s observed).Consistent :=
  @run_invariant _ _ mergeExit ExitState.Consistent (fun _ o hs => mergeExit_consistent hs o) _ _ h

theorem kept_run (h : s.Consistent) (observed : List ExitFacts) :
    Kept s (runFrom mergeExit s observed) := by
  induction observed generalizing s with
  | nil => exact Kept.refl s
  | cons o observed ih =>
    exact (kept_mergeExit h.openOrClosed o).trans (ih (mergeExit_consistent h o))

theorem mergeExit_captured (s : ExitState) (observed : List ExitFacts) :
    (runFrom mergeExit s observed).entryCapturedAtOpen = s.entryCapturedAtOpen := by
  induction observed generalizing s with
  | nil => rfl
  | cons o observed ih => exact ih (mergeExit s o)

/-- **After any observations of the exit of an open trial**, what is known stays through all that come
    later, the last one merged again changes nothing, and the trial counts for its method exactly if it
    was captured at its open, executed faithfully, and has a result. -/
theorem mergeExit_sound {s : ExitState} (h : s.IsOpen) (done later : List ExitFacts) :
    let t := runFrom mergeExit s done
    Kept t (runFrom mergeExit t later) ∧
      (∀ o, done.getLast? = some o → mergeExit t o = t) ∧
      (t.countsForMethod = true ↔ s.entryCapturedAtOpen = true ∧
        t.judgment.executionVerdict = some "faithful" ∧ t.grossPnl.isSome = true) := by
  intro t
  have hconsistent : t.Consistent := consistent_run h.consistent done
  refine ⟨kept_run hconsistent later, fun o hlast => ?_, ?_⟩
  · obtain ⟨before, rfl⟩ := List.getLast?_eq_some_iff.mp hlast
    show mergeExit (runFrom mergeExit s (before ++ [o])) o = runFrom mergeExit s (before ++ [o])
    rw [runFrom_concat]
    exact mergeExit_again _ o
  · rw [hconsistent.counts]
    show (runFrom mergeExit s done).entryCapturedAtOpen = true ∧ _ ↔ _
    rw [mergeExit_captured]

/-- A part of the position is sold, then the rest: the first result is kept. -/
theorem mergeExit_sound_two :
    let partly : ExitFacts := { grossPnl := some 40, path := some "unobserved",
                                judgment := { executionVerdict := some "faithful" } }
    let whole : ExitFacts := { grossPnl := some 90, path := some "target_only",
                               judgment := { executionVerdict := some "broken" } }
    let t := runFrom mergeExit (openedTrial true) [partly]
    Kept t (runFrom mergeExit t [whole]) ∧ (∀ o, [partly].getLast? = some o → mergeExit t o = t) ∧
      (t.countsForMethod = true ↔ true = true ∧
        t.judgment.executionVerdict = some "faithful" ∧ t.grossPnl.isSome = true) :=
  mergeExit_sound (openedTrial_isOpen true) _ _

end Investor.Performance
