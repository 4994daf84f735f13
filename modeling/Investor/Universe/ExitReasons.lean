import Investor.Intraday.EventBus
import Investor.Intraday.StampedLevels

/-!
# Why a position is gone

A close that carries no reason is given one by what is left of its row: `infer_exit_reason`
compares the last mark with the stop and the target. The row does not say on which side the
position was held, as its quantity is zero by then, and the side is guessed: a stop below the
entry is a long's. That is so as long as the stop lies where it was set. Once it has been moved to
the entry or beyond, a long is taken for a short and its levels are read the other way round, so
that a stop-out is recorded as a take-profit (`inferExitReason_iff`,
`trailed_stop_out_is_take_profit`).
-/

namespace Investor.Universe

open Lib Intraday

/-! ## The row -/

/-- `PositionLifecycle` once it is closed: the columns an exit reason is read from. -/
structure LeftPosition extends Monitored where
  closedAt : Option Int := none
  metadataJson : Dict Json := []

def EXIT_TAKE_PROFIT : String := "take_profit"
def EXIT_STOP : String := "stop"
def EXIT_GIVEBACK : String := "giveback_exit"
def EXIT_SESSION_FLATTEN : String := "session_flatten"
def EXIT_MAX_HOLDING : String := "max_holding"
def EXIT_UNKNOWN : String := "unknown"
def EXIT_INFERRED_KEY : String := "exit_reason_inferred"

/-! ## What is inferred -/

def guessedSide (lc : LeftPosition) : Option Bool :=
  match lc.averageEntryPrice.filter (· ≠ 0), lc.stopPrice.filter (· ≠ 0), lc.takeProfitPrice.filter (· ≠ 0) with
  | some entry, some stop, _ => some (decide (stop < entry))
  | some entry, none, some target => some (decide (entry < target))
  | _, _, _ => none

/-- The target lies at the mark or before it, on the way of profit. -/
def reachesTarget (long : Bool) (mark target : ℚ) : Bool :=
  if long then decide (target ≤ mark) else decide (mark ≤ target)

def reachesStop (long : Bool) (mark stop : ℚ) : Bool :=
  if long then decide (mark ≤ stop) else decide (stop ≤ mark)

def levelReason (lc : LeftPosition) : Option String :=
  match lc.currentPrice, guessedSide lc with
  | some mark, some long =>
    if lc.takeProfitPrice.any fun target => reachesTarget long mark target then some EXIT_TAKE_PROFIT
    else if lc.stopPrice.any fun stop => reachesStop long mark stop then some EXIT_STOP
    else none
  | _, _ => none

def heldFully (lc : LeftPosition) : Bool :=
  (lc.maxHoldingMinutes.filter (· ≠ 0)).any fun cap => lc.openedAt.any fun opened =>
    lc.closedAt.any fun closed => decide ((cap : ℚ) * 60 ≤ (closed - opened : Int) / 1000000)

/-- `infer_exit_reason`. -/
def inferExitReason (lc : LeftPosition) : Option String :=
  (levelReason lc).or (if heldFully lc then some EXIT_MAX_HOLDING else none)

/-! ## What is recorded -/

section Recorded

variable [Casing] (str : Json → String)

/-- `str(meta.get(key) or "")`. -/
def metaText (meta_ : Dict Json) (key : String) : String :=
  if (Dict.at meta_ key).truthy then valueText str (Dict.at meta_ key) else ""

def CANONICAL_EXITS : List String :=
  [EXIT_TAKE_PROFIT, EXIT_STOP, EXIT_GIVEBACK, EXIT_SESSION_FLATTEN, EXIT_MAX_HOLDING]

def draftReason (meta_ : Dict Json) : String :=
  match Dict.at meta_ "exit_draft" with
  | .obj draft => metaText str draft "reason"
  | _ => ""

def reasonNamed (blob : String) : String :=
  if hasPart blob "giveback" then EXIT_GIVEBACK
  else if hasPart blob "take_profit" then EXIT_TAKE_PROFIT
  else if hasPart blob "hard_stop" || hasPart blob "stop_triggered" || hasPart blob "protection_stop" then
    EXIT_STOP
  else if hasPart blob "force_close" || hasPart blob "closing:" || hasPart blob "intraday-only" ||
      hasPart blob "session_flatten" then
    EXIT_SESSION_FLATTEN
  else if hasPart blob "max_holding" then EXIT_MAX_HOLDING
  else EXIT_UNKNOWN

/-- `classify_exit_reason`; the horizon it is given is not read. -/
def classifyExitReason (thesis reason : Option String) (meta_ : Dict Json) : String :=
  let existing := Casing.lower (strip (metaText str meta_ "exit_reason"))
  let given := Casing.lower (strip (reason.getD ""))
  if existing ∈ CANONICAL_EXITS then existing
  else if given ∈ CANONICAL_EXITS then given
  else
    reasonNamed (Casing.lower (" ".intercalate
      [reason.getD "", thesis.getD "", draftReason str meta_, metaText str meta_ "exit_reason",
        metaText str meta_ "closed_by"]))

/-- `stamp_lifecycle_exit_reason`: the reason it returns, and the metadata it writes. -/
def stampLifecycleExitReason (raw thesis : Option String) (lc : LeftPosition) : String × Dict Json :=
  let existing := metaText str lc.metadataJson "exit_reason"
  if existing ≠ "" ∧ existing ≠ EXIT_UNKNOWN then (existing, lc.metadataJson)
  else
    let classified := classifyExitReason str thesis raw lc.metadataJson
    let noteRaw (meta_ : Dict Json) : Dict Json :=
      match raw.filter (· ≠ "") with
      | some text =>
        if (Dict.at meta_ "exit_reason_raw").truthy then meta_
        else Dict.set meta_ "exit_reason_raw" (.str text)
      | none => meta_
    if classified = EXIT_UNKNOWN then
      match inferExitReason lc with
      | some inferred =>
        (inferred, noteRaw (Dict.set (Dict.set lc.metadataJson EXIT_INFERRED_KEY (.bool true))
          "exit_reason" (.str inferred)))
      | none =>
        if existing ≠ "" then (existing, lc.metadataJson)
        else (classified, noteRaw (Dict.set lc.metadataJson "exit_reason" (.str classified)))
    else (classified, noteRaw (Dict.set lc.metadataJson "exit_reason" (.str classified)))

def SaysNothing (raw thesis : Option String) (lc : LeftPosition) : Prop :=
  metaText str lc.metadataJson "exit_reason" ∈ ["", EXIT_UNKNOWN] ∧
    classifyExitReason str thesis raw lc.metadataJson = EXIT_UNKNOWN

end Recorded

/-! ## What a reason claims -/

/-- A take-profit has the mark at the target or beyond it, and a stop at the stop or through it. -/
structure Warranted (long : Bool) (lc : LeftPosition) (reason : Option String) : Prop where
  target : reason = some EXIT_TAKE_PROFIT →
    ∃ mark target, lc.currentPrice = some mark ∧ lc.takeProfitPrice = some target ∧
      reachesTarget long mark target
  stop : reason = some EXIT_STOP →
    ∃ mark stop, lc.currentPrice = some mark ∧ lc.stopPrice = some stop ∧ reachesStop long mark stop

section Inferred

variable {lc : LeftPosition} {long : Bool} {entry stop target : ℚ}

theorem warranted_of_other {reason : Option String} (htarget : reason ≠ some EXIT_TAKE_PROFIT)
    (hstop : reason ≠ some EXIT_STOP) : Warranted long lc reason :=
  ⟨fun h => absurd h htarget, fun h => absurd h hstop⟩

theorem warranted_infer_iff : Warranted long lc (inferExitReason lc) ↔ Warranted long lc (levelReason lc) := by
  cases hlevel : levelReason lc with
  | some reason => rw [inferExitReason, hlevel, Option.some_or]
  | none =>
    have hnone : Warranted long lc none := warranted_of_other (by simp) (by simp)
    have hheld : Warranted long lc (inferExitReason lc) := by
      rw [inferExitReason, hlevel, Option.none_or]
      split
      · exact warranted_of_other (by decide) (by decide)
      · exact hnone
    exact ⟨fun _ => hnone, fun _ => hheld⟩

theorem warranted_of_no_side (h : guessedSide lc = none) : Warranted long lc (levelReason lc) := by
  have hnone : levelReason lc = none := by
    unfold levelReason
    rw [h]
    cases lc.currentPrice <;> rfl
  rw [hnone]
  exact warranted_of_other (by simp) (by simp)

theorem warranted_of_side (h : guessedSide lc = some long) : Warranted long lc (levelReason lc) := by
  unfold levelReason
  rw [h]
  cases hmark : lc.currentPrice with
  | none => exact warranted_of_other (by simp) (by simp)
  | some mark =>
    dsimp only
    split
    · rename_i hreach
      obtain ⟨target, htarget, hreach⟩ := (Option.any_eq_true _ _).mp hreach
      exact ⟨fun _ => ⟨mark, target, hmark, htarget, hreach⟩, fun hstop => absurd hstop (by decide)⟩
    · split
      · rename_i hreach
        obtain ⟨stop, hstop, hreach⟩ := (Option.any_eq_true _ _).mp hreach
        exact ⟨fun htarget => absurd htarget (by decide), fun _ => ⟨mark, stop, hmark, hstop, hreach⟩⟩
      · exact warranted_of_other (by simp) (by simp)

theorem warranted_of_wrong_side (h : guessedSide lc = some (!long)) (hs : lc.stopPrice = some stop)
    (ht : lc.takeProfitPrice = some target) (hbetween : if long then stop ≤ target else target ≤ stop) :
    Warranted long lc (levelReason lc) ↔ lc.currentPrice = none ∨ lc.currentPrice = some target := by
  unfold levelReason
  rw [h, hs, ht]
  cases hmark : lc.currentPrice with
  | none =>
    have hnone : Warranted long lc none := warranted_of_other (by simp) (by simp)
    simpa using hnone
  | some mark =>
    simp only [Option.any_some, reduceCtorEq, false_or, Option.some.injEq]
    by_cases hreach : reachesTarget (!long) mark target = true
    · rw [if_pos hreach]
      constructor
      · intro hwarranted
        obtain ⟨mark', target', hmark', htarget', htrue⟩ := hwarranted.target rfl
        rw [hmark] at hmark'
        rw [ht] at htarget'
        cases hmark'
        cases htarget'
        cases long with
        | true => exact le_antisymm (by simpa [reachesTarget] using hreach) (by simpa [reachesTarget] using htrue)
        | false => exact le_antisymm (by simpa [reachesTarget] using htrue) (by simpa [reachesTarget] using hreach)
      · intro hat
        refine ⟨fun _ => ⟨mark, target, hmark, ht, ?_⟩, fun hstop => absurd hstop (by decide)⟩
        rw [hat]
        cases long <;> simp [reachesTarget]
    · -- past the target on the way of profit, so past the stop too
      have hpast : if long then target < mark else mark < target := by
        cases long with
        | true => simpa [reachesTarget] using hreach
        | false => simpa [reachesTarget] using hreach
      have hstopped : reachesStop (!long) mark stop = true := by
        cases long with
        | true => simpa [reachesStop] using hbetween.trans hpast.le
        | false => simpa [reachesStop] using hpast.le.trans hbetween
      rw [if_neg hreach, if_pos hstopped]
      constructor
      · intro hwarranted
        obtain ⟨mark', stop', hmark', hstop', htrue⟩ := hwarranted.stop rfl
        rw [hmark] at hmark'
        rw [hs] at hstop'
        cases hmark'
        cases hstop'
        cases long with
        | true =>
          have hle : mark ≤ stop := by simpa [reachesStop] using htrue
          exact absurd (hle.trans hbetween) (not_le.mpr hpast)
        | false =>
          have hle : stop ≤ mark := by simpa [reachesStop] using htrue
          exact absurd (hbetween.trans hle) (not_le.mpr hpast)
      · intro hat
        rw [hat] at hpast
        cases long <;> exact absurd hpast (lt_irrefl _)

theorem guessedSide_eq (he : lc.averageEntryPrice = some entry) (hs : lc.stopPrice = some stop)
    (ht : lc.takeProfitPrice = some target) (hpos : 0 < entry) :
    guessedSide lc =
      if stop ≠ 0 then some (decide (stop < entry))
      else if target ≠ 0 then some (decide (entry < target))
      else none := by
  unfold guessedSide
  rw [he, hs, ht]
  by_cases hstop : stop = 0
  · by_cases htarget : target = 0
    · simp [hstop, htarget, hpos.ne', Option.filter_some]
    · simp [hstop, htarget, hpos.ne', Option.filter_some]
  · simp [hstop, hpos.ne', Option.filter_some]

theorem warranted_levels_iff (he : lc.averageEntryPrice = some entry) (hs : lc.stopPrice = some stop)
    (ht : lc.takeProfitPrice = some target) (hpos : 0 < entry)
    (hprofit : if long then entry < target else target < entry)
    (hbetween : if long then stop ≤ target else target ≤ stop) :
    Warranted long lc (inferExitReason lc) ↔
      stop = 0 ∨ (if long then stop < entry else entry ≤ stop) ∨
        lc.currentPrice = none ∨ lc.currentPrice = some target := by
  have hside := guessedSide_eq he hs ht hpos
  rw [warranted_infer_iff]
  by_cases hzero : stop = 0
  · refine ⟨fun _ => Or.inl hzero, fun _ => ?_⟩
    rw [if_neg (not_not.mpr hzero)] at hside
    split at hside
    · refine warranted_of_side (hside.trans ?_)
      cases long with
      | true => exact congrArg some (decide_eq_true hprofit)
      | false => exact congrArg some (decide_eq_false (not_lt.mpr hprofit.le))
    · exact warranted_of_no_side hside
  · rw [if_pos hzero] at hside
    by_cases hloss : if long then stop < entry else entry ≤ stop
    · refine ⟨fun _ => Or.inr (Or.inl hloss), fun _ => warranted_of_side (hside.trans ?_)⟩
      cases long with
      | true => exact congrArg some (decide_eq_true hloss)
      | false => exact congrArg some (decide_eq_false (not_lt.mpr hloss))
    · have hwrong : guessedSide lc = some (!long) := by
        refine hside.trans ?_
        cases long with
        | true => exact congrArg some (decide_eq_false hloss)
        | false => exact congrArg some (decide_eq_true (not_le.mp hloss))
      rw [warranted_of_wrong_side hwrong hs ht hbetween]
      simp only [hzero, hloss, false_or]

end Inferred

section Stamped

variable [Casing] {str : Json → String} {raw thesis : Option String} {lc : LeftPosition} {long : Bool}
  {entry stop target : ℚ}

theorem stamp_of_nothing (h : SaysNothing str raw thesis lc) :
    (stampLifecycleExitReason str raw thesis lc).1 = (inferExitReason lc).getD EXIT_UNKNOWN := by
  obtain ⟨hexisting, hclassified⟩ := h
  have hnamed : ¬(metaText str lc.metadataJson "exit_reason" ≠ "" ∧
      metaText str lc.metadataJson "exit_reason" ≠ EXIT_UNKNOWN) := by
    intro hboth
    rcases List.mem_cons.mp hexisting with hempty | hunknown
    · exact hboth.1 hempty
    · exact hboth.2 (List.mem_singleton.mp hunknown)
  unfold stampLifecycleExitReason
  dsimp only
  rw [if_neg hnamed, if_pos hclassified]
  cases inferExitReason lc with
  | some inferred => rfl
  | none =>
    dsimp only
    split
    · rename_i hsome
      exact (List.mem_cons.mp hexisting).elim (fun h => absurd h hsome) List.mem_singleton.mp
    · exact hclassified

theorem warranted_stamp_iff (h : SaysNothing str raw thesis lc) :
    Warranted long lc (some (stampLifecycleExitReason str raw thesis lc).1) ↔
      Warranted long lc (inferExitReason lc) := by
  rw [stamp_of_nothing h]
  cases inferExitReason lc with
  | some inferred => rfl
  | none =>
    exact ⟨fun _ => warranted_of_other (by simp) (by simp),
      fun _ => warranted_of_other (by decide) (by decide)⟩

/-- **When a reason is warranted.** Whatever lies between the levels, what is inferred of a position, and with
it what is recorded of a close that says nothing, is right exactly if the stop still loses (a short's may
stand at the entry) or there is no mark or one at the target. -/
theorem inferExitReason_iff (he : lc.averageEntryPrice = some entry) (hs : lc.stopPrice = some stop)
    (ht : lc.takeProfitPrice = some target) (hpos : 0 < entry)
    (hprofit : if long then entry < target else target < entry)
    (hbetween : if long then stop ≤ target else target ≤ stop) :
    (Warranted long lc (inferExitReason lc) ↔
      stop = 0 ∨ (if long then stop < entry else entry ≤ stop) ∨
        lc.currentPrice = none ∨ lc.currentPrice = some target) ∧
    ∀ (str : Json → String) (raw thesis : Option String), SaysNothing str raw thesis lc →
      (Warranted long lc (some (stampLifecycleExitReason str raw thesis lc).1) ↔
        stop = 0 ∨ (if long then stop < entry else entry ≤ stop) ∨
          lc.currentPrice = none ∨ lc.currentPrice = some target) := by
  have hlevels := warranted_levels_iff he hs ht hpos hprofit hbetween
  exact ⟨hlevels, fun str raw thesis h => (warranted_stamp_iff h).trans hlevels⟩

end Stamped

section Sample

attribute [local instance] asciiCasing

def bhpAtHundred : Monitored :=
  { bareBhp 100 with
    averageEntryPrice := some 100, currentPrice := some 100, stopPrice := some 95
    takeProfitPrice := some 120 }

def bhpStoppedOut : LeftPosition :=
  { observed bhpAtHundred { markedAtSixty with currentPrice := some 112 } with
    quantity := 0, status := .closed, currentPrice := some 99, closedAt := some 0
    metadataJson := [("closed_by", .str "broker_position_sync")] }

/-- **A stop-out at the entry is recorded as a take-profit.** -/
theorem trailed_stop_out_is_take_profit :
    bhpStoppedOut.stopPrice = some 100 ∧
      (stampLifecycleExitReason (fun _ => "") (some "broker_position_sync") none bhpStoppedOut).1 =
        EXIT_TAKE_PROFIT ∧
      ¬∀ (lc : LeftPosition) (long : Bool) (entry stop target : ℚ), lc.averageEntryPrice = some entry →
        lc.stopPrice = some stop → lc.takeProfitPrice = some target → 0 < entry →
        (if long then entry < target else target < entry) →
        (if long then stop ≤ target else target ≤ stop) → Warranted long lc (inferExitReason lc) := by
  have hstop : bhpStoppedOut.stopPrice = some 100 := by decide +kernel
  refine ⟨hstop, by decide +kernel, ?_⟩
  intro h
  have hwarranted := h bhpStoppedOut true 100 100 120 (by decide +kernel) hstop (by decide +kernel)
    (by decide) (by decide) (by decide)
  obtain ⟨mark, target, hmark, htarget, hreach⟩ := hwarranted.target (by decide +kernel)
  have hmark99 : bhpStoppedOut.currentPrice = some 99 := rfl
  have htarget120 : bhpStoppedOut.takeProfitPrice = some 120 := by decide +kernel
  rw [hmark99] at hmark
  rw [htarget120] at htarget
  cases hmark
  cases htarget
  revert hreach
  decide +kernel

/-- With its stop where it was set, the same close is a stop. -/
theorem stopped_out_below_entry :
    Warranted true { bhpStoppedOut with stopPrice := some 95, currentPrice := some 94 }
      (inferExitReason { bhpStoppedOut with stopPrice := some 95, currentPrice := some 94 }) :=
  (@inferExitReason_iff _ _ true 100 95 120 (by decide +kernel) rfl (by decide +kernel) (by decide)
    (by decide) (by decide)).1.mpr (Or.inr (Or.inl (by decide)))

end Sample

end Investor.Universe
