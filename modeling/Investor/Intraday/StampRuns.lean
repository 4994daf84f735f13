import Investor.Intraday.CloseStamp
import Investor.Intraday.EventBus

/-!
# Stamps one after another

`stamp_lifecycle_close_pnl` rewrites a few entries of the metadata and leaves the others as they
are. What `lifecycle_pnl` reads is rewritten by every call, so after any calls it is what the last
one said. The time of the close and where it comes from are written by the calls that have a fill
time only, both or none: they are those of the last such call, and what they were before if there
was none.
-/

namespace Investor.Intraday

open Lib Universe

/-! ## A call and its reader -/

/-- The arguments of `stamp_lifecycle_close_pnl`. -/
structure StampArgs where
  realized : Option ℚ := none
  filledAt : Option Int := none
  basis : Option String := none

/-- `realized is not None and basis in {"fill", "fill_gross"}`; without these nothing of the
    arguments is used. -/
def StampArgs.close (a : StampArgs) : Option FillClose :=
  a.realized.bind fun realized =>
    if a.basis = some "fill" then some { realized, filledAt := a.filledAt, basis := .fill }
    else if a.basis = some "fill_gross" then
      some { realized, filledAt := a.filledAt, basis := .fillGross }
    else none

def stampCall (r : ClosingLifecycle) (a : StampArgs) : ClosingLifecycle :=
  stampLifecycleClosePnl a.close r

/-- `lifecycle_pnl`, where `realized_pl` is never missing. -/
def lifecyclePnl (str : Json → String) (r : ClosingLifecycle) : Option ℚ :=
  let pnlBasis := Dict.at r.metadataJson "pnl_basis"
  let basis := if pnlBasis.truthy then valueText str pnlBasis else ""
  if (Dict.at r.metadataJson "pnl_unavailable").truthy then none
  else if basis = "mark" then none
  else if |r.realizedPl| ≤ 1 / 10 ^ 9 ∧ basis ∉ ["fill", "fill_gross"] then none
  else some r.realizedPl

/-! ## One call -/

section Stamp

variable {r : ClosingLifecycle} {close : Option FillClose} {str : Json → String}

def noted (r : ClosingLifecycle) (key : String) : Option Json := Dict.get? r.metadataJson key

theorem noted_pnlBasis (close : Option FillClose) (r : ClosingLifecycle) :
    noted (stampLifecycleClosePnl close r) "pnl_basis" = close.map fun c => .str c.basis.value := by
  cases close with
  | none => exact Dict.get?_erase_self _ _
  | some c =>
    obtain ⟨realized, filledAt, basis⟩ := c
    cases filledAt <;> cases basis <;> simp [noted, stampLifecycleClosePnl, Dict.get?_set]

theorem noted_pnlUnavailable (close : Option FillClose) (r : ClosingLifecycle) :
    noted (stampLifecycleClosePnl close r) "pnl_unavailable" =
      if close.isSome then none else some (.str "no_fill") := by
  cases close with
  | none =>
    show Dict.get? (Dict.erase _ "pnl_basis") "pnl_unavailable" = _
    rw [Dict.get?_erase_of_ne _ (by decide), Dict.get?_set_self]
    rfl
  | some c =>
    obtain ⟨realized, filledAt, basis⟩ := c
    cases filledAt <;> cases basis <;>
      simp [noted, stampLifecycleClosePnl, Dict.get?_set, Dict.get?_erase_self]

theorem noted_feesUnrecorded (close : Option FillClose) (r : ClosingLifecycle) :
    noted (stampLifecycleClosePnl close r) "fees_unrecorded" =
      if close.any (·.basis = .fillGross) then some (.bool true)
      else noted r "fees_unrecorded" := by
  cases close with
  | none =>
    show Dict.get? (Dict.erase _ "pnl_basis") "fees_unrecorded" = _
    rw [Dict.get?_erase_of_ne _ (by decide), Dict.get?_set_of_ne _ _ (by decide)]
    rfl
  | some c =>
    have hkept : Dict.get? (Dict.erase r.metadataJson "pnl_unavailable") "fees_unrecorded" =
        Dict.get? r.metadataJson "fees_unrecorded" := Dict.get?_erase_of_ne _ (by decide)
    obtain ⟨realized, filledAt, basis⟩ := c
    cases filledAt <;> cases basis <;>
      simp [noted, stampLifecycleClosePnl, Dict.get?_set, hkept]

def fillTime (close : Option FillClose) : Option Int := close.bind (·.filledAt)

theorem closedAt_stamp (close : Option FillClose) (r : ClosingLifecycle) :
    (stampLifecycleClosePnl close r).closedAt = (fillTime close).or r.closedAt ∧
      noted (stampLifecycleClosePnl close r) "closed_at_source" =
        if (fillTime close).isSome then some (.str "fill") else noted r "closed_at_source" := by
  cases close with
  | none =>
    refine ⟨rfl, ?_⟩
    show Dict.get? (Dict.erase _ "pnl_basis") "closed_at_source" = _
    rw [Dict.get?_erase_of_ne _ (by decide), Dict.get?_set_of_ne _ _ (by decide)]
    rfl
  | some c =>
    have hkept : Dict.get? (Dict.erase r.metadataJson "pnl_unavailable") "closed_at_source" =
        Dict.get? r.metadataJson "closed_at_source" := Dict.get?_erase_of_ne _ (by decide)
    obtain ⟨realized, filledAt, basis⟩ := c
    cases filledAt <;> cases basis <;>
      simp [noted, stampLifecycleClosePnl, fillTime, Dict.get?_set, hkept]

theorem realizedPl_stamp (close : Option FillClose) (r : ClosingLifecycle) :
    (stampLifecycleClosePnl close r).realizedPl = (close.map fun c => roundTo 4 c.realized).getD 0 := by
  cases close with
  | none => rfl
  | some c =>
    obtain ⟨realized, filledAt, basis⟩ := c
    cases filledAt <;> rfl

theorem lifecyclePnl_stamp (close : Option FillClose) (r : ClosingLifecycle) :
    lifecyclePnl str (stampLifecycleClosePnl close r) = close.map fun c => roundTo 4 c.realized := by
  have hunavailable := noted_pnlUnavailable close r
  have hbasis := noted_pnlBasis close r
  have hrealized := realizedPl_stamp close r
  unfold noted at hunavailable hbasis
  unfold lifecyclePnl Dict.at
  rw [hunavailable, hbasis, hrealized]
  cases close with
  | none => rfl
  | some c =>
    cases hb : c.basis <;> simp [hb, CloseBasis.value, Json.truthy, valueText]

end Stamp

/-! ## Calls one after another -/

section Runs

variable {r : ClosingLifecycle} {str : Json → String}

def lastFillTime (calls : List StampArgs) : Option Int :=
  (calls.filterMap fun a => fillTime a.close).getLast?

theorem lastFillTime_snoc (calls : List StampArgs) (last : StampArgs) :
    lastFillTime (calls ++ [last]) = (fillTime last.close).or (lastFillTime calls) := by
  unfold lastFillTime
  rw [List.filterMap_append]
  cases hlast : fillTime last.close with
  | none => simp [hlast]
  | some at_ => simp [hlast]

theorem closedAt_run (calls : List StampArgs) (r : ClosingLifecycle) :
    (runFrom stampCall r calls).closedAt = (lastFillTime calls).or r.closedAt ∧
      noted (runFrom stampCall r calls) "closed_at_source" =
        if (lastFillTime calls).isSome then some (.str "fill") else noted r "closed_at_source" := by
  induction calls using List.reverseRec with
  | nil => exact ⟨rfl, rfl⟩
  | append_singleton calls last ih =>
    obtain ⟨hclosed, hsource⟩ := closedAt_stamp last.close (runFrom stampCall r calls)
    rw [runFrom_concat, stampCall, hclosed, hsource, ih.1, ih.2, lastFillTime_snoc]
    cases fillTime last.close with
    | none => exact ⟨rfl, rfl⟩
    | some at_ => exact ⟨rfl, rfl⟩

/-- **What a row says after calls in any order.** The result and its basis are the last call's, and
    the fees are noted as missing if that call was without them; the time of the close and its
    source are those of the last call that had a fill time. -/
structure Stamped (str : Json → String) (r : ClosingLifecycle) (calls : List StampArgs)
    (last : StampArgs) : Prop where
  pnl : lifecyclePnl str (runFrom stampCall r (calls ++ [last])) =
    last.close.map fun c => roundTo 4 c.realized
  basis : noted (runFrom stampCall r (calls ++ [last])) "pnl_basis" =
    last.close.map fun c => .str c.basis.value
  unavailable : noted (runFrom stampCall r (calls ++ [last])) "pnl_unavailable" =
    if last.close.isSome then none else some (.str "no_fill")
  fees : last.close.any (·.basis = .fillGross) →
    noted (runFrom stampCall r (calls ++ [last])) "fees_unrecorded" = some (.bool true)
  closed : (runFrom stampCall r (calls ++ [last])).closedAt =
    (lastFillTime (calls ++ [last])).or r.closedAt
  source : noted (runFrom stampCall r (calls ++ [last])) "closed_at_source" =
    if (lastFillTime (calls ++ [last])).isSome then some (.str "fill")
    else noted r "closed_at_source"

theorem stamped_run (str : Json → String) (r : ClosingLifecycle) (calls : List StampArgs)
    (last : StampArgs) : Stamped str r calls last := by
  obtain ⟨hclosed, hsource⟩ := closedAt_run (calls ++ [last]) r
  refine ⟨?_, ?_, ?_, fun hgross => ?_, hclosed, hsource⟩
  · rw [runFrom_concat, stampCall, lifecyclePnl_stamp]
  · rw [runFrom_concat, stampCall, noted_pnlBasis]
  · rw [runFrom_concat, stampCall, noted_pnlUnavailable]
  · rw [runFrom_concat, stampCall, noted_feesUnrecorded, if_pos hgross]

end Runs

/-- **A close with a fill time, and then one without a fill**: the source of the first stays with
    its time. -/
theorem source_outlives_last_call :
    ¬ ∀ (str : Json → String) (r : ClosingLifecycle) (calls : List StampArgs) (last : StampArgs),
      lifecyclePnl str (runFrom stampCall r (calls ++ [last])) =
          last.close.map (fun c => roundTo 4 c.realized) ∧
        (noted (runFrom stampCall r (calls ++ [last])) "fees_unrecorded" matches some (.bool true) ↔
          last.close.any (·.basis = .fillGross)) ∧
        ((noted (runFrom stampCall r (calls ++ [last])) "closed_at_source").isSome ↔
          last.filledAt.isSome) := by
  intro hall
  obtain ⟨-, -, hsource⟩ := hall (fun _ => "") flatAapl
    [{ realized := some 5, filledAt := some 3, basis := some "fill" }] {}
  revert hsource
  decide +kernel

end Investor.Intraday
