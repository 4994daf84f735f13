import Investor.Intraday.ClosingStatus

/-!
# The exits that a closing call leaves

A lifecycle that the policy plans to close is covered after the call if an exit of its own stands,
on its exit side, for all of its position: what is filled of the exit already does not count, as
the position was counted after it.

Each lifecycle is followed through the batch by the key of its exit. A plan is submitted for the
last lifecycle of its symbol, so that no turn has the key of another one; and a turn is skipped
where an order of the day with its key works or is filled, whatever has become of the position
since. So a lifecycle is covered by what one turn made under its key, or by an order that worked
before, and by nothing else (`closesAll_iff`).
-/

namespace Investor.Intraday

open Lib Market Risk Execution Universe Workflow OrderBook

section Covers

variable {c : ClosingCall} {w : ClosingWorld} {l : HeldLifecycle}

/-! ## What is asked of the call -/

section

variable [Casing]

def plannedClose (c : ClosingCall) (w : ClosingWorld) (l : HeldLifecycle) : Bool :=
  (ClosingPolicy.ofValue c.settings.defaultClosingPolicy).any fun policy =>
    (planOf c policy (openLifecycles c w) l).any fun plan => decide (plan.action = .close)

def ownKey (c : ClosingCall) (l : HeldLifecycle) : String := closeKey l.uuid.text .close c.day

def answeredFill (b : OrderBook) (key : String) : ℚ :=
  ((Dict.get? b.handled key).map (·.filledQty)).getD 0

def filledBefore (b : OrderBook) (key : String) : ℚ :=
  match b.orders.find? key with
  | some o => if Casing.lower o.status = "filled" then o.qty else answeredFill b key
  | none => 0

/-- An exit of the lifecycle's own stands for all of its position. -/
def Covered (c : ClosingCall) (w : ClosingWorld) (l : HeldLifecycle) : Prop :=
  StandsFor (ownKey c l) l.exitSide.value (filledBefore w.orders (ownKey c l)) |l.quantity|
    ⟨(runClosing c w).world.orders, (runClosing c w).made, false⟩

/-- Where the force close is armed and trading is on, the call returns, and covers each lifecycle
    that the policy plans to close. -/
def ClosesAll (c : ClosingCall) (w : ClosingWorld) : Prop :=
  c.shouldAutoSubmitForceClose = true → c.controls.isNewOrderAllowed = true →
    (runClosing c w).report.isSome = true ∧
      ∀ l ∈ openLifecycles c w, plannedClose c w l = true → Covered c w l

/-! ## The turns -/

/-- A turn makes an exit of the lifecycle for all of its position, and the broker takes it. An exit of
    the day that is dead is taken up again as it was, on the side it was on. -/
structure CloseTaken (c : ClosingCall) (l : HeldLifecycle) (x : Batch × BatchTurn) : Prop where
  key : x.2.2.idempotencyKey = ownKey c l
  goesOut : x.1.orders.Reaches c.settings.toSettings x.2.1 x.2.2 none
  quantity : x.2.2.quantity = |l.quantity|
  side : ∀ o, x.1.orders.orders.find? (ownKey c l) = some o → o.side = l.exitSide.value
  taken : replyTakes x.2.1 (replyOf c.settings.toSettings x.2.1 x.2.2) = true

def OwnWorks (c : ClosingCall) (w : ClosingWorld) (l : HeldLifecycle) : Prop :=
  ∃ o, w.orders.orders.find? (ownKey c l) = some o ∧ o.isWorking = true ∧
    o.side = l.exitSide.value ∧ o.qty - answeredFill w.orders (ownKey c l) = |l.quantity|

/-- The turn leaves the exit of the lifecycle: it neither makes another one nor cancels it. -/
def LeavesExit (c : ClosingCall) (l : HeldLifecycle) (x : Batch × BatchTurn) : Prop :=
  ¬ Disturbs c.settings.toSettings (ownKey c l) x.1 x.2

def CloseFits (c : ClosingCall) (w : ClosingWorld) (l : HeldLifecycle) : Prop :=
  (∃ done x rest, closeSteps c w = done ++ x :: rest ∧ CloseTaken c l x ∧
    ∀ y ∈ rest, LeavesExit c l y) ∨
  OwnWorks c w l ∧ ∀ y ∈ closeSteps c w, LeavesExit c l y

end

theorem text_of_closeKey {u v : Ibkr.Uuid} {action action' : CloseAction} {day : String}
    (h : closeKey u.text action day = closeKey v.text action' day) : u.text = v.text := by
  unfold closeKey at h
  have hlist := congrArg String.toList h
  simp only [String.toList_append, List.append_assoc] at hlist
  refine String.toList_inj.mp (List.append_inj (List.append_cancel_left hlist) ?_).1
  rw [String.length_toList, String.length_toList, u.length_text, v.length_text]

variable [Casing]

theorem lastOf_some {lifecycles : List HeldLifecycle} {symbol : String}
    (h : lastOf lifecycles symbol = some l) : l ∈ lifecycles := by
  obtain ⟨x, hx, heq⟩ := List.mem_map.mp (Dict.mem_of_get?_ofPairs h)
  rw [Prod.mk.injEq] at heq
  exact heq.2 ▸ hx

theorem turn_of_closeSteps {x : Batch × BatchTurn} (hx : x ∈ closeSteps c w) :
    ∃ plan ∈ plansOf c w, ∃ l, lastOf (openLifecycles c w) plan.symbol = some l ∧
      x.2.2 = closeIntent c l plan := by
  have hturn : x.2 ∈ closeTurns c (openLifecycles c w) (plansOf c w) := mem_of_stepsOf hx
  obtain ⟨⟨intent, n⟩, hmem, hturn⟩ := List.mem_map.mp hturn
  obtain ⟨plan, hplan, hintent⟩ := List.mem_filterMap.mp (List.fst_mem_of_mem_zipIdx hmem)
  unfold planIntent at hintent
  split at hintent
  · cases hintent
  · cases hlast : lastOf (openLifecycles c w) plan.symbol with
    | none =>
      rw [hlast] at hintent
      cases hintent
    | some l =>
      rw [hlast] at hintent
      dsimp only at hintent
      split at hintent
      · cases hintent
      · refine ⟨plan, hplan, l, hlast, ?_⟩
        rw [← hturn, Option.some.inj hintent]

theorem side_of_ownKey (hl : l ∈ openLifecycles c w) {x : Batch × BatchTurn}
    (hx : x ∈ closeSteps c w) (hkey : x.2.2.idempotencyKey = ownKey c l) :
    x.2.2.side = l.exitSide := by
  obtain ⟨plan, -, l', hlast, hintent⟩ := turn_of_closeSteps hx
  rw [hintent] at hkey ⊢
  have hsame : l' = l := KeyedTable.eq_of_key_eq (List.mem_of_mem_filter (lastOf_some hlast))
    (List.mem_of_mem_filter hl) (text_of_closeKey hkey)
  rw [hsame]
  rfl

theorem makesFor_iff (hl : l ∈ openLifecycles c w) {x : Batch × BatchTurn}
    (hx : x ∈ closeSteps c w) :
    MakesFor c.settings.toSettings (ownKey c l) l.exitSide.value |l.quantity| x.1 x.2 ↔
      CloseTaken c l x := by
  constructor
  · intro h
    obtain ⟨hkey, hreaches⟩ := h.makes
    refine ⟨hkey, hreaches, h.quantity, fun o ho => ?_, h.taken⟩
    have hside := h.side
    rwa [ho] at hside
  · intro h
    refine ⟨⟨h.key, h.goesOut⟩, h.taken, ?_, h.quantity⟩
    cases hfind : x.1.orders.orders.find? (ownKey c l) with
    | none => rw [Option.map_none, Option.getD_none, side_of_ownKey hl hx h.key]
    | some o => rw [Option.map_some, Option.getD_some, h.side o hfind]

theorem standsFor_start_iff (hmoves : l.quantity ≠ 0) :
    StandsFor (ownKey c l) l.exitSide.value (filledBefore w.orders (ownKey c l)) |l.quantity|
      ⟨w.orders, [], false⟩ ↔ OwnWorks c w l := by
  unfold StandsFor OwnWorks
  refine exists_congr fun o => and_congr_right fun hfind => ?_
  have hfilled : filledBefore w.orders (ownKey c l) =
      if Casing.lower o.status = "filled" then o.qty else answeredFill w.orders (ownKey c l) := by
    unfold filledBefore
    rw [hfind]
  rw [List.map_nil, if_neg List.not_mem_nil, hfilled, Order.stands, Bool.or_eq_true,
    decide_eq_true_eq]
  by_cases hstatus : Casing.lower o.status = "filled"
  · rw [if_pos hstatus, sub_self]
    have hidle : o.isWorking = false := by
      unfold Order.isWorking
      rw [hstatus]
      decide
    have hnone : (0 : ℚ) ≠ |l.quantity| := (abs_pos.mpr hmoves).ne
    simp [hidle, hnone]
  · rw [if_neg hstatus, or_iff_left hstatus]

theorem quantity_of_planned (hplanned : plannedClose c w l = true) (hl : l ∈ openLifecycles c w) :
    l.quantity ≠ 0 := by
  obtain ⟨policy, -, hplan⟩ := (Option.any_eq_true _ _).mp hplanned
  obtain ⟨plan, hplan, -⟩ := (Option.any_eq_true _ _).mp hplan
  exact (action_planOf hl hplan).2.2.1

/-! ## The call -/

/-- An armed call on an active desk makes the orders of its batch. -/
theorem orders_runClosing (hstarts : Starts c w) (harmed : c.shouldAutoSubmitForceClose = true)
    (hactive : c.controls.isNewOrderAllowed = true) :
    (runClosing c w).world.orders = (closeBatch c w).orders ∧
      (runClosing c w).made = (closeBatch c w).made ∧
      (runClosing c w).report.isSome = !(closeBatch c w).raised := by
  obtain ⟨notes, decision, hplans, hrun⟩ := runClosing_of_starts hstarts
  have hsubmits : (∃ x, x ∈ closeSteps c w) → (draftsOf c w notes).intentIds ≠ [] ∨
      (draftsOf c w notes).retryForceSubmit = true := by
    rintro ⟨x, hx⟩
    exact (drafted_draftsOf harmed notes).submits (exists_exit_of_step hx)
  rw [hrun]
  unfold finishClosing
  dsimp only
  rw [hplans, submitCloseIntents_eq harmed hactive]
  split
  · cases hraised : (closeBatch c w).raised with
    | true => exact ⟨rfl, rfl, rfl⟩
    | false => exact ⟨rfl, rfl, rfl⟩
  · -- there is nothing to submit
    rename_i hidle
    have hturns : closeTurns c (openLifecycles c w) (plansOf c w) = [] := by
      by_contra hturns
      obtain ⟨turn, turns, hcons⟩ := List.exists_cons_of_ne_nil hturns
      refine hidle ⟨hsubmits ⟨(⟨w.orders, [], false⟩, turn), ?_⟩, harmed⟩
      unfold closeSteps batchSteps
      rw [hcons]
      exact List.mem_cons_self
    unfold closeBatch submitBatch
    rw [hturns]
    exact ⟨rfl, rfl, rfl⟩

/-- **When a closing call covers what it plans to close.** It gets to its plans, no turn of its batch
    raises, and for each such lifecycle, either some turn makes an exit under its key, for all of
    its position, that the broker takes, or one worked before for all of it; and no turn after that
    makes another exit of it or cancels it. -/
theorem closesAll_iff (c : ClosingCall) (w : ClosingWorld) :
    ClosesAll c w ↔ (c.shouldAutoSubmitForceClose = true → c.controls.isNewOrderAllowed = true →
      Starts c w ∧ (∀ x ∈ closeSteps c w, ¬ TurnRaises c.settings.toSettings x.1 x.2) ∧
        ∀ l ∈ openLifecycles c w, plannedClose c w l = true → CloseFits c w l) := by
  unfold ClosesAll
  refine forall₂_congr fun harmed hactive => ?_
  by_cases hstarts : Starts c w
  · obtain ⟨horders, hmade, hreport⟩ := orders_runClosing hstarts harmed hactive
    have hhandled : (runClosing c w).report.isSome = true ↔
        ∀ x ∈ closeSteps c w, ¬ TurnRaises c.settings.toSettings x.1 x.2 := by
      have hraised : (closeBatch c w).raised = true ↔
          ∃ x ∈ closeSteps c w, TurnRaises c.settings.toSettings x.1 x.2 := raised_submitBatch_iff
      rw [hreport, Bool.not_eq_true', ← Bool.not_eq_true, hraised]
      push Not
      rfl
    rw [hhandled, and_iff_right hstarts]
    refine and_congr_right fun hquiet => forall₂_congr fun l hl => forall_congr' fun hplanned => ?_
    have hraised : (closeBatch c w).raised = false := unraised_closeBatch hquiet
    unfold Covered
    -- the book of the call is that of its batch, and what it made is what the batch made
    have hstands : StandsFor (ownKey c l) l.exitSide.value (filledBefore w.orders (ownKey c l))
        |l.quantity| ⟨(runClosing c w).world.orders, (runClosing c w).made, false⟩ ↔
        StandsFor (ownKey c l) l.exitSide.value (filledBefore w.orders (ownKey c l))
          |l.quantity| (closeBatch c w) := by
      rw [horders, hmade]
      rfl
    rw [hstands]
    refine (standsFor_iff hraised).trans (or_congr ?_ (and_congr_left fun _ => ?_))
    · refine exists_congr fun done => exists_congr fun x => exists_congr fun rest =>
        and_congr_right fun hsplit => and_congr_left fun _ => makesFor_iff hl ?_
      show x ∈ batchSteps _ _ _
      rw [hsplit]
      exact List.mem_append_right _ List.mem_cons_self
    · exact standsFor_start_iff (quantity_of_planned hplanned hl)
  · have hreport := (runClosing_of_not_starts hstarts).1
    rw [hreport]
    exact iff_of_false (fun h => absurd h.1 (by simp)) fun h => absurd h.1 hstarts

end Covers

/-! ## Positions that are left open -/

section Sample

attribute [local instance] asciiCasing

instance (key side : String) (filled quantity : ℚ) (s : Batch) :
    Decidable (StandsFor key side filled quantity s) :=
  match h : s.orders.orders.find? key with
  | none => .isFalse fun ⟨o, ho, _⟩ => by rw [h] at ho; cases ho
  | some o =>
    decidable_of_iff (o.stands = true ∧ o.side = side ∧
      o.qty - (if key ∈ s.made.map (·.idempotencyKey) then 0 else filled) = quantity)
      ⟨fun ho => ⟨o, h, ho⟩, fun ⟨o', ho', hrest⟩ => Option.some.inj (h.symm.trans ho') ▸ hrest⟩

instance (c : ClosingCall) (w : ClosingWorld) : Decidable (ClosesAll c w) :=
  have (l : HeldLifecycle) : Decidable (Covered c w l) :=
    inferInstanceAs (Decidable (StandsFor ..))
  inferInstanceAs (Decidable (c.shouldAutoSubmitForceClose = true →
    c.controls.isNewOrderAllowed = true → (runClosing c w).report.isSome = true ∧
      ∀ l ∈ openLifecycles c w, plannedClose c w l = true → Covered c w l))

/-- Positions of two symbols are closed. -/
example : ClosesAll closeAllCall (twoHeld (heldLong "AAPL" 10 uuidOne) (heldLong "MSFT" 5 uuidTwo)
    (by decide +kernel) KeyedTable.empty) := by
  decide +kernel

/-- **Left open.** The exit of AAPL was filled today and the position is open again: no exit is made.
    Or two lifecycles of AAPL are open: only the last one gets an exit, and that for the quantity of
    the first. -/
theorem position_left_open :
    ¬ ClosesAll closeAllCall reopenedBesideOther ∧ ¬ ClosesAll closeAllCall twoOfOneSymbol :=
  ⟨by decide +kernel, by decide +kernel⟩

end Sample

end Investor.Intraday
