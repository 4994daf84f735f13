import Investor.Lib.Run

/-!
# The trading kill switch and its persisted copy

`execution/safety_controls.py` keeps one record in the process (`TradingControls`);
`execution/ops_persistence.py` writes a copy of it into the configuration history and
reads the newest copy back after a restart. The claim of the module's own comments is
that an emergency stop can be left only through `clear_emergency`: `resume` tests for
it and returns without a change. `pause` does not test, and neither does the restore,
so the exact statement proved here (`stopHolds_of_keepsStop`) asks of every step that
it is neither a pause inside the stop nor a restore of a copy that is not a stop.

Two texts of the stored row are represented by what reading them gives: `new_value`
by what `json.loads` makes of it (`StoredText`), a timestamp by what
`datetime.fromisoformat` makes of it (`IsoText`). Instants are integers.
-/

namespace Investor.Execution

open Lib

/-- `TradingState`. -/
inductive TradingState
  | active | paused | emergencyStop
  deriving DecidableEq

def TradingState.value : TradingState → String
  | .active => "active"
  | .paused => "paused"
  | .emergencyStop => "emergency_stop"

/-- `TradingState(text)`: the member with that value, or the `ValueError`. -/
def TradingState.ofValue (text : String) : Option TradingState :=
  if text = "active" then some .active
  else if text = "paused" then some .paused
  else if text = "emergency_stop" then some .emergencyStop
  else none

/-- `TradingControlState`. -/
structure TradingControlState where
  state : TradingState
  reason : Option String
  changedAt : Int
  canceledOpenOrders : Bool
  deriving DecidableEq

/-! ## The in-process operations

Each takes the clock's reading `now`, which the source takes from `datetime.now(UTC)`. -/

namespace TradingControlState

def isNewOrderAllowed (c : TradingControlState) : Bool := c.state == .active

def pause (_ : TradingControlState) (reason : String) (now : Int) : TradingControlState :=
  { state := .paused, reason := some reason, changedAt := now, canceledOpenOrders := false }

def resume (c : TradingControlState) (reason : String) (now : Int) : TradingControlState :=
  if c.state = .emergencyStop then
    -- Emergency stop requires explicit clear_emergency.
    c
  else
    { state := .active, reason := some reason, changedAt := now, canceledOpenOrders := false }

def emergencyStop (_ : TradingControlState) (reason : String) (now : Int) : TradingControlState :=
  { state := .emergencyStop, reason := some reason, changedAt := now, canceledOpenOrders := true }

/-- Explicit dual-step recovery from emergency stop: to paused, not active. -/
def clearEmergency (_ : TradingControlState) (reason : String) (now : Int) : TradingControlState :=
  { state := .paused, reason := some reason, changedAt := now, canceledOpenOrders := false }

end TradingControlState

/-! ## The persisted copy -/

/-- A timestamp text, as `datetime.fromisoformat` reads it. -/
inductive IsoText
  | instant (at_ : Int)
  | malformed
  deriving DecidableEq

/-- The fields the restore looks up in the stored object; `none` is an absent or empty
    one. -/
structure ControlsPayload where
  state : Option String
  reason : Option String
  changedAt : Option IsoText
  canceledOpenOrders : Bool
  deriving DecidableEq

/-- `ConfigurationHistory.new_value`, as `json.loads` reads it. -/
inductive StoredText
  | notJson
  | notObject
  | object (data : ControlsPayload)
  deriving DecidableEq

/-- `ConfigurationHistory`, the columns the two functions use. -/
structure ConfigurationHistory where
  key : String
  oldValue : Option StoredText
  newValue : StoredText
  changedBy : String
  reason : Option String
  createdAt : Int
  deriving DecidableEq

def OPS_KEY : String := "ops.trading_controls"

/-- The newer of the best row so far and the next; the later row of equal times. -/
def newerRecord (best : Option ConfigurationHistory) (r : ConfigurationHistory) :
    Option ConfigurationHistory :=
  match best with
  | none => some r
  | some b => if b.createdAt ≤ r.createdAt then some r else some b

/-- `order_by(created_at.desc()).limit(1)` over the rows of `OPS_KEY`. -/
def latestRecord (history : List ConfigurationHistory) : Option ConfigurationHistory :=
  (history.filter (·.key == OPS_KEY)).foldl newerRecord none

/-- The payload `persist_trading_controls` dumps. -/
def persistPayload (c : TradingControlState) : ControlsPayload :=
  { state := some c.state.value, reason := c.reason, changedAt := some (.instant c.changedAt),
    canceledOpenOrders := c.canceledOpenOrders }

def persistTradingControls (history : List ConfigurationHistory) (c : TradingControlState)
    (changedBy : String) (createdAt : Int) : List ConfigurationHistory :=
  history ++
    [{ key := OPS_KEY, oldValue := (latestRecord history).map (·.newValue),
       newValue := .object (persistPayload c), changedBy := changedBy, reason := c.reason,
       createdAt := createdAt }]

/-- The exceptions `restore_trading_controls` lets out; each is raised before the
    assignment of `controls._state`. -/
inductive RestoreError
  | attributeError
  | invalidState (text : String)
  | invalidTimestamp
  deriving DecidableEq

/-- `restore_trading_controls`: the payload it returns, and the control state it leaves. -/
def restoreTradingControls (history : List ConfigurationHistory) (c : TradingControlState)
    (now : Int) : Except RestoreError (Option ControlsPayload) × TradingControlState :=
  match latestRecord history with
  | none => (.ok none, c)
  | some latest =>
    match latest.newValue with
    | .notJson => (.ok none, c)
    | .notObject => (.error .attributeError, c)
    | .object data =>
      let text := data.state.getD TradingState.active.value
      match TradingState.ofValue text with
      | none => (.error (.invalidState text), c)
      | some state =>
        -- Apply without going through resume (which cannot clear emergency).
        match data.changedAt with
        | some .malformed => (.error .invalidTimestamp, c)
        | some (.instant t) =>
          (.ok (some data),
            { state := state, reason := data.reason, changedAt := t,
              canceledOpenOrders := data.canceledOpenOrders })
        | none =>
          (.ok (some data),
            { state := state, reason := data.reason, changedAt := now,
              canceledOpenOrders := data.canceledOpenOrders })

/-- The state a restore would install, if it installs one: the newest stored record is
    an object whose state and timestamp both read. -/
def restoredState (history : List ConfigurationHistory) : Option TradingState :=
  match latestRecord history with
  | some { newValue := .object data, .. } =>
    if data.changedAt = some .malformed then none
    else TradingState.ofValue (data.state.getD TradingState.active.value)
  | _ => none

theorem restore_state (history : List ConfigurationHistory) (c : TradingControlState) (now : Int) :
    (restoreTradingControls history c now).2.state =
      (restoredState history).getD c.state := by
  unfold restoreTradingControls restoredState
  cases hl : latestRecord history with
  | none => rfl
  | some latest =>
    obtain ⟨key, old, newValue, by_, reason, created⟩ := latest
    cases newValue with
    | notJson => rfl
    | notObject => rfl
    | object data =>
      cases hs : TradingState.ofValue (data.state.getD TradingState.active.value) with
      | none => simp [hs]
      | some state =>
        cases ht : data.changedAt with
        | none => simp [hs, ht]
        | some text => cases text <;> simp [hs, ht]

/-! ## Runs

The process record and the table it is copied to, under any interleaving of the six
operations. -/

structure ControlsWorld where
  controls : TradingControlState
  history : List ConfigurationHistory
  deriving DecidableEq

inductive ControlsOp
  | pause (reason : String) (now : Int)
  | resume (reason : String) (now : Int)
  | emergencyStop (reason : String) (now : Int)
  | clearEmergency (reason : String) (now : Int)
  | persist (changedBy : String) (createdAt : Int)
  | restore (now : Int)
  deriving DecidableEq

def ControlsOp.isClear : ControlsOp → Bool
  | .clearEmergency .. => true
  | _ => false

def ControlsWorld.step (w : ControlsWorld) : ControlsOp → ControlsWorld
  | .pause reason now => { w with controls := w.controls.pause reason now }
  | .resume reason now => { w with controls := w.controls.resume reason now }
  | .emergencyStop reason now => { w with controls := w.controls.emergencyStop reason now }
  | .clearEmergency reason now => { w with controls := w.controls.clearEmergency reason now }
  | .persist changedBy createdAt =>
    { w with history := persistTradingControls w.history w.controls changedBy createdAt }
  | .restore now => { w with controls := (restoreTradingControls w.history w.controls now).2 }

/-- The kill switch over one run: in every state reached after an `emergency_stop` with
    no `clear_emergency` since, no new order is allowed. -/
def StopHolds (w : ControlsWorld) (ops : List ControlsOp) : Prop :=
  ∀ before reason now after, before ++ .emergencyStop reason now :: after <+: ops →
    after.all (!·.isClear) →
    (runFrom ControlsWorld.step w
      (before ++ .emergencyStop reason now :: after)).controls.isNewOrderAllowed = false

/-- The condition on one step. Inside an emergency stop the step is no pause, and no
    restore of a record that holds another state. -/
def KeepsStop (w : ControlsWorld) (op : ControlsOp) : Prop :=
  w.controls.state = .emergencyStop →
    match op with
    | .pause .. => False
    | .restore _ => restoredState w.history = none ∨ restoredState w.history = some .emergencyStop
    | _ => True

theorem step_keeps_stop {w : ControlsWorld} {op : ControlsOp} (hmeets : KeepsStop w op)
    (hclear : op.isClear = false) (hstop : w.controls.state = .emergencyStop) :
    (w.step op).controls.state = .emergencyStop := by
  have hcond := hmeets hstop
  cases op with
  | pause => exact hcond.elim
  | resume => simp [ControlsWorld.step, TradingControlState.resume, hstop]
  | emergencyStop => rfl
  | clearEmergency => simp [ControlsOp.isClear] at hclear
  | persist => exact hstop
  | restore now =>
    show (restoreTradingControls w.history w.controls now).2.state = .emergencyStop
    rw [restore_state]
    rcases hcond with hnone | hsome
    · rw [hnone]; exact hstop
    · rw [hsome]; rfl

theorem run_keeps_stop {w : ControlsWorld} {ops : List ControlsOp}
    (hmeets : StepsMeet ControlsWorld.step KeepsStop w ops) (hclear : ops.all (!·.isClear))
    (hstop : w.controls.state = .emergencyStop) :
    (runFrom ControlsWorld.step w ops).controls.state = .emergencyStop := by
  induction ops generalizing w with
  | nil => exact hstop
  | cons op ops ih =>
    rw [List.all_cons, Bool.and_eq_true] at hclear
    have hop : op.isClear = false := by simpa using hclear.1
    exact ih hmeets.2 hclear.2 (step_keeps_stop hmeets.1 hop hstop)

/-- **The kill switch holds over every run whose steps keep it.** -/
theorem stopHolds_of_keepsStop (w : ControlsWorld) (ops : List ControlsOp)
    (hmeets : StepsMeet ControlsWorld.step KeepsStop w ops) : StopHolds w ops := by
  intro before reason now after hprefix hclear
  have hpre := hmeets.of_prefix hprefix
  obtain ⟨_, hafter⟩ := StepsMeet.append_iff.mp hpre
  -- the stop itself needs no condition: whatever came before, the state is now a stop
  have hstate := run_keeps_stop hafter.2 hclear
    (show (ControlsWorld.step _ (.emergencyStop reason now)).controls.state = .emergencyStop
      from rfl)
  rw [runFrom_append, runFrom_cons]
  simp [TradingControlState.isNewOrderAllowed, hstate]

/-- A fresh process, with an empty configuration history. -/
def freshWorld : ControlsWorld :=
  { controls := { state := .active, reason := none, changedAt := 0, canceledOpenOrders := false },
    history := [] }

/-- A run with every kind of step in which the stop holds: persisted, restored after a
    resume attempt, and cleared before the pause. -/
theorem stopHolds_of_keepsStop_restart :
    StopHolds freshWorld
      [.emergencyStop "drill" 1, .persist "api" 1, .resume "manual_resume" 2, .restore 3,
        .clearEmergency "emergency_cleared" 4, .pause "manual_pause" 5] :=
  stopHolds_of_keepsStop _ _
    ⟨fun _ => trivial, fun _ => trivial, fun _ => trivial,
      fun _ => Or.inr (by decide), fun _ => trivial,
      fun h => absurd h (by decide), trivial⟩

/-- The operator's three clicks: stop, pause, resume. -/
theorem stop_pause_resume_is_active :
    ¬ StopHolds freshWorld
      [.emergencyStop "emergency_stop" 1, .pause "manual_pause" 2, .resume "manual_resume" 3] := by
  intro h
  have := h [] "emergency_stop" 1 [.pause "manual_pause" 2, .resume "manual_resume" 3]
    (List.prefix_refl _) (by decide)
  exact absurd this (by decide)

end Investor.Execution
