import Investor.Lib.Group
import Investor.Lib.Json
import Investor.Lib.Run

/-!
# Alerts, and what holds them back

`AlertService.emit` asks three times whether an alert is news. In memory only an active alert of
the same severity holds it back. The cooldown is that of the new alert's severity, but the alert
it is counted from may be of any, and so may be the row of the database that is found after a
restart. An alert that is more severe than everything its key has seen is held back there
(`critical_after_warning`).

What `_last_emit` knows is what is in memory (`LastEmits`), whatever is emitted, acknowledged and
resolved and however often the process starts again. So the service is right in a run exactly if
every alert that outranks all of its key finds none of them that was last sent in its cooldown,
and no unresolved row (`emits_right_iff`).
-/

namespace Investor.Alerts

open Lib

/-! ## Alerts -/

inductive AlertSeverity
  | info | warning | critical
  deriving DecidableEq

def AlertSeverity.value : AlertSeverity → String
  | .info => "info"
  | .warning => "warning"
  | .critical => "critical"

def AlertSeverity.rank : AlertSeverity → ℕ
  | .info => 0
  | .warning => 1
  | .critical => 2

inductive AlertStatus
  | active | acknowledged | resolved
  deriving DecidableEq

/-- `["active", "acknowledged"]`. -/
def AlertStatus.unresolved : AlertStatus → Bool
  | .active | .acknowledged => true
  | .resolved => false

/-- `AlertRecord`, and `AlertRecordModel` with the key it was written with: instants in microseconds, less the
texts and the times of what happened to it. -/
structure AlertRecord where
  id : ℕ
  code : String
  severity : AlertSeverity
  dedupeKey : Option String
  createdAt : Int
  status : AlertStatus := .active
  deriving DecidableEq

/-- `effective_dedupe_key`. -/
def AlertRecord.effectiveDedupeKey (a : AlertRecord) : String :=
  (a.dedupeKey.filter (· ≠ "")).getD (a.code ++ ":" ++ a.severity.value)

structure AlertSettings where
  enableAlerts : Bool
  criticalAlertCooldownSeconds : Int
  warningAlertCooldownSeconds : Int

/-- What is written down: the rows, and what the provider was given. Of the process, whether it has a session, and
its memory. A `uuid4` is a number that was not given before. -/
structure World where
  nextId : ℕ := 0
  rows : List AlertRecord := []
  sent : List AlertRecord := []
  session : Bool
  alerts : List AlertRecord := []
  lastEmit : Dict Int := []

structure EmitResult where
  emitted : Bool
  alertId : Option ℕ := none
  reason : String := "ok"
  deriving DecidableEq

/-- The arguments of `emit`, and the clock as the alert is made and as it is checked. -/
structure EmitArgs where
  code : String
  severity : AlertSeverity
  dedupeKey : Option String := none
  createdAt : Int
  now : Int

/-! ## Emitting -/

def cooldownSeconds (cfg : AlertSettings) : AlertSeverity → Int
  | .critical => cfg.criticalAlertCooldownSeconds
  | .warning => cfg.warningAlertCooldownSeconds
  | .info => 0

def cools (cfg : AlertSettings) (severity : AlertSeverity) (now last : Int) : Bool :=
  decide (0 < cooldownSeconds cfg severity) && decide (now - last < cooldownSeconds cfg severity * 1000000)

/-- `_within_cooldown`. -/
def withinCooldown (cfg : AlertSettings) (w : World) (key : String) (severity : AlertSeverity) (now : Int) :
    Bool :=
  (Dict.get? w.lastEmit key).any (cools cfg severity now)

/-- `_find_active_by_dedupe`: the newest of the unresolved rows of the key. -/
def findActiveByDedupe (w : World) (key : String) : Option AlertRecord :=
  if w.session ∧ key ≠ "" then
    firstLeast (fun r => -r.createdAt) (w.rows.filter fun r =>
      decide (r.effectiveDedupeKey = key) && r.status.unresolved)
  else none

/-- The alert that `emit` makes. -/
def EmitArgs.alert (a : EmitArgs) (w : World) : AlertRecord :=
  { id := w.nextId, code := a.code, severity := a.severity, dedupeKey := a.dedupeKey, createdAt := a.createdAt }

/-- `emit`, where the provider delivers and the row is written. -/
def emit (cfg : AlertSettings) (a : EmitArgs) (w : World) : EmitResult × World :=
  let alert := a.alert w
  let key := alert.effectiveDedupeKey
  if !cfg.enableAlerts then ({ emitted := false, reason := "alerts_disabled" }, w)
  else if withinCooldown cfg w key a.severity a.now then
    ({ emitted := false, alertId := some alert.id, reason := "cooldown" }, { w with nextId := w.nextId + 1 })
  else
    match w.alerts.find? fun e => decide (e.effectiveDedupeKey = key ∧ e.status = .active ∧
        e.severity = a.severity) with
    | some existing =>
      ({ emitted := false, alertId := some existing.id, reason := "deduplicated" },
        { w with nextId := w.nextId + 1 })
    | none =>
      match findActiveByDedupe w key with
      | some row =>
        ({ emitted := false, alertId := some row.id, reason := "deduplicated_db" },
          { w with nextId := w.nextId + 1 })
      | none =>
        ({ emitted := true, alertId := some alert.id },
          { w with
            nextId := w.nextId + 1, sent := w.sent ++ [alert], alerts := w.alerts ++ [alert]
            lastEmit := Dict.set w.lastEmit key alert.createdAt
            rows := if w.session then w.rows ++ [alert] else w.rows })

/-! ## The life of an alert -/

def restatus (meant : AlertRecord → Bool) (status : AlertStatus) (alerts : List AlertRecord) : List AlertRecord :=
  alerts.map fun a => if meant a then { a with status } else a

/-- A status is written to the alert of the id in memory and to its row; to the row alone if it is not in memory. -/
def writeStatus (id : ℕ) (status : AlertStatus) (w : World) : World :=
  { w with
    alerts := restatus (fun a => a.id = id) status w.alerts
    rows := if w.session then restatus (fun a => a.id = id) status w.rows else w.rows }

/-- `_load_db_alert`. -/
def loadDbAlert (id : ℕ) (w : World) : Option AlertRecord :=
  if w.session then w.rows.find? fun r => r.id = id else none

/-- `acknowledge`. -/
def acknowledge (id : ℕ) (w : World) : EmitResult × World :=
  match (w.alerts.find? fun a => a.id = id).or (loadDbAlert id w) with
  | none => ({ emitted := false, reason := "not_found" }, w)
  | some alert =>
    if alert.status = .resolved then ({ emitted := false, alertId := some id, reason := "already_resolved" }, w)
    else ({ emitted := true, alertId := some id }, writeStatus id .acknowledged w)

/-- `resolve`: an alert in memory is resolved again, a row is not. -/
def resolve (id : ℕ) (w : World) : EmitResult × World :=
  match w.alerts.find? fun a => a.id = id with
  | some _ => ({ emitted := true, alertId := some id }, writeStatus id .resolved w)
  | none =>
    match loadDbAlert id w with
    | none => ({ emitted := false, reason := "not_found" }, w)
    | some row =>
      if row.status = .resolved then ({ emitted := false, alertId := some id, reason := "already_resolved" }, w)
      else ({ emitted := true, alertId := some id }, writeStatus id .resolved w)

/-- `resolve_by_code`, and how many it has resolved. -/
def resolveByCode (code : String) (w : World) : ℕ × World :=
  let meant (a : AlertRecord) : Bool := decide (a.code = code) && a.status.unresolved
  (w.alerts.countP meant + (if w.session then w.rows.countP meant else 0),
    { w with
      alerts := restatus meant .resolved w.alerts
      rows := if w.session then restatus meant .resolved w.rows else w.rows })

inductive AlertOp
  | emit (a : EmitArgs)
  | acknowledge (id : ℕ)
  | resolve (id : ℕ)
  | resolveByCode (code : String)
  /-- Another process, or another service object, with a session or without. -/
  | restart (session : Bool)

def step (cfg : AlertSettings) (w : World) : AlertOp → World
  | .emit a => (emit cfg a w).2
  | .acknowledge id => (Alerts.acknowledge id w).2
  | .resolve id => (Alerts.resolve id w).2
  | .resolveByCode code => (Alerts.resolveByCode code w).2
  | .restart session => { w with session, alerts := [], lastEmit := [] }

/-! ## What holds an alert back -/

def EmitArgs.key (a : EmitArgs) : String := (a.dedupeKey.filter (· ≠ "")).getD (a.code ++ ":" ++ a.severity.value)

/-- The key has an unresolved alert, or one that was sent in the cooldown, that is as severe. -/
def Matched (cfg : AlertSettings) (a : EmitArgs) (w : World) : Prop :=
  (∃ e ∈ w.alerts ++ w.rows, e.effectiveDedupeKey = a.key ∧ e.status.unresolved ∧
    a.severity.rank ≤ e.severity.rank) ∨
  ∃ e ∈ w.sent, e.effectiveDedupeKey = a.key ∧ cools cfg a.severity a.now e.createdAt ∧
    a.severity.rank ≤ e.severity.rank

/-- What is asked of an emit: it is suppressed only if the key has seen an alert as severe. -/
def EmitRight (cfg : AlertSettings) (w : World) : AlertOp → Prop
  | .emit a => cfg.enableAlerts → (emit cfg a w).1.emitted = false → Matched cfg a w
  | _ => True

def lastOf (key : String) (w : World) : Option AlertRecord :=
  (w.alerts.filter fun e => e.effectiveDedupeKey = key).getLast?

/-- What outranks all of its key was not preceded within the cooldown, and the key has no unresolved row. -/
def GoesThrough (cfg : AlertSettings) (w : World) : AlertOp → Prop
  | .emit a => cfg.enableAlerts → ¬Matched cfg a w →
      (∀ last, lastOf a.key w = some last → cools cfg a.severity a.now last.createdAt = false) ∧
      (w.session → ∀ r ∈ w.rows, r.effectiveDedupeKey = a.key → r.status.unresolved = false)
  | _ => True

/-- **What `_last_emit` knows of a key is when the last of its alerts in memory was made.** -/
def LastEmits (w : World) : Prop :=
  ∀ key, Dict.get? w.lastEmit key = (lastOf key w).map (·.createdAt)

theorem effectiveDedupeKey_alert (a : EmitArgs) (w : World) : (a.alert w).effectiveDedupeKey = a.key := rfl

theorem key_ne_empty (a : EmitArgs) : a.key ≠ "" := by
  unfold EmitArgs.key
  cases hkey : a.dedupeKey.filter (· ≠ "") with
  | some key => simpa using (Option.filter_eq_some_iff.mp hkey).2
  | none =>
    intro h
    have hlength := congrArg String.length h
    simp at hlength

section Kept

variable {cfg : AlertSettings} {w : World}

theorem lastOf_restatus (meant : AlertRecord → Bool) (status : AlertStatus) (key : String) :
    (((restatus meant status w.alerts).filter fun e => e.effectiveDedupeKey = key).getLast?).map (·.createdAt) =
      (lastOf key w).map (·.createdAt) := by
  have hkey : ∀ a : AlertRecord,
      (if meant a then { a with status } else a).effectiveDedupeKey = a.effectiveDedupeKey := by
    intro a
    split <;> rfl
  have htime : ∀ a : AlertRecord, (if meant a then { a with status } else a).createdAt = a.createdAt := by
    intro a
    split <;> rfl
  rw [restatus, List.filter_map, List.getLast?_map, Option.map_map, lastOf]
  simp only [Function.comp_def, hkey, htime]

theorem LastEmits.writeStatus (h : LastEmits w) (id : ℕ) (status : AlertStatus) :
    LastEmits (writeStatus id status w) := fun key =>
  (h key).trans (lastOf_restatus _ _ key).symm

theorem LastEmits.emit (h : LastEmits w) (a : EmitArgs) : LastEmits (emit cfg a w).2 := by
  unfold Alerts.emit
  dsimp only
  split
  · exact h
  · split
    · exact h
    · split
      · exact h
      · split
        · exact h
        · intro key
          dsimp only
          rw [Dict.get?_set, lastOf, List.filter_append, effectiveDedupeKey_alert]
          by_cases hkey : a.key = key
          · rw [if_pos hkey, List.filter_cons_of_pos (by simp [effectiveDedupeKey_alert, hkey])]
            simp [EmitArgs.alert]
          · rw [if_neg hkey, List.filter_cons_of_neg (by simp [effectiveDedupeKey_alert, hkey]),
              List.filter_nil, List.append_nil]
            exact h key

/-- Every operation keeps `_last_emit` at the last alert of each key. -/
theorem LastEmits.step (h : LastEmits w) (op : AlertOp) : LastEmits (step cfg w op) := by
  cases op with
  | emit a => exact h.emit a
  | acknowledge id =>
    unfold Alerts.step acknowledge
    dsimp only
    split
    · exact h
    · split
      · exact h
      · exact h.writeStatus id _
  | resolve id =>
    unfold Alerts.step Alerts.resolve
    dsimp only
    split
    · exact h.writeStatus id _
    · split
      · exact h
      · split
        · exact h
        · exact h.writeStatus id _
  | resolveByCode code => exact fun key => (h key).trans (lastOf_restatus _ _ key).symm
  | restart session => exact fun key => rfl

/-! ## When the service is right -/

theorem withinCooldown_iff (h : LastEmits w) (a : EmitArgs) :
    withinCooldown cfg w a.key a.severity a.now ↔
      ∃ last, lastOf a.key w = some last ∧ cools cfg a.severity a.now last.createdAt := by
  rw [withinCooldown, h a.key]
  cases lastOf a.key w with
  | none => simp
  | some last => simp

theorem findActiveByDedupe_isSome (a : EmitArgs) :
    (findActiveByDedupe w a.key).isSome ↔
      w.session ∧ ∃ r ∈ w.rows, r.effectiveDedupeKey = a.key ∧ r.status.unresolved := by
  unfold findActiveByDedupe
  by_cases hsession : w.session
  · rw [if_pos ⟨hsession, key_ne_empty a⟩, Option.isSome_iff_ne_none, Ne, firstLeast_eq_none_iff,
      List.filter_eq_nil_iff]
    simp [hsession]
  · rw [if_neg fun h => hsession h.1]
    simp [hsession]

theorem not_emitted_iff (henabled : cfg.enableAlerts = true) (a : EmitArgs) :
    (emit cfg a w).1.emitted = false ↔
      withinCooldown cfg w a.key a.severity a.now ∨
      (∃ e ∈ w.alerts, e.effectiveDedupeKey = a.key ∧ e.status = .active ∧ e.severity = a.severity) ∨
      (findActiveByDedupe w a.key).isSome := by
  unfold Alerts.emit
  dsimp only
  rw [effectiveDedupeKey_alert, henabled, if_neg (by simp)]
  by_cases hcools : withinCooldown cfg w a.key a.severity a.now = true
  · rw [if_pos hcools]
    simp [hcools]
  · rw [if_neg hcools]
    cases hmemory : w.alerts.find? fun e => decide (e.effectiveDedupeKey = a.key ∧ e.status = .active ∧
        e.severity = a.severity) with
    | some existing =>
      have hfound := List.find?_some hmemory
      have hexists : ∃ e ∈ w.alerts, e.effectiveDedupeKey = a.key ∧ e.status = .active ∧
          e.severity = a.severity :=
        ⟨existing, List.mem_of_find?_eq_some hmemory, of_decide_eq_true hfound⟩
      exact iff_of_true rfl (Or.inr (Or.inl hexists))
    | none =>
      have hnone : ¬∃ e ∈ w.alerts, e.effectiveDedupeKey = a.key ∧ e.status = .active ∧
          e.severity = a.severity := by
        intro hexists
        obtain ⟨e, he, hsame⟩ := hexists
        exact List.find?_eq_none.mp hmemory e he (decide_eq_true hsame)
      cases findActiveByDedupe w a.key with
      | some row => simp
      | none => simp [hcools, hnone]

/-- An emit is right exactly if what outranks its key goes through. -/
theorem emitRight_iff (h : LastEmits w) (op : AlertOp) : EmitRight cfg w op ↔ GoesThrough cfg w op := by
  cases op with
  | emit a =>
    refine forall_congr' fun henabled => ?_
    rw [not_emitted_iff henabled, withinCooldown_iff h, findActiveByDedupe_isSome]
    constructor
    · intro hright hoverlooked
      constructor
      · intro last hlast
        by_contra hcools
        exact hoverlooked (hright (Or.inl ⟨last, hlast, by simpa using hcools⟩))
      · intro hsession r hr hkey
        by_contra hopen
        exact hoverlooked (hright (Or.inr (Or.inr ⟨hsession, r, hr, hkey, by simpa using hopen⟩)))
    · intro hgoes hheld
      by_contra hoverlooked
      obtain ⟨hlast, hrows⟩ := hgoes hoverlooked
      rcases hheld with ⟨last, hof, hcools⟩ | ⟨e, he, hkey, hactive, hseverity⟩ | ⟨hsession, r, hr, hkey, hopen⟩
      · exact absurd hcools (by simp [hlast last hof])
      · -- an active alert of the same severity is as severe
        refine hoverlooked (Or.inl ⟨e, List.mem_append_left _ he, hkey, ?_, hseverity ▸ le_rfl⟩)
        rw [hactive]
        rfl
      · exact absurd hopen (by simp [hrows hsession r hr hkey])
  | acknowledge id => exact Iff.rfl
  | resolve id => exact Iff.rfl
  | resolveByCode code => exact Iff.rfl
  | restart session => exact Iff.rfl

end Kept

/-- **When the service is right in a run.** In any run, with any restarts, every alert that is held back was
matched by one as severe exactly if every alert that outranks all of its key goes through. -/
theorem emits_right_iff (cfg : AlertSettings) (session : Bool) (ops : List AlertOp) :
    StepsMeet (step cfg) (EmitRight cfg) { session } ops ↔
      StepsMeet (step cfg) (GoesThrough cfg) { session } ops := by
  have hstart : LastEmits { session } := fun _ => rfl
  constructor
  · intro h
    exact h.gives (fun w op hw hright => ⟨hw.step op, (emitRight_iff hw op).mp hright⟩) hstart
  · intro h
    exact h.gives (fun w op hw hgoes => ⟨hw.step op, (emitRight_iff hw op).mpr hgoes⟩) hstart

section Sample

def defaultAlerts : AlertSettings :=
  { enableAlerts := true, criticalAlertCooldownSeconds := 60, warningAlertCooldownSeconds := 300 }

def overnightReview (severity : AlertSeverity) (seconds : Int) : EmitArgs :=
  { code := "trading.overnight_review", severity, dedupeKey := some "overnight_review:2026-10-01"
    createdAt := seconds * 1000000, now := seconds * 1000000 }

/-- **A critical review is held back by a warning**: ten seconds later, or an hour and a restart later. -/
theorem critical_after_warning :
    ¬StepsMeet (step defaultAlerts) (EmitRight defaultAlerts) { session := true }
        [.emit (overnightReview .warning 0), .emit (overnightReview .critical 10)] ∧
      ¬StepsMeet (step defaultAlerts) (EmitRight defaultAlerts) { session := true }
        [.emit (overnightReview .warning 0), .restart true, .emit (overnightReview .critical 3600)] := by
  constructor
  · intro h
    have hmatched := h.2.1 rfl (by decide +kernel)
    revert hmatched
    unfold Matched
    decide +kernel
  · intro h
    have hmatched := h.2.2.1 rfl (by decide +kernel)
    revert hmatched
    unfold Matched
    decide +kernel

end Sample

end Investor.Alerts
