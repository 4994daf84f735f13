import Investor.Workflow.Steady

/-!
# Calls that go through, and calls that stop

Where the session is usable and nothing disturbs an await, a flush or a query does what it is
there for, and the run it leaves is known. Where something does, the call stops with an
exception. What disturbs a flush is said once (`FlushGoes`), and the changes of state and the
release of a lease are followed through their flushes from there.
-/

namespace Investor.Workflow

open Lib Core Execution

section Goes

variable {env : Env}

/-! ## Flushes and queries -/

/-- A flush that goes through: the session is usable, and neither a cancellation nor the
    database stops it. -/
structure FlushGoes (env : Env) (w : World) : Prop where
  usable : w.db.broken = false
  uncut : (w.timed && env.cut w.ticks) = false
  accepted : env.flushFails (w.ticks + 1) = false

variable {w w' : World}

theorem FlushGoes.of_same (h : FlushGoes env w) (husable : w'.db.broken = w.db.broken)
    (htimed : w'.timed = w.timed) (hticks : w'.ticks = w.ticks) : FlushGoes env w' where
  usable := husable.trans h.usable
  uncut := by rw [htimed, hticks]; exact h.uncut
  accepted := by rw [hticks]; exact h.accepted

theorem flushWith_goes {f : Tables → Tables} {w : World} (h : FlushGoes env w) :
    flushWith env f w = (.ok (), { w.tick with db := w.db.write f }) := by
  have hawait : Eff.attempt (suspend env) w = (.ok (.ok ()), w.tick) := by
    simp [Eff.attempt, suspend, h.uncut]
  simp [flushWith, Eff.read, bind, hawait, h.usable, h.accepted, write, Eff.edit]

theorem flushWith_stops {f : Tables → Tables} {w : World} (h : ¬ FlushGoes env w) :
    ∃ e w', flushWith env f w = (.error e, w') ∧ isLeaseError e = false ∧
      w'.db.broken = true := by
  by_cases husable : w.db.broken = false
  · by_cases hcut : (w.timed && env.cut w.ticks) = false
    · have hfails : env.flushFails (w.ticks + 1) = true :=
        Bool.eq_true_of_not_eq_false fun hf => h ⟨husable, hcut, hf⟩
      have hawait : Eff.attempt (suspend env) w = (.ok (.ok ()), w.tick) := by
        simp [Eff.attempt, suspend, hcut]
      refine ⟨.other "flush failed", { w.tick with db := w.db.abort }, ?_, by decide, rfl⟩
      simp [flushWith, Eff.read, bind, hawait, husable, hfails, abort, Eff.edit, throw, throwThe,
        MonadExceptOf.throw]
    · have hawait : Eff.attempt (suspend env) w = (.ok (.error .cancelled), w.tick) := by
        simp [Eff.attempt, suspend, hcut]
      refine ⟨.cancelled, { w.tick with db := w.db.abort }, ?_, rfl, rfl⟩
      simp [flushWith, Eff.read, bind, hawait, husable, abort, Eff.edit, throw, throwThe,
        MonadExceptOf.throw]
  · refine ⟨.other "PendingRollbackError", w, ?_, by decide, Bool.eq_true_of_not_eq_false husable⟩
    simp [flushWith, Eff.read, bind, husable, throw, throwThe, MonadExceptOf.throw]

theorem query_stops {α : Type} {f : Tables → α}
    (h : ¬ (w.db.broken = false ∧ (w.timed && env.cut w.ticks) = false)) :
    ∃ e w', query env f w = (.error e, w') ∧ isLeaseError e = false := by
  by_cases hcut : (w.timed && env.cut w.ticks) = false
  · have hawait : suspend env w = (.ok (), w.tick) := by simp [suspend, hcut]
    have hbroken : w.db.broken = true := Bool.eq_true_of_not_eq_false fun hb => h ⟨hb, hcut⟩
    refine ⟨.other "PendingRollbackError", w.tick, ?_, by decide⟩
    simp [query, bind, hawait, Eff.read, hbroken, throw, throwThe, MonadExceptOf.throw]
  · have hawait : suspend env w = (.error .cancelled, w.tick) := by simp [suspend, hcut]
    refine ⟨.cancelled, w.tick, ?_, rfl⟩
    simp [query, bind, hawait]

/-! ## The run -/

variable {k : SessionKey}

theorem loadedRun_goes {run : DailyWorkflowRun} (husable : w.db.broken = false)
    (hrun : w.db.working.runs.find? k = some run) : loadedRun k w = (.ok run, w) := by
  simp [loadedRun, bind, Eff.read, husable, hrun, pure]

theorem loadedRun_stops (h : w.db.broken = true) :
    loadedRun k w = (.error (.other "PendingRollbackError"), w) := by
  simp [loadedRun, bind, Eff.read, h, throw, throwThe, MonadExceptOf.throw]

theorem assignRun_goes {f : DailyWorkflowRun → DailyWorkflowRun}
    {hf : ∀ r, (f r).session = r.session} {run : DailyWorkflowRun} (husable : w.db.broken = false)
    (hrun : w.db.working.runs.find? k = some run) :
    assignRun k f hf w = (.ok (), { w with db := w.db.write (setRun k f hf) }) :=
  Eff.bind_of_ok (loadedRun_goes husable hrun)

theorem whenIn_goes {k : SessionKey} {state : DailyWorkflowState} {p : Prog Unit}
    {run : DailyWorkflowRun} {w : World} (husable : w.db.broken = false)
    (hrun : w.db.working.runs.find? k = some run) :
    whenIn k state p w = if run.currentState = state then p w else (.ok (), w) := by
  unfold whenIn
  rw [Eff.bind_of_ok (loadedRun_goes husable hrun)]
  split <;> rfl

theorem setState_goes {k : SessionKey} {toState : DailyWorkflowState} {trigger reason : String}
    {run : DailyWorkflowRun} {w : World} (hrun : w.db.working.runs.find? k = some run)
    (hallowed : Allowed run.currentState toState) (hrow : FlushGoes env w)
    (hend : FlushGoes env w.tick) :
    setState env k toState trigger reason w =
      (.ok (), { w.tick.tick with
        db := w.db.write (setRun k (·.enter toState trigger reason) fun _ => rfl) }) := by
  let row : WorkflowStateTransition :=
    { fromState := run.currentState, toState, trigger, reason }
  let db := (w.db.write (setRun k (·.record row) fun _ => rfl)).write
    (setRun k (·.assign toState reason) fun _ => rfl)
  have hdb : db = w.db.write (setRun k (·.enter toState trigger reason) fun _ => rfl) := by
    refine (write_setRun _ _).trans ?_
    exact congrArg (fun t : Tables => ({ w.db with working := t } : Session Tables))
      (setRun_congr hrun rfl)
  have hend' : FlushGoes env { w.tick with db } := hend.of_same rfl rfl rfl
  unfold setState
  rw [Eff.bind_of_ok (loadedRun_goes hrow.usable hrun), if_pos hallowed]
  unfold transition
  rw [Eff.bind_of_ok (flushWith_goes hrow)]
  show flushWith env id { w.tick with db } = _
  rw [flushWith_goes hend', ← hdb]
  rfl

theorem setState_stops {k : SessionKey} {toState : DailyWorkflowState} {trigger reason : String}
    {run : DailyWorkflowRun} {w : World} (hrun : w.db.working.runs.find? k = some run)
    (h : ¬ (Allowed run.currentState toState ∧ FlushGoes env w ∧ FlushGoes env w.tick)) :
    ∃ e w', setState env k toState trigger reason w = (.error e, w') ∧
      (Allowed run.currentState toState → w'.db.broken = true) := by
  by_cases husable : w.db.broken = false
  · unfold setState
    rw [Eff.bind_of_ok (loadedRun_goes husable hrun)]
    by_cases hallowed : Allowed run.currentState toState
    · rw [if_pos hallowed]
      unfold transition
      by_cases hrow : FlushGoes env w
      · rw [Eff.bind_of_ok (flushWith_goes hrow)]
        obtain ⟨e, w', hstop, _, hbroken⟩ := @flushWith_stops env id
          { w.tick with db := (w.db.write _).write _ } fun hend =>
            h ⟨hallowed, hrow, hend.of_same rfl rfl rfl⟩
        exact ⟨e, w', hstop, fun _ => hbroken⟩
      · obtain ⟨e, w', hstop, _, hbroken⟩ := flushWith_stops (f := setRun k (·.record
          { fromState := run.currentState, toState, trigger, reason }) fun _ => rfl) hrow
        exact ⟨e, w', Eff.bind_of_error hstop, fun _ => hbroken⟩
    · rw [if_neg hallowed]
      exact ⟨_, _, rfl, fun ha => absurd ha hallowed⟩
  · have hbroken : w.db.broken = true := Bool.eq_true_of_not_eq_false husable
    exact ⟨_, _, Eff.bind_of_error (loadedRun_stops hbroken), fun _ => hbroken⟩

/-! ## The release of a lease -/

variable {desk : Desk} {key : String}

/-- The release of a `finally` goes through: the row is read, and where it is the caller's own
    its deletion is flushed. -/
structure ReleaseGoes (env : Env) (desk : Desk) (key : String) (w : World) : Prop where
  usable : w.db.broken = false
  uncut : (w.timed && env.cut w.ticks) = false
  deleted : ∀ row, Dict.get? w.db.working.leases key = some row → row.owner = desk.owner →
    FlushGoes env w.tick

theorem releaseGoes_write {t : Tables} {w : World} (h : t.leases = w.db.working.leases) :
    ReleaseGoes env desk key { w with db := w.db.write fun _ => t } ↔
      ReleaseGoes env desk key w := by
  constructor
  · intro hr
    refine ⟨hr.usable, hr.uncut, fun row hrow hown => ?_⟩
    exact (hr.deleted row ((congrArg (Dict.get? · key) h).trans hrow) hown).of_same rfl rfl rfl
  · intro hr
    refine ⟨hr.usable, hr.uncut, fun row hrow hown => ?_⟩
    exact (hr.deleted row ((congrArg (Dict.get? · key) h.symm).trans hrow) hown).of_same rfl rfl rfl

theorem releaseQuietly_of_ok (h : releaseLease env desk key w = (.ok (), w')) :
    releaseQuietly env desk key w = (.ok (), w') :=
  Eff.tryCatch_of_ok h

theorem releaseQuietly_of_leaseError {e : Fault} (h : releaseLease env desk key w = (.error e, w'))
    (he : isLeaseError e) : releaseQuietly env desk key w = (.ok (), w') := by
  have hcaught : releaseQuietly env desk key w = _ := Eff.tryCatch_of_error h
  rw [hcaught, if_pos he]
  rfl

theorem releaseQuietly_of_error {e : Fault} (h : releaseLease env desk key w = (.error e, w'))
    (he : isLeaseError e = false) : releaseQuietly env desk key w = (.error e, w') := by
  have hcaught : releaseQuietly env desk key w = _ := Eff.tryCatch_of_error h
  rw [hcaught, if_neg (by simp [he])]
  rfl

theorem releaseQuietly_goes (h : ReleaseGoes env desk key w) :
    ∃ w', releaseQuietly env desk key w = (.ok (), w') ∧ w'.db.broken = false := by
  have hquery := query_goes (f := fun t => Dict.get? t.leases key) h.usable h.uncut
  cases hrow : Dict.get? w.db.working.leases key with
  | none =>
    rw [hrow] at hquery
    exact ⟨w.tick, releaseQuietly_of_ok (Eff.bind_of_ok hquery), h.usable⟩
  | some row =>
    rw [hrow] at hquery
    by_cases hown : row.owner = desk.owner
    · have hflush := flushWith_goes (f := fun t => { t with leases := Dict.erase t.leases key })
        (h.deleted row hrow hown)
      refine ⟨{ w.tick.tick with db := w.db.write fun t =>
        { t with leases := Dict.erase t.leases key } }, releaseQuietly_of_ok
          ((Eff.bind_of_ok hquery).trans ?_), h.usable⟩
      show (if row.owner ≠ desk.owner then _ else flushWith env _) _ = _
      rw [if_neg (by simp [hown])]
      exact hflush
    · refine ⟨w.tick, releaseQuietly_of_leaseError (e := leaseError "lease_owner_mismatch")
        ((Eff.bind_of_ok hquery).trans ?_) (by decide), h.usable⟩
      show (if row.owner ≠ desk.owner then _ else flushWith env _) _ = _
      rw [if_pos hown]
      rfl

theorem releaseQuietly_stops (h : ¬ ReleaseGoes env desk key w) :
    ∃ e w', releaseQuietly env desk key w = (.error e, w') := by
  by_cases hread : w.db.broken = false ∧ (w.timed && env.cut w.ticks) = false
  · have hquery := query_goes (f := fun t => Dict.get? t.leases key) hread.1 hread.2
    cases hrow : Dict.get? w.db.working.leases key with
    | none =>
      refine absurd ⟨hread.1, hread.2, fun row hr => ?_⟩ h
      rw [hrow] at hr
      cases hr
    | some row =>
      rw [hrow] at hquery
      by_cases hown : row.owner = desk.owner
      · have hflush : ¬ FlushGoes env w.tick := fun hf => h ⟨hread.1, hread.2, fun _ _ _ => hf⟩
        obtain ⟨e, w', hstop, he, _⟩ := flushWith_stops
          (f := fun t => { t with leases := Dict.erase t.leases key }) hflush
        refine ⟨e, w', releaseQuietly_of_error ((Eff.bind_of_ok hquery).trans ?_) he⟩
        show (if row.owner ≠ desk.owner then _ else flushWith env _) _ = _
        rw [if_neg (by simp [hown])]
        exact hstop
      · refine absurd ⟨hread.1, hread.2, fun row' hr how => ?_⟩ h
        rw [hrow] at hr
        obtain rfl := Option.some.inj hr
        exact absurd how hown
  · obtain ⟨e, w', hstop, he⟩ := query_stops (f := fun t => Dict.get? t.leases key) hread
    exact ⟨e, w', releaseQuietly_of_error (Eff.bind_of_error hstop) he⟩

end Goes

end Investor.Workflow
