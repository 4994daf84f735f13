import Investor.Core.Scheduler

/-!
# The stale-job reaper

A dispatch tick takes the time once, and that time is the `started_at` of every job of its
batch, though the jobs run one after another. `_reap_stale_running_jobs`, called from any other
session, fails a running row whose `started_at` lies more than the timeout and a minute back. So
what the reaper measures is not how long an action has been executing but how long ago its
dispatch began.

The dispatcher is a state machine of its own (`Dispatch`): time passes, the next job starts, an
action ends. A run interleaves its steps with the two halves of any number of reaper calls,
which read the rows, and write them later. Rows are rewritten as the session's unit of work
does: only the columns that differ from what the session loaded. Time is in ticks, `second` of
them a second.
-/

namespace Investor.Core.Reaper

open Lib Market

/-- `effective_job_action_timeout_seconds`, and the ticks of a second. -/
structure Limits where
  second : ℕ
  timeoutS : ℕ

def Limits.timeout (l : Limits) : Int := l.timeoutS * l.second

/-- How far back a `started_at` may lie. -/
def Limits.staleAfter (l : Limits) : Int := (l.timeoutS + 60) * l.second

/-! ## Rows -/

/-- The row after an `UPDATE` of the columns in which the session's object has changed. -/
def flushJob (loaded changed row : ScheduledJob) : ScheduledJob :=
  { row with
    status := if changed.status = loaded.status then row.status else changed.status,
    error := if changed.error = loaded.error then row.error else changed.error,
    plannedAt := if changed.plannedAt = loaded.plannedAt then row.plannedAt else changed.plannedAt,
    startedAt := if changed.startedAt = loaded.startedAt then row.startedAt else changed.startedAt,
    completedAt :=
      if changed.completedAt = loaded.completedAt then row.completedAt else changed.completedAt }

/-- An `UPDATE` by primary key. -/
def updateJob (id : ℕ) (f : ScheduledJob → ScheduledJob) (jobs : List ScheduledJob) :
    List ScheduledJob :=
  jobs.map fun j => if j.id = id then f j else j

def staleJobs (l : Limits) (now : Int) (jobs : List ScheduledJob) : List ScheduledJob :=
  jobs.filter fun j => j.status = "running" ∧ j.startedAt.any (· < now - l.staleAfter)

def reapedJob (l : Limits) (now : Int) (j : ScheduledJob) : ScheduledJob :=
  { j with
    status := "failed", error := some s!"stale_running_reaped:{l.timeoutS}s",
    completedAt := some (match j.startedAt with
      | some started => started + l.timeout
      | none => now) }

def reapJobs (l : Limits) (now : Int) (rows jobs : List ScheduledJob) : List ScheduledJob :=
  rows.foldl (fun acc j => updateJob j.id (flushJob j (reapedJob l now j)) acc) jobs

/-! ## The dispatcher -/

/-- The job whose action is executing: the session's object, and when the action began. -/
structure Running where
  job : ScheduledJob
  since : Int

/-- A dispatch tick: the time it took, the due jobs as loaded, and the job it is at. -/
structure Dispatch where
  clock : Int
  now : Int
  queue : List ScheduledJob
  current : Option Running

inductive ActionEnd
  | returned (reschedule : Option Int)
  | workflowError (message : String)
  | failed (message : String)
  deriving DecidableEq

inductive DispatchOp
  /-- Time passes. -/
  | wait (ticks : ℕ)
  /-- The next due job is marked running, that is committed, and its action begins. -/
  | start
  /-- The lease of the next due job is held. -/
  | skip
  /-- The action has ended, and its outcome is committed. -/
  | finish (ended : ActionEnd)
  deriving DecidableEq

def startedJob (now : Int) (j : ScheduledJob) : ScheduledJob :=
  { j with status := "running", startedAt := some now }

def Dispatch.starts (d : Dispatch) : DispatchOp → Option ScheduledJob
  | .start => if d.current.isNone then d.queue.head?.filter (·.status = "planned") else none
  | _ => none

def Dispatch.settles (d : Dispatch) : DispatchOp → Option (Running × ActionEnd)
  | .finish ended => d.current.map fun c => (c, ended)
  | _ => none

def Dispatch.step (d : Dispatch) : DispatchOp → Dispatch
  | .wait ticks => { d with clock := d.clock + ticks }
  | .start =>
    if d.current.isNone then
      { d with
        queue := d.queue.tail,
        current := (d.starts .start).map fun j => ⟨startedJob d.now j, d.clock⟩ }
    else d
  | .skip => if d.current.isNone then { d with queue := d.queue.tail } else d
  | .finish _ => { d with current := none }

section Outcomes

variable (l : Limits)

/-- The row of a job whose action has ended; `timed` when `wait_for` gave up on it. -/
def settleRow [Casing] (clock : Int) (job : ScheduledJob) (timed : Bool) (ended : ActionEnd)
    (row : ScheduledJob) : ScheduledJob :=
  if timed then
    let resume := hasPrefix (jobKeyBase job.jobKey) "postmarket_eval"
    { row with
      status := if resume then "planned" else "failed",
      error := some s!"job_action_timeout:{l.timeoutS}s", plannedAt := clock + 30 * l.second,
      startedAt := none, completedAt := if resume then row.completedAt else some clock }
  else
    match ended with
    | .returned none =>
      flushJob job { job with status := "completed", completedAt := some clock } row
    | .returned (some delay) =>
      flushJob job
        { job with
          status := "planned", plannedAt := clock + max 0 delay, startedAt := none,
          completedAt := none, error := none } row
    | .workflowError message =>
      let err := takeChars 500 message
      if rescheduleIntradayNotReady err then
        { row with
          status := "planned", error := some err, plannedAt := clock + 30 * l.second,
          startedAt := none }
      else { row with status := "skipped", error := some err, completedAt := some clock }
    | .failed message =>
      { row with
        status := "failed", error := some (takeChars 500 message), completedAt := some clock }

/-! ## The dispatcher and the reapers -/

/-- The dispatcher, the committed rows, and the reaper calls that have read and not yet
    written. `returned` lists the jobs whose action returned, with the status it asked for. -/
structure World where
  dispatch : Dispatch
  jobs : List ScheduledJob
  reaping : ℕ → Option (Int × List ScheduledJob)
  returned : List (ℕ × String)

inductive Op
  | dispatch (op : DispatchOp)
  /-- Reaper call `r` selects its rows, with a `now` taken `lag` ticks ago. -/
  | reapRead (r lag : ℕ)
  /-- Reaper call `r` writes and commits. -/
  | reapWrite (r : ℕ)
  deriving DecidableEq

/-- `wait_for` has given up on the action. -/
def TimedOut (d : Dispatch) (c : Running) : Prop := l.timeout < d.clock - c.since

instance (d : Dispatch) (c : Running) : Decidable (TimedOut l d c) :=
  inferInstanceAs (Decidable (_ < _))

def wantedStatus : ActionEnd → Option String
  | .returned none => some "completed"
  | .returned (some _) => some "planned"
  | _ => none

def World.dispatchStep [Casing] (w : World) (op : DispatchOp) : World :=
  let d := w.dispatch
  let jobs := match d.starts op with
    | some j => updateJob j.id (flushJob j (startedJob d.now j)) w.jobs
    | none => w.jobs
  match d.settles op with
  | some (c, ended) =>
    let timed := decide (TimedOut l d c)
    { w with
      dispatch := d.step op, jobs := updateJob c.job.id (settleRow l d.clock c.job timed ended) jobs,
      returned := match wantedStatus ended with
        | some status => if timed then w.returned else (c.job.id, status) :: w.returned
        | none => w.returned }
  | none => { w with dispatch := d.step op, jobs := jobs }

def World.step [Casing] (w : World) : Op → World
  | .dispatch op => w.dispatchStep l op
  | .reapRead r lag =>
    if (w.reaping r).isNone then
      let now := w.dispatch.clock - lag
      { w with reaping := Function.update w.reaping r (some (now, staleJobs l now w.jobs)) }
    else w
  | .reapWrite r =>
    match w.reaping r with
    | some (now, rows) =>
      { w with jobs := reapJobs l now rows w.jobs, reaping := Function.update w.reaping r none }
    | none => w

/-! ## What is promised -/

/-- Reaper call `r` has selected the job and is about to fail it. -/
def World.Reaps (w : World) (r id : ℕ) : Prop :=
  ∃ now rows, w.reaping r = some (now, rows) ∧ ∃ row ∈ rows, row.id = id

def World.Settled (w : World) : Prop :=
  ∀ id status, (id, status) ∈ w.returned → ∀ row ∈ w.jobs, row.id = id → row.status = status

/-- A step of a reaper does not fail a job whose action has been executing no longer than the
    timeout. -/
def World.SparesRunning (w : World) (op : Op) : Prop :=
  ∀ r c, op = .reapWrite r → w.dispatch.current = some c → ¬ TimedOut l w.dispatch c →
    ¬ w.Reaps r c.job.id

/-- **Every reaper step of the run spares the job that is executing, and in every state the jobs
    that returned are settled.** -/
def SafeRun [Casing] (w : World) (ops : List Op) : Prop :=
  ∀ pre post, ops = pre ++ post →
    (runFrom (World.step l) w pre).Settled ∧
    ∀ op rest, post = op :: rest → (runFrom (World.step l) w pre).SparesRunning l op

def Dispatch.InTime (d : Dispatch) : Prop :=
  ∀ c, d.current = some c → d.clock ≤ d.now + l.staleAfter

def WithinTimeout (d : Dispatch) (ops : List DispatchOp) : Prop :=
  ∀ pre, pre <+: ops → ∀ c, (runFrom Dispatch.step d pre).current = some c →
    ¬ TimedOut l (runFrom Dispatch.step d pre) c

/-- A dispatch about to run its due jobs, as it has just loaded them, and no reaper under way. -/
structure World.Fresh (w : World) : Prop where
  idle : w.dispatch.current = none
  distinct : (w.dispatch.queue.map (·.id)).Nodup
  loaded : ∀ j ∈ w.dispatch.queue, j.status = "planned" ∧ j ∈ w.jobs ∧
    ∀ row ∈ w.jobs, row.id = j.id → row = j
  reaping : ∀ r, w.reaping r = none
  returned : w.returned = []

/-! ## Updates of rows -/

variable {row : ScheduledJob} {now : Int} {rows : List ScheduledJob}

section Rows

variable {f : ScheduledJob → ScheduledJob} {jobs : List ScheduledJob} {id : ℕ}

@[simp] theorem settleRow_id [Casing] (clock : Int) (job : ScheduledJob) (timed : Bool) (ended : ActionEnd)
    (row : ScheduledJob) : (settleRow l clock job timed ended row).id = row.id := by
  unfold settleRow
  split
  · rfl
  · cases ended with
    | returned reschedule => cases reschedule <;> rfl
    | workflowError message =>
      simp only
      split <;> rfl
    | failed message => rfl

theorem mem_updateJob_of_ne (hf : ∀ j, (f j).id = j.id) (h : row ∈ updateJob id f jobs)
    (hne : row.id ≠ id) : row ∈ jobs := by
  obtain ⟨r, hr, rfl⟩ := List.mem_map.mp h
  by_cases hid : r.id = id
  · simp only [hid, if_true] at hne
    exact absurd ((hf r).trans hid) hne
  · simpa only [hid, if_false] using hr

theorem mem_updateJob_self (h : row ∈ updateJob id f jobs) (hid : row.id = id) :
    ∃ r ∈ jobs, r.id = id ∧ row = f r := by
  obtain ⟨r, hr, rfl⟩ := List.mem_map.mp h
  by_cases hr' : r.id = id
  · exact ⟨r, hr, hr', by rw [if_pos hr']⟩
  · rw [if_neg hr'] at hid
    exact absurd hid hr'

theorem updateJob_keeps {r : ScheduledJob} (h : r ∈ jobs) (hne : r.id ≠ id) :
    r ∈ updateJob id f jobs :=
  List.mem_map.mpr ⟨r, h, if_neg hne⟩

theorem updateJob_hits {r : ScheduledJob} (h : r ∈ jobs) (hid : r.id = id) :
    f r ∈ updateJob id f jobs :=
  List.mem_map.mpr ⟨r, h, if_pos hid⟩

theorem mem_reapJobs_of_other (h : row ∈ reapJobs l now rows jobs)
    (hother : ∀ r ∈ rows, r.id ≠ row.id) : row ∈ jobs := by
  unfold reapJobs at h
  induction rows generalizing jobs with
  | nil => exact h
  | cons r rows ih =>
    have htail := ih h fun r' hr' => hother r' (List.mem_cons_of_mem _ hr')
    refine mem_updateJob_of_ne (f := flushJob r (reapedJob l now r)) (fun _ => rfl) htail ?_
    exact fun heq => hother r List.mem_cons_self heq.symm

theorem reapJobs_keeps (h : row ∈ jobs) (hother : ∀ r ∈ rows, r.id ≠ row.id) :
    row ∈ reapJobs l now rows jobs := by
  unfold reapJobs
  induction rows generalizing jobs with
  | nil => exact h
  | cons r rows ih =>
    refine ih (updateJob_keeps h ?_) fun r' hr' => hother r' (List.mem_cons_of_mem _ hr')
    exact fun heq => hother r List.mem_cons_self heq.symm

end Rows

/-! ## The invariant -/

/-- **What the dispatcher relies on.** No reaper is after a job of the batch; a job still queued
    is as it was loaded; the row of the job at work is running since the dispatch began; every
    other job of the batch is over, and settled if its action returned. -/
structure Tended (batch : List ℕ) (w : World) : Prop where
  clean : ∀ r now rows, w.reaping r = some (now, rows) → ∀ row ∈ rows, row.id ∉ batch
  distinct : (w.dispatch.queue.map (·.id)).Nodup
  queued : ∀ j ∈ w.dispatch.queue, j.id ∈ batch ∧ j.status = "planned" ∧ j ∈ w.jobs ∧
    ∀ row ∈ w.jobs, row.id = j.id → row = j
  running : ∀ c, w.dispatch.current = some c → c.job.id ∈ batch ∧ c.job.status = "running" ∧
    c.job.id ∉ w.dispatch.queue.map (·.id) ∧ (∃ row ∈ w.jobs, row.id = c.job.id) ∧
    ∀ row ∈ w.jobs, row.id = c.job.id →
      row.status = "running" ∧ row.startedAt = some w.dispatch.now
  ended : ∀ id ∈ batch, id ∉ w.dispatch.queue.map (·.id) →
    (∀ c, w.dispatch.current = some c → c.job.id ≠ id) →
    ∀ row ∈ w.jobs, row.id = id → row.status ≠ "running"
  settled : ∀ id status, (id, status) ∈ w.returned →
    id ∈ batch ∧ id ∉ w.dispatch.queue.map (·.id) ∧
    (∀ c, w.dispatch.current = some c → c.job.id ≠ id) ∧
    ∀ row ∈ w.jobs, row.id = id → row.status = status

variable {l}

theorem World.Fresh.tended {w : World} (h : w.Fresh) :
    Tended (w.dispatch.queue.map (·.id)) w where
  clean := fun r now rows hr => by
    rw [h.reaping r] at hr
    cases hr
  distinct := h.distinct
  queued := fun j hj => ⟨List.mem_map_of_mem hj, h.loaded j hj⟩
  running := fun c hc => by
    rw [h.idle] at hc
    cases hc
  ended := fun id hid hnot => absurd hid hnot
  settled := fun id status hmem => by
    rw [h.returned] at hmem
    cases hmem

/-! ## One step -/

variable {batch : List ℕ} {w : World}

/-- The jobs that returned, after the action of `c` has ended. -/
def World.returnedAfter (l : Limits) (w : World) (c : Running) (ended : ActionEnd) :
    List (ℕ × String) :=
  match wantedStatus ended with
  | some status =>
    if decide (TimedOut l w.dispatch c) then w.returned else (c.job.id, status) :: w.returned
  | none => w.returned

theorem dispatchStep_cases [Casing] (w : World) (op : DispatchOp) :
    (∃ clock, w.dispatchStep l op = { w with dispatch := { w.dispatch with clock := clock } }) ∨
    (w.dispatch.current = none ∧ w.dispatchStep l op =
      { w with dispatch := { w.dispatch with queue := w.dispatch.queue.tail } }) ∨
    (∃ j rest, w.dispatch.current = none ∧ w.dispatch.queue = j :: rest ∧ j.status = "planned" ∧
      w.dispatchStep l op =
        { w with
          dispatch :=
            { w.dispatch with
              queue := rest, current := some ⟨startedJob w.dispatch.now j, w.dispatch.clock⟩ },
          jobs := updateJob j.id (flushJob j (startedJob w.dispatch.now j)) w.jobs }) ∨
    (∃ c ended, w.dispatch.current = some c ∧ op = .finish ended ∧ w.dispatchStep l op =
      { w with
        dispatch := { w.dispatch with current := none },
        jobs := updateJob c.job.id
          (settleRow l w.dispatch.clock c.job (decide (TimedOut l w.dispatch c)) ended) w.jobs,
        returned := w.returnedAfter l c ended }) := by
  obtain ⟨⟨clock, now, queue, current⟩, jobs, reaping, returned⟩ := w
  cases op with
  | wait ticks => exact Or.inl ⟨clock + ticks, rfl⟩
  | skip =>
    cases current with
    | some c => exact Or.inl ⟨clock, rfl⟩
    | none => exact Or.inr (Or.inl ⟨rfl, rfl⟩)
  | finish ended =>
    cases current with
    | none => exact Or.inl ⟨clock, rfl⟩
    | some c => exact Or.inr (Or.inr (Or.inr ⟨c, ended, rfl, rfl, rfl⟩))
  | start =>
    cases current with
    | some c => exact Or.inl ⟨clock, rfl⟩
    | none =>
      cases queue with
      | nil => exact Or.inr (Or.inl ⟨rfl, rfl⟩)
      | cons j rest =>
        by_cases hplanned : j.status = "planned"
        · refine Or.inr (Or.inr (Or.inl ⟨j, rest, rfl, rfl, hplanned, ?_⟩))
          simp [World.dispatchStep, Dispatch.starts, Dispatch.settles, Dispatch.step, hplanned,
            Option.filter]
        · refine Or.inr (Or.inl ⟨rfl, ?_⟩)
          simp [World.dispatchStep, Dispatch.starts, Dispatch.settles, Dispatch.step, hplanned,
            Option.filter]

theorem Tended.clock (h : Tended batch w) (clock : Int) :
    Tended batch { w with dispatch := { w.dispatch with clock := clock } } :=
  ⟨h.clean, h.distinct, h.queued, h.running, h.ended, h.settled⟩

theorem Tended.drop (h : Tended batch w) (hidle : w.dispatch.current = none) :
    Tended batch { w with dispatch := { w.dispatch with queue := w.dispatch.queue.tail } } where
  clean := h.clean
  distinct := by
    have hsub := (List.tail_sublist w.dispatch.queue).map (·.id)
    exact hsub.nodup h.distinct
  queued := fun j hj => h.queued j (List.mem_of_mem_tail hj)
  running := fun c hc => by
    rw [hidle] at hc
    cases hc
  ended := fun id hid hnot hcur row hrow heq => by
    by_cases hin : id ∈ w.dispatch.queue.map (·.id)
    · obtain ⟨j, hj, rfl⟩ := List.mem_map.mp hin
      obtain ⟨-, hplanned, -, hrows⟩ := h.queued j hj
      rw [hrows row hrow heq, hplanned]
      decide
    · exact h.ended id hid hin hcur row hrow heq
  settled := fun id status hmem => by
    obtain ⟨hbatch, hnot, hcur, hrows⟩ := h.settled id status hmem
    refine ⟨hbatch, fun hin => hnot ?_, hcur, hrows⟩
    obtain ⟨j, hj, hid⟩ := List.mem_map.mp hin
    exact List.mem_map.mpr ⟨j, List.mem_of_mem_tail hj, hid⟩

theorem Tended.start (h : Tended batch w) {j : ScheduledJob} {rest : List ScheduledJob}
    (hidle : w.dispatch.current = none) (hqueue : w.dispatch.queue = j :: rest) :
    Tended batch
      { w with
        dispatch :=
          { w.dispatch with
            queue := rest, current := some ⟨startedJob w.dispatch.now j, w.dispatch.clock⟩ },
        jobs := updateJob j.id (flushJob j (startedJob w.dispatch.now j)) w.jobs } := by
  have hdistinct := h.distinct
  rw [hqueue] at hdistinct
  have hfresh : j.id ∉ rest.map (·.id) := (List.nodup_cons.mp hdistinct).1
  obtain ⟨hbatch, hplanned, hmem, hrows⟩ := h.queued j (hqueue ▸ List.mem_cons_self)
  have hother : ∀ row, row ∈ updateJob j.id (flushJob j (startedJob w.dispatch.now j)) w.jobs →
      row.id ≠ j.id → row ∈ w.jobs :=
    fun row hrow hne => mem_updateJob_of_ne
      (f := flushJob j (startedJob w.dispatch.now j)) (fun _ => rfl) hrow hne
  have hqueued : ∀ id, id ∉ rest.map (·.id) → id ≠ j.id → id ∉ w.dispatch.queue.map (·.id) := by
    intro id hnot hne hin
    rw [hqueue, List.map_cons, List.mem_cons] at hin
    exact hin.elim hne hnot
  constructor
  case clean => exact h.clean
  case distinct => exact (List.nodup_cons.mp hdistinct).2
  case queued =>
    intro j' hj'
    have hne : j'.id ≠ j.id := fun heq => hfresh (heq ▸ List.mem_map_of_mem hj')
    obtain ⟨hb, hp, hm, hr⟩ := h.queued j' (hqueue ▸ List.mem_cons_of_mem _ hj')
    refine ⟨hb, hp, updateJob_keeps hm hne, fun row hrow heq => hr row (hother row hrow ?_) heq⟩
    rwa [heq]
  case running =>
    intro c hc
    obtain rfl := Option.some.inj hc
    refine ⟨hbatch, rfl, hfresh, ⟨_, updateJob_hits hmem rfl, rfl⟩, ?_⟩
    intro row hrow heq
    obtain ⟨r, hr, hid, rfl⟩ := mem_updateJob_self hrow heq
    have hloaded := hrows r hr hid
    subst hloaded
    have hstarted : (flushJob r (startedJob w.dispatch.now r) r).startedAt =
        some w.dispatch.now := by
      by_cases hsame : some w.dispatch.now = r.startedAt
      · exact (if_pos hsame).trans hsame.symm
      · exact if_neg hsame
    refine ⟨?_, hstarted⟩
    simp [flushJob, startedJob, hplanned]
  case ended =>
    intro id hid hnot hcur row hrow heq
    have hne : id ≠ j.id := fun h' => hcur _ rfl h'.symm
    refine h.ended id hid (hqueued id hnot hne) ?_ row (hother row hrow (heq ▸ hne)) heq
    intro c hc
    rw [hidle] at hc
    cases hc
  case settled =>
    intro id status hret
    obtain ⟨hb, hnot, -, hst⟩ := h.settled id status hret
    rw [hqueue, List.map_cons, List.mem_cons, not_or] at hnot
    refine ⟨hb, hnot.2, ?_, fun row hrow heq => hst row (hother row hrow (heq ▸ hnot.1)) heq⟩
    intro c hc
    obtain rfl := Option.some.inj hc
    exact fun heq => hnot.1 heq.symm

variable {ended : ActionEnd}

theorem settleRow_status [Casing] {clock : Int} {job : ScheduledJob} {timed : Bool}
    (hjob : job.status = "running") :
    (settleRow l clock job timed ended row).status ≠ "running" := by
  unfold settleRow
  split
  · simp only
    split <;> decide
  · cases ended with
    | returned reschedule => cases reschedule <;> simp [flushJob, hjob]
    | workflowError message =>
      simp only
      split <;> simp
    | failed message => simp

theorem settleRow_wanted [Casing] {clock : Int} {job : ScheduledJob} {status : String}
    (hjob : job.status = "running") (hwanted : wantedStatus ended = some status) :
    (settleRow l clock job false ended row).status = status := by
  cases ended with
  | returned reschedule => cases reschedule <;> cases hwanted <;> simp [settleRow, flushJob, hjob]
  | workflowError message => cases hwanted
  | failed message => cases hwanted

variable {c : Running}

theorem mem_returnedAfter {id : ℕ} {status : String} (h : (id, status) ∈ w.returnedAfter l c ended) :
    (id, status) ∈ w.returned ∨
      (id = c.job.id ∧ wantedStatus ended = some status ∧ ¬ TimedOut l w.dispatch c) := by
  unfold World.returnedAfter at h
  cases hwanted : wantedStatus ended with
  | none =>
    rw [hwanted] at h
    exact Or.inl h
  | some wanted =>
    rw [hwanted] at h
    by_cases htimed : TimedOut l w.dispatch c
    · simp only [htimed, decide_true, if_true] at h
      exact Or.inl h
    · simp only [htimed, decide_false, Bool.false_eq_true, if_false] at h
      rcases List.mem_cons.mp h with heq | hold
      · obtain ⟨rfl, rfl⟩ := Prod.mk.injEq .. ▸ heq
        exact Or.inr ⟨rfl, rfl, htimed⟩
      · exact Or.inl hold

theorem Tended.finish [Casing] (h : Tended batch w) (hcurrent : w.dispatch.current = some c) :
    Tended batch
      { w with
        dispatch := { w.dispatch with current := none },
        jobs := updateJob c.job.id
          (settleRow l w.dispatch.clock c.job (decide (TimedOut l w.dispatch c)) ended) w.jobs,
        returned := w.returnedAfter l c ended } := by
  obtain ⟨hbatch, hstatus, hnot, -, -⟩ := h.running c hcurrent
  have hother : ∀ row, row ∈ updateJob c.job.id
      (settleRow l w.dispatch.clock c.job (decide (TimedOut l w.dispatch c)) ended) w.jobs →
      row.id ≠ c.job.id → row ∈ w.jobs :=
    fun row hrow hne => mem_updateJob_of_ne
      (f := settleRow l w.dispatch.clock c.job (decide (TimedOut l w.dispatch c)) ended)
      (fun _ => settleRow_id ..) hrow hne
  have hcur : ∀ id, id ≠ c.job.id → ∀ c', w.dispatch.current = some c' → c'.job.id ≠ id := by
    intro id hne c' hc'
    rw [hcurrent] at hc'
    cases hc'
    exact hne.symm
  constructor
  case clean => exact h.clean
  case distinct => exact h.distinct
  case queued =>
    intro j hj
    have hne : j.id ≠ c.job.id := fun heq => hnot (heq ▸ List.mem_map_of_mem hj)
    obtain ⟨hb, hp, hm, hr⟩ := h.queued j hj
    refine ⟨hb, hp, updateJob_keeps hm hne, fun row hrow heq => hr row (hother row hrow ?_) heq⟩
    rwa [heq]
  case running =>
    intro c' hc'
    cases hc'
  case ended =>
    intro id hid hnotq _ row hrow heq
    by_cases hne : id = c.job.id
    · obtain ⟨r, -, -, rfl⟩ := mem_updateJob_self hrow (heq.trans hne)
      exact settleRow_status hstatus
    · exact h.ended id hid hnotq (hcur id hne) row (hother row hrow (heq ▸ hne)) heq
  case settled =>
    intro id status hret
    rcases mem_returnedAfter hret with hold | ⟨rfl, hwanted, htimed⟩
    · obtain ⟨hb, hnotq, hc, hst⟩ := h.settled id status hold
      have hne : id ≠ c.job.id := (hc c hcurrent).symm
      refine ⟨hb, hnotq, ?_, fun row hrow heq => hst row (hother row hrow (heq ▸ hne)) heq⟩
      intro c' hc'
      cases hc'
    · refine ⟨hbatch, hnot, ?_, fun row hrow heq => ?_⟩
      · intro c' hc'
        cases hc'
      obtain ⟨r, -, -, rfl⟩ := mem_updateJob_self hrow heq
      rw [decide_eq_false htimed]
      exact settleRow_wanted hstatus hwanted

/-- Every step of the dispatcher keeps the batch tended. -/
theorem Tended.dispatchStep [Casing] (h : Tended batch w) (op : DispatchOp) :
    Tended batch (w.dispatchStep l op) := by
  rcases dispatchStep_cases (l := l) w op with
    ⟨clock, heq⟩ | ⟨hidle, heq⟩ | ⟨j, rest, hidle, hqueue, -, heq⟩ | ⟨c, ended, hcurrent, -, heq⟩
  · rw [heq]
    exact h.clock clock
  · rw [heq]
    exact h.drop hidle
  · rw [heq]
    exact h.start hidle hqueue
  · rw [heq]
    exact h.finish hcurrent

theorem Tended.reapRead (h : Tended batch w) (htime : w.dispatch.InTime l) (r lag : ℕ) :
    Tended batch
      { w with
        reaping := Function.update w.reaping r
          (some (w.dispatch.clock - lag, staleJobs l (w.dispatch.clock - lag) w.jobs)) } := by
  refine ⟨?_, h.distinct, h.queued, h.running, h.ended, h.settled⟩
  intro r' now rows hr row hrow hbatch
  by_cases hrr : r' = r
  · subst hrr
    simp only [Function.update_self, Option.some.injEq, Prod.mk.injEq] at hr
    obtain ⟨rfl, rfl⟩ := hr
    obtain ⟨hjob, hstale⟩ := List.mem_filter.mp hrow
    simp only [Bool.decide_and, Bool.and_eq_true, decide_eq_true_eq] at hstale
    -- a row that is running belongs to the job at work, and that one is too young
    by_cases hqueued : row.id ∈ w.dispatch.queue.map (·.id)
    · obtain ⟨j, hj, hid⟩ := List.mem_map.mp hqueued
      obtain ⟨-, hplanned, -, hrows⟩ := h.queued j hj
      have hrunning := hstale.1
      rw [hrows row hjob hid.symm, hplanned] at hrunning
      exact absurd hrunning (by decide)
    · cases hcurrent : w.dispatch.current with
      | none =>
        exact h.ended row.id hbatch hqueued (fun c hc => by rw [hcurrent] at hc; cases hc) row hjob
          rfl hstale.1
      | some c =>
        by_cases hid : c.job.id = row.id
        · obtain ⟨-, -, -, -, hrows⟩ := h.running c hcurrent
          have hstarted := (hrows row hjob hid.symm).2
          have hin := htime c hcurrent
          have hlate := hstale.2
          rw [hstarted] at hlate
          simp only [Option.any_some, decide_eq_true_eq] at hlate
          omega
        · refine h.ended row.id hbatch hqueued (fun c' hc' => ?_) row hjob rfl hstale.1
          rw [hcurrent] at hc'
          cases hc'
          exact hid
  · simp only [Function.update_of_ne hrr] at hr
    exact h.clean r' now rows hr row hrow hbatch

theorem Tended.reapWrite (h : Tended batch w) {r : ℕ} (hr : w.reaping r = some (now, rows)) :
    Tended batch
      { w with jobs := reapJobs l now rows w.jobs,
               reaping := Function.update w.reaping r none } := by
  have hclean := h.clean r now rows hr
  have hback : ∀ id ∈ batch, ∀ row ∈ reapJobs l now rows w.jobs, row.id = id → row ∈ w.jobs :=
    fun id hid row hrow heq => mem_reapJobs_of_other l hrow fun r' hr' heq' =>
      hclean r' hr' ((heq'.trans heq).symm ▸ hid)
  have hforth : ∀ row ∈ w.jobs, row.id ∈ batch → row ∈ reapJobs l now rows w.jobs :=
    fun row hrow hid => reapJobs_keeps l hrow fun r' hr' heq' => hclean r' hr' (heq' ▸ hid)
  constructor
  case clean =>
    intro r' now' rows' hr'
    by_cases hrr : r' = r
    · subst hrr
      simp at hr'
    · simp only [Function.update_of_ne hrr] at hr'
      exact h.clean r' now' rows' hr'
  case distinct => exact h.distinct
  case queued =>
    intro j hj
    obtain ⟨hb, hp, hm, hrows⟩ := h.queued j hj
    exact ⟨hb, hp, hforth j hm hb, fun row hrow heq => hrows row (hback j.id hb row hrow heq) heq⟩
  case running =>
    intro c hc
    obtain ⟨hb, hs, hq, ⟨row, hrow, hid⟩, hrows⟩ := h.running c hc
    exact ⟨hb, hs, hq, ⟨row, hforth row hrow (hid ▸ hb), hid⟩,
      fun row hrow heq => hrows row (hback _ hb row hrow heq) heq⟩
  case ended =>
    exact fun id hid hq hc row hrow heq =>
      h.ended id hid hq hc row (hback id hid row hrow heq) heq
  case settled =>
    intro id status hret
    obtain ⟨hb, hq, hc, hst⟩ := h.settled id status hret
    exact ⟨hb, hq, hc, fun row hrow heq => hst row (hback id hb row hrow heq) heq⟩

def World.ReadsInTime (l : Limits) (w : World) (op : Op) : Prop :=
  ∀ r lag, op = .reapRead r lag → w.dispatch.InTime l

section

variable [Casing]

theorem Tended.step (h : Tended batch w) {op : Op} (htime : w.ReadsInTime l op) :
    Tended batch (w.step l op) := by
  cases op with
  | dispatch op => exact h.dispatchStep op
  | reapRead r lag =>
    simp only [World.step]
    split
    · exact h.reapRead (htime r lag rfl) r lag
    · exact h
  | reapWrite r =>
    simp only [World.step]
    split
    · rename_i now rows hr
      exact h.reapWrite hr
    · exact h

variable {ops : List Op}

theorem Tended.run (h : Tended batch w)
    (htime : StepsMeet (World.step l) (World.ReadsInTime l) w ops) :
    Tended batch (runFrom (World.step l) w ops) :=
  run_invariant_of_meets (fun _ _ hw hop => hw.step hop) h htime

theorem Tended.safeRun (h : Tended batch w)
    (htime : StepsMeet (World.step l) (World.ReadsInTime l) w ops) : SafeRun l w ops := by
  intro pre post hops
  subst hops
  have hpre := h.run (StepsMeet.append_iff.mp htime).1
  refine ⟨fun id status hret => (hpre.settled id status hret).2.2.2, ?_⟩
  intro op rest _ r c _ hcurrent _ hreaps
  obtain ⟨now, rows, hr, row, hrow, hid⟩ := hreaps
  exact hpre.clean r now rows hr row hrow (hid ▸ (hpre.running c hcurrent).1)

/-! ## The schedule decides -/

def Op.dispatch? : Op → Option DispatchOp
  | .dispatch op => some op
  | _ => none

theorem dispatch_dispatchStep (w : World) (op : DispatchOp) :
    (w.dispatchStep l op).dispatch = w.dispatch.step op := by
  unfold World.dispatchStep
  simp only
  split <;> rfl

theorem reaping_dispatchStep (w : World) (op : DispatchOp) :
    (w.dispatchStep l op).reaping = w.reaping := by
  unfold World.dispatchStep
  simp only
  split <;> rfl

theorem dispatch_step (w : World) (op : Op) :
    (w.step l op).dispatch = runFrom Dispatch.step w.dispatch op.dispatch?.toList := by
  cases op with
  | dispatch op => exact dispatch_dispatchStep w op
  | reapRead r lag =>
    simp only [World.step]
    split <;> rfl
  | reapWrite r =>
    simp only [World.step]
    split <;> rfl

theorem dispatch_run (w : World) (ops : List Op) :
    (runFrom (World.step l) w ops).dispatch =
      runFrom Dispatch.step w.dispatch (ops.filterMap Op.dispatch?) := by
  induction ops generalizing w with
  | nil => rfl
  | cons op ops ih =>
    rw [runFrom_cons, ih, dispatch_step, ← runFrom_append]
    cases hop : op.dispatch? <;> simp [hop]

def ScheduleInTime (l : Limits) (d : Dispatch) (ops : List DispatchOp) : Prop :=
  ∀ pre, pre <+: ops → (runFrom Dispatch.step d pre).InTime l

theorem readsInTime_of_schedule (h : ScheduleInTime l w.dispatch (ops.filterMap Op.dispatch?)) :
    StepsMeet (World.step l) (World.ReadsInTime l) w ops := by
  induction ops generalizing w with
  | nil => trivial
  | cons op ops ih =>
    refine ⟨fun r lag hop => ?_, ih ?_⟩
    · exact h [] List.nil_prefix
    · intro pre hpre
      have hfirst := h (op.dispatch?.toList ++ pre) (by
        rw [List.filterMap_cons]
        cases op.dispatch? with
        | none => exact hpre
        | some o => exact List.prefix_cons_inj o |>.mpr hpre)
      rw [runFrom_append, ← dispatch_step (l := l)] at hfirst
      exact hfirst

end

theorem filterMap_dispatch (ops : List DispatchOp) :
    (ops.map Op.dispatch).filterMap Op.dispatch? = ops := by
  induction ops with
  | nil => rfl
  | cons op ops ih => simpa [Op.dispatch?] using ih

variable [Casing]

theorem alone_readsInTime (w : World) (ops : List DispatchOp) :
    StepsMeet (World.step l) (World.ReadsInTime l) w (ops.map Op.dispatch) := by
  induction ops generalizing w with
  | nil => trivial
  | cons op ops ih =>
    refine ⟨?_, ih _⟩
    intro r lag h
    cases h

theorem alone_reaping (w : World) (ops : List DispatchOp) :
    (runFrom (World.step l) w (ops.map Op.dispatch)).reaping = w.reaping := by
  induction ops generalizing w with
  | nil => rfl
  | cons op ops ih =>
    rw [List.map_cons, runFrom_cons, ih]
    exact reaping_dispatchStep w op

/-- A batch that runs longer than the threshold is reaped while it runs. -/
theorem not_safeRun_of_late (hfresh : w.Fresh) {pre : List DispatchOp} (post : List DispatchOp)
    (hcurrent : (runFrom Dispatch.step w.dispatch pre).current = some c)
    (hlate : (runFrom Dispatch.step w.dispatch pre).now + l.staleAfter <
      (runFrom Dispatch.step w.dispatch pre).clock)
    (htimeout : ¬ TimedOut l (runFrom Dispatch.step w.dispatch pre) c) :
    ¬ SafeRun l w ((pre.map Op.dispatch ++ [.reapRead 0 0]) ++ .reapWrite 0 ::
      post.map Op.dispatch) := by
  intro hsafe
  have htended := hfresh.tended.run (alone_readsInTime (l := l) w pre)
  have hreaping := alone_reaping (l := l) w pre
  have hdispatch := dispatch_run (l := l) w (pre.map Op.dispatch)
  rw [filterMap_dispatch] at hdispatch
  rw [← hdispatch] at hcurrent hlate htimeout
  have hspares := (hsafe _ _ rfl).2 _ _ rfl
  rw [runFrom_append] at hspares
  obtain ⟨-, -, -, ⟨row, hrow, hid⟩, hrows⟩ := htended.running c hcurrent
  revert hspares
  generalize runFrom (World.step l) w (pre.map Op.dispatch) = v at *
  intro hspares
  -- the row at work is running, and its `started_at` is the time the dispatch took
  have hread : v.step l (.reapRead 0 0) =
      { v with
        reaping := Function.update v.reaping 0
          (some (v.dispatch.clock - (0 : ℕ), staleJobs l (v.dispatch.clock - (0 : ℕ)) v.jobs)) } := by
    simp only [World.step, hreaping, hfresh.reaping 0, Option.isNone_none, if_true]
  rw [runFrom_cons, runFrom_nil, hread] at hspares
  refine hspares 0 c rfl hcurrent htimeout
    ⟨v.dispatch.clock - (0 : ℕ), staleJobs l (v.dispatch.clock - (0 : ℕ)) v.jobs,
      by simp only [Function.update_self], row, ?_, hid⟩
  obtain ⟨hstatus, hstarted⟩ := hrows row hrow hid
  refine List.mem_filter.mpr ⟨hrow, ?_⟩
  simp only [hstatus, hstarted, Option.any_some, decide_eq_true_eq, true_and]
  push_cast
  omega

/-- **When reapers spare the running job.** Take any batch of due jobs and any schedule of their
    actions in which none executes longer than the timeout. Every interleaving with reaper calls
    is safe if and only if no action of the schedule is still executing more than the timeout
    and a minute after the time its dispatch took. -/
theorem reapers_spare_iff {w : World} (hfresh : w.Fresh) {ops : List DispatchOp}
    (htimeout : WithinTimeout l w.dispatch ops) :
    (∀ run : List Op, run.filterMap Op.dispatch? = ops → SafeRun l w run) ↔
      ScheduleInTime l w.dispatch ops := by
  constructor
  · intro hsafe pre hpre c hcurrent
    by_contra hlate
    obtain ⟨post, rfl⟩ := hpre
    refine not_safeRun_of_late hfresh post hcurrent (not_le.mp hlate)
      (htimeout pre (List.prefix_append _ _) c hcurrent) (hsafe _ ?_)
    simp only [List.filterMap_append, filterMap_dispatch, List.filterMap_cons, List.filterMap_nil,
      Op.dispatch?, List.append_nil]
  · intro htime run hrun
    subst hrun
    exact hfresh.tended.safeRun (readsInTime_of_schedule htime)

end Outcomes

/-! ## Two jobs of one batch -/

section Sample

attribute [local instance] asciiCasing

def dueJob (id : ℕ) (key : String) : ScheduledJob :=
  { id := id, jobKey := key, status := "planned", error := none, plannedAt := 0,
    startedAt := none, completedAt := none }

def twoJobs : World :=
  { dispatch :=
      { clock := 0, now := 0, queue := [dueJob 0 "US:intraday_eval", dueJob 1 "AU:intraday_eval"],
        current := none },
    jobs := [dueJob 0 "US:intraday_eval", dueJob 1 "AU:intraday_eval"], reaping := fun _ => none,
    returned := [] }

def eightMinutes : Limits := { second := 1, timeoutS := 480 }

theorem twoJobs_fresh : twoJobs.Fresh where
  idle := rfl
  distinct := by decide
  loaded := by
    intro j hj
    rcases List.mem_cons.mp hj with rfl | hj
    · exact ⟨rfl, List.mem_cons_self, by simp [twoJobs, dueJob]⟩
    · obtain rfl := List.mem_singleton.mp hj
      exact ⟨rfl, by simp [twoJobs], by simp [twoJobs, dueJob]⟩
  reaping := fun _ => rfl
  returned := rfl

theorem withinTimeout_of_inits {l : Limits} {d : Dispatch} {ops : List DispatchOp}
    (h : ∀ pre ∈ ops.inits, (runFrom Dispatch.step d pre).current.all fun c =>
      decide (¬ TimedOut l (runFrom Dispatch.step d pre) c)) : WithinTimeout l d ops := by
  intro pre hpre c hc
  have hall := h pre ((List.mem_inits pre ops).mpr hpre)
  rw [hc] at hall
  simpa using hall

def tenMinutes : List DispatchOp :=
  [.start, .wait 420, .finish (.returned none), .start, .wait 180]

/-- **The second job of a batch is reaped after three minutes.** -/
theorem second_job_reaped :
    WithinTimeout eightMinutes twoJobs.dispatch tenMinutes ∧
    ¬ SafeRun eightMinutes twoJobs
      ((tenMinutes.map Op.dispatch ++ [.reapRead 0 0]) ++ .reapWrite 0 :: [].map Op.dispatch) :=
  ⟨withinTimeout_of_inits (by decide),
    not_safeRun_of_late twoJobs_fresh [] (c := ⟨startedJob 0 (dueJob 1 "AU:intraday_eval"), 420⟩)
      rfl (by decide) (by decide)⟩

theorem reapers_spare_iff_ten_minutes :
    (∀ run : List Op, run.filterMap Op.dispatch? = tenMinutes →
        SafeRun eightMinutes twoJobs run) ↔
      ScheduleInTime eightMinutes twoJobs.dispatch tenMinutes :=
  reapers_spare_iff twoJobs_fresh (withinTimeout_of_inits (by decide))

end Sample

end Investor.Core.Reaper
