import Investor.Workflow.Undisturbed

/-!
# Which sessions are caught up

`retry_incomplete_postmarket` is there so that a session that closed and was never reviewed is not
abandoned. The scheduler calls it with no date, and the dates it tries are counted, not looked up:
the market's day of the call, and the day before.

Whether a call comes to `run_postmarket` of a session is said from outside: the review is a
parameter of the retry (`retryWith`), and a call comes to it if whatever it raised would come out
of the call (`Attempts`). A session is attempted on the very next day or not at all
(`attempts_iff`), so that what is left on a Friday stays, unless somebody calls on Saturday.
-/

namespace Investor.Workflow

open Lib Schema Market Core

section Retries

variable (env : Env) (desk : Desk)

/-! ## Retries of any review -/

def Desk.sessionKey (desk : Desk) (day : Int) : SessionKey :=
  { sessionDate := day, calendarName := desk.calendarName }

def DailyWorkflowState.isUnreviewed (s : DailyWorkflowState) : Bool :=
  s = .closingWindow || s = .marketClosed || s = .postmarketReview

/-- `_retry_incomplete_postmarket_one`, by the review it goes on to. -/
def retryOneWith (review : SessionKey → Prog Unit) (now day : Int) : Prog Bool := do
  let k : SessionKey := desk.sessionKey day
  let found ← getCurrent env k
  match found with
  | none => return false
  | some run =>
    if !run.currentState.isUnreviewed then return false
    else if desk.calendar.marketDay now ≤ day &&
        !POSTMARKET_EVAL_PHASES.contains (desk.calendar.status now).phase then return false
    else if youngerThan (5 * 60) now run.metadata "last_postmarket_retry_at" then return false
    else do
      editMeta k fun m => Dict.set m "last_postmarket_retry_at" (stamp now)
      flushWith env id
      review k
      callService env desk.jobRows
      return true

/-- `retry_incomplete_postmarket` without a date, by the review it goes on to. -/
def retryWith (review : SessionKey → Prog Unit) (now : Int) : Prog Unit := do
  let done ← retryOneWith env desk review now (desk.calendar.marketDay now)
  if done then return ()
  else do
    let _ ← retryOneWith env desk review now (desk.calendar.marketDay now - 1)
    return ()

/-- The review of every session is `run_postmarket`, but that of one raises. -/
def raisingAt (now : Int) (k : SessionKey) (e : Fault) (k' : SessionKey) : Prog Unit :=
  if k' = k then throw e else postmarketOf env desk k' now

/-- **The call attempts `run_postmarket` of a session**: whatever that raises comes out of it. -/
def Attempts (now : Int) (k : SessionKey) (w : World) : Prop :=
  ∀ e, (retryWith env desk (raisingAt env desk now k e) now w).1 = .error e

def AsksForReview (now day : Int) (w : World) : Prop :=
  ∃ run, w.db.working.runs.find? (desk.sessionKey day) = some run ∧
    run.currentState.isUnreviewed = true ∧
    (desk.calendar.marketDay now ≤ day →
      POSTMARKET_EVAL_PHASES.contains (desk.calendar.status now).phase = true) ∧
    youngerThan (5 * 60) now run.metadata "last_postmarket_retry_at" = false

/-- **The session is the day before's, and its turn comes**: today's own session is not up for
    review, and nothing disturbs the two reads and the flush in front of the review. -/
structure NextDayTurn (now day : Int) (w : World) : Prop where
  nextDay : desk.calendar.marketDay now = day + 1
  today : ¬ AsksForReview desk now (day + 1) w
  usable : w.db.broken = false
  reads : (w.timed && env.cut w.ticks) = false ∧ (w.timed && env.cut (w.ticks + 1)) = false
  notes : FlushGoes env w.tick.tick

section Steps

variable {env desk} {now day : Int} {k : SessionKey} {w : World} {review : SessionKey → Prog Unit}

/-! ## One session -/

theorem retryOneWith_stops (desk : Desk) (now day : Int)
    (h : ¬ (w.db.broken = false ∧ (w.timed && env.cut w.ticks) = false)) :
    ∃ e w', ∀ review, retryOneWith env desk review now day w = (.error e, w') := by
  obtain ⟨e, w', hstop, -⟩ := query_stops (f := fun t => t.runs.find? (desk.sessionKey day)) h
  exact ⟨e, w', fun review => Eff.bind_of_error hstop⟩

theorem retryOneWith_passes (husable : w.db.broken = false)
    (huncut : (w.timed && env.cut w.ticks) = false) (h : ¬ AsksForReview desk now day w) :
    retryOneWith env desk review now day w = (.ok false, w.tick) := by
  have hquery := query_goes (f := fun t => t.runs.find? (desk.sessionKey day)) husable huncut
  unfold retryOneWith getCurrent
  rw [Eff.bind_of_ok hquery]
  cases hrun : w.db.working.runs.find? (desk.sessionKey day) with
  | none => rfl
  | some run =>
    simp only
    by_cases hstate : run.currentState.isUnreviewed = true
    swap
    · rw [if_pos (by simpa using hstate)]
      rfl
    rw [if_neg (by simp [hstate])]
    by_cases hphase : desk.calendar.marketDay now ≤ day →
        POSTMARKET_EVAL_PHASES.contains (desk.calendar.status now).phase = true
    swap
    · rw [if_pos (by simpa using hphase)]
      rfl
    rw [if_neg (by simpa using hphase)]
    by_cases hcool : youngerThan (5 * 60) now run.metadata "last_postmarket_retry_at" = false
    · exact absurd ⟨run, hrun, hstate, hphase, hcool⟩ h
    · rw [if_pos (by simpa using hcool)]
      rfl

def retryNoted (now : Int) (k : SessionKey) (w : World) : World :=
  { w with db := w.db.write (setRun k (fun r => { r with
      metadata := Dict.set r.metadata "last_postmarket_retry_at" (stamp now) }) fun _ => rfl) }

theorem retryOneWith_reviews (husable : w.db.broken = false)
    (huncut : (w.timed && env.cut w.ticks) = false) (h : AsksForReview desk now day w) :
    retryOneWith env desk review now day w =
      (do
        flushWith env id
        review (desk.sessionKey day)
        callService env desk.jobRows
        return true) (retryNoted now (desk.sessionKey day) w.tick) := by
  obtain ⟨run, hrun, hstate, hphase, hcool⟩ := h
  have hquery := query_goes (f := fun t => t.runs.find? (desk.sessionKey day)) husable huncut
  unfold retryOneWith getCurrent
  rw [Eff.bind_of_ok hquery, hrun]
  simp only
  rw [if_neg (by simp [hstate]), if_neg (by simpa using hphase),
    if_neg (Bool.eq_false_iff.mp hcool)]
  exact Eff.bind_of_ok (assignRun_goes (w := w.tick) husable hrun)


theorem not_forall_error {α : Type} {r : Except Fault α} : ¬ ∀ e, r = .error e := by
  intro h
  have hsame := (h .cancelled).symm.trans (h .timeout)
  cases hsame

theorem retryOneWith_raises_iff :
    (∀ e, (retryOneWith env desk (raisingAt env desk now (desk.sessionKey day) e) now day w).1 =
        .error e) ↔
      w.db.broken = false ∧ (w.timed && env.cut w.ticks) = false ∧ AsksForReview desk now day w ∧
        FlushGoes env w.tick := by
  constructor
  · intro hall
    -- an outcome without the review is one outcome, and cannot be each error in turn
    by_cases hread : w.db.broken = false ∧ (w.timed && env.cut w.ticks) = false
    swap
    · obtain ⟨e, w', hstop⟩ := retryOneWith_stops desk now day hread
      simp only [hstop] at hall
      exact absurd hall not_forall_error
    obtain ⟨husable, huncut⟩ := hread
    by_cases hasks : AsksForReview desk now day w
    swap
    · have hpass := hall .cancelled
      rw [retryOneWith_passes husable huncut hasks] at hpass
      cases hpass
    by_cases hflush : FlushGoes env w.tick
    · exact ⟨husable, huncut, hasks, hflush⟩
    · have hflush' : ¬ FlushGoes env (retryNoted now (desk.sessionKey day) w.tick) :=
        fun h => hflush (h.of_same rfl rfl rfl)
      obtain ⟨e, w', hstop, -⟩ := flushWith_stops (f := id) hflush'
      refine absurd (fun e' => ?_) (not_forall_error (r := (.error e : Except Fault Bool)))
      rw [← hall e', retryOneWith_reviews husable huncut hasks, Eff.bind_of_error hstop]
  · rintro ⟨husable, huncut, hasks, hflush⟩ e
    have hgoes : FlushGoes env (retryNoted now (desk.sessionKey day) w.tick) :=
      hflush.of_same rfl rfl rfl
    rw [retryOneWith_reviews husable huncut hasks, Eff.bind_of_ok (flushWith_goes hgoes)]
    unfold raisingAt
    rw [if_pos rfl]
    rfl

theorem retryOneWith_not_passed {w' : World} (husable : w.db.broken = false)
    (huncut : (w.timed && env.cut w.ticks) = false) (hasks : AsksForReview desk now day w) :
    retryOneWith env desk review now day w ≠ (.ok false, w') := by
  have htrue : Eff.Spec (fun _ : World => True)
      (do
        flushWith env id
        review (desk.sessionKey day)
        callService env desk.jobRows
        return true) (fun answer _ => answer = true) (fun _ _ => True) :=
    Eff.Spec.bind Eff.Spec.any fun _ => Eff.Spec.bind Eff.Spec.any fun _ =>
      Eff.Spec.bind Eff.Spec.any fun _ => Eff.Spec.pure fun _ _ => rfl
  rw [retryOneWith_reviews husable huncut hasks]
  intro h
  cases htrue.of_ok trivial h

theorem retryOneWith_passed {w' : World}
    (h : retryOneWith env desk review now day w = (.ok false, w')) :
    w.db.broken = false ∧ (w.timed && env.cut w.ticks) = false ∧
      ¬ AsksForReview desk now day w ∧ w' = w.tick := by
  by_cases hread : w.db.broken = false ∧ (w.timed && env.cut w.ticks) = false
  swap
  · obtain ⟨e, w'', hstop⟩ := retryOneWith_stops desk now day hread
    rw [hstop] at h
    cases h
  obtain ⟨husable, huncut⟩ := hread
  by_cases hasks : AsksForReview desk now day w
  · exact absurd h (retryOneWith_not_passed husable huncut hasks)
  · rw [retryOneWith_passes husable huncut hasks] at h
    exact ⟨husable, huncut, hasks, (congrArg Prod.snd h).symm⟩

theorem retryOneWith_congr {review review' : SessionKey → Prog Unit}
    (h : review (desk.sessionKey day) = review' (desk.sessionKey day)) :
    retryOneWith env desk review now day = retryOneWith env desk review' now day := by
  unfold retryOneWith
  simp only [h]

theorem sessionKey_ne {day' : Int} (h : day ≠ day') :
    desk.sessionKey day ≠ desk.sessionKey day' := fun heq => h (congrArg (·.sessionDate) heq)

theorem retryOneWith_raisingAt {day' : Int} (h : day' ≠ day) (e : Fault) :
    retryOneWith env desk (raisingAt env desk now (desk.sessionKey day) e) now day' =
      retryOneWith env desk (fun k => postmarketOf env desk k now) now day' :=
  retryOneWith_congr (if_neg (sessionKey_ne h))

/-! ## The call -/

theorem not_attempts_of_far (htoday : desk.calendar.marketDay now ≠ day)
    (hyesterday : desk.calendar.marketDay now - 1 ≠ day) :
    ¬ Attempts env desk now (desk.sessionKey day) w := by
  intro hall
  unfold Attempts retryWith at hall
  simp only [retryOneWith_raisingAt htoday, retryOneWith_raisingAt hyesterday] at hall
  exact not_forall_error hall

/-- A run of the day before is tried exactly when its turn comes. -/
theorem attempts_yesterday_iff (hday : desk.calendar.marketDay now = day + 1) :
    Attempts env desk now (desk.sessionKey day) w ↔
      NextDayTurn env desk now day w ∧ AsksForReview desk now day w := by
  have htoday : desk.calendar.marketDay now ≠ day := by omega
  have hyesterday : desk.calendar.marketDay now - 1 = day := by omega
  have hpasses : NextDayTurn env desk now day w →
      retryOneWith env desk (fun k => postmarketOf env desk k now) now
        (desk.calendar.marketDay now) w = (.ok false, w.tick) := fun h =>
    retryOneWith_passes h.usable h.reads.1 (hday ▸ h.today)
  unfold Attempts retryWith
  simp only [retryOneWith_raisingAt htoday, hyesterday]
  cases hfirst : retryOneWith env desk (fun k => postmarketOf env desk k now) now
      (desk.calendar.marketDay now) w with
  | mk r w₁ =>
  rw [hfirst] at hpasses
  cases r with
  | error e =>
    -- the retry of today raised
    refine iff_of_false (fun hall => ?_) fun h => by cases hpasses h.1
    simp only [Eff.bind_of_error hfirst] at hall
    exact not_forall_error hall
  | ok done =>
    cases done with
    | true =>
      -- one session is reviewed in a call, and it was today's
      refine iff_of_false (fun hall => ?_) fun h => by cases hpasses h.1
      simp only [Eff.bind_of_ok hfirst] at hall
      exact not_forall_error hall
    | false =>
      obtain ⟨husable, huncut, hnot, rfl⟩ := retryOneWith_passed hfirst
      have hsecond : ∀ e, ((do
          let _ ← retryOneWith env desk (raisingAt env desk now (desk.sessionKey day) e) now day
          return () : Prog Unit) w.tick).1 = .error e ↔
          (retryOneWith env desk (raisingAt env desk now (desk.sessionKey day) e) now day
            w.tick).1 = .error e := by
        intro e
        cases hsnd : retryOneWith env desk (raisingAt env desk now (desk.sessionKey day) e) now day
            w.tick with
        | mk r' w₂ =>
          cases r' with
          | error e' => rw [Eff.bind_of_error hsnd]; simp
          | ok b => rw [Eff.bind_of_ok hsnd]; simp [pure]
      simp only [Eff.bind_of_ok hfirst, Bool.false_eq_true, if_false, hsecond]
      rw [retryOneWith_raises_iff]
      constructor
      · rintro ⟨_, hagain, hasks, hflush⟩
        exact ⟨⟨hday, hday ▸ hnot, husable, ⟨huncut, hagain⟩, hflush⟩, hasks⟩
      · rintro ⟨hturn, hasks⟩
        exact ⟨hturn.usable, hturn.reads.2, hasks, hturn.notes⟩

/-- **A session that closed and was not reviewed is attempted on a later day exactly if that is
    the next day, and its turn comes then**, whatever the calendar and whatever else is on file. -/
theorem attempts_iff {run : DailyWorkflowRun}
    (hrun : w.db.working.runs.find? (desk.sessionKey day) = some run)
    (hstate : run.currentState.isUnreviewed = true) (hlater : day < desk.calendar.marketDay now)
    (hcool : youngerThan (5 * 60) now run.metadata "last_postmarket_retry_at" = false) :
    Attempts env desk now (desk.sessionKey day) w ↔ NextDayTurn env desk now day w := by
  have hasks : AsksForReview desk now day w :=
    ⟨run, hrun, hstate, fun hle => absurd hle (not_le.mpr hlater), hcool⟩
  by_cases hday : desk.calendar.marketDay now = day + 1
  · rw [attempts_yesterday_iff hday]
    exact and_iff_left hasks
  · exact iff_of_false (not_attempts_of_far (by omega) (by omega)) fun h => hday h.nextDay

end Steps

end Retries

section Samples

attribute [local instance] asciiCasing

def leftRun : DailyWorkflowRun :=
  { id := "run", session := { sessionDate := 20672, calendarName := "NYSE" }
    createdAs := .premarketPreparation, transitions := [], currentState := .marketClosed
    status := .running, failureReason := none, version := 1, metadata := []
    intradayReanalysisCount := 0, revalidationCount := 0, latestDecisionId := none }

def leftWorld : World :=
  { emptyWorld with
    db := Session.fresh { emptyWorld.db.working with
      runs := ⟨[leftRun], List.nodup_singleton _⟩ } }

/-- The day in New York, in summer. -/
def newYorkDay (t : Int) : Int := (t - 4 * 3600) / 86400

def weekdayDesk : Desk :=
  { deskDeciding (decisionOf .hold []) with
    calendar :=
      { marketDay := newYorkDay
        isTradingDay := fun d => (d + 3) % 7 < 5
        status := fun t =>
          if (newYorkDay t + 3) % 7 < 5 then regularSession
          else { regularSession with phase := "NON_TRADING_DAY", isTradingDay := false } } }

def noonOf (day : Int) : Int := day * 86400 + 12 * 3600

/-- On Saturday the session is attempted. -/
theorem attempts_saturday :
    leftWorld.db.working.runs.find? (weekdayDesk.sessionKey 20672) = some leftRun ∧
    leftRun.currentState.isUnreviewed = true ∧
    20672 < weekdayDesk.calendar.marketDay (noonOf 20673) ∧
    youngerThan (5 * 60) (noonOf 20673) leftRun.metadata "last_postmarket_retry_at" = false ∧
    (Attempts (acceptingEnv fun _ => false) weekdayDesk (noonOf 20673)
        (weekdayDesk.sessionKey 20672) leftWorld ↔
      NextDayTurn (acceptingEnv fun _ => false) weekdayDesk (noonOf 20673) 20672 leftWorld) := by
  have hrun : leftWorld.db.working.runs.find? (weekdayDesk.sessionKey 20672) = some leftRun := rfl
  have hstate : leftRun.currentState.isUnreviewed = true := by decide
  have hlater : 20672 < weekdayDesk.calendar.marketDay (noonOf 20673) := by decide +kernel
  have hcool : youngerThan (5 * 60) (noonOf 20673) leftRun.metadata
      "last_postmarket_retry_at" = false := by decide +kernel
  exact ⟨hrun, hstate, hlater, hcool, attempts_iff hrun hstate hlater hcool⟩

def BeforeNextClose (desk : Desk) (now day : Int) : Prop :=
  ∀ d, day < d → d ≤ desk.calendar.marketDay now → desk.calendar.isTradingDay d = true →
    d = desk.calendar.marketDay now ∧
      (desk.calendar.status now).phase ∉ ["POSTMARKET", "AFTER_HOURS"]

/-- **What is left on a Friday is not attempted on Sunday**, where nothing at all is in the way. -/
theorem friday_abandoned_on_sunday :
    ¬ ∀ (env : Env) (desk : Desk) (now day : Int) (w : World) (run : DailyWorkflowRun),
      (∀ n, env.cut n = false ∧ env.flushFails n = false) → w.db.broken = false →
      w.db.working.runs.find? (desk.sessionKey day) = some run →
      run.currentState.isUnreviewed = true → day < desk.calendar.marketDay now →
      BeforeNextClose desk now day →
      youngerThan (5 * 60) now run.metadata "last_postmarket_retry_at" = false →
      Attempts env desk now (desk.sessionKey day) w := by
  intro hall
  have hnot : ¬ Attempts (acceptingEnv fun _ => false) weekdayDesk (noonOf 20674)
      (weekdayDesk.sessionKey 20672) leftWorld :=
    not_attempts_of_far (by decide +kernel) (by decide +kernel)
  refine hnot (hall _ _ _ _ _ leftRun (fun _ => ⟨rfl, rfl⟩) rfl rfl (by decide) (by decide +kernel)
    ?_ (by decide +kernel))
  intro d hafter hupto htrading
  have hday : weekdayDesk.calendar.marketDay (noonOf 20674) = 20674 := by decide +kernel
  have hweekday : (d + 3) % 7 < 5 := of_decide_eq_true htrading
  rw [hday] at hupto
  omega

end Samples

end Investor.Workflow
