import Investor.Lib.Gaps
import Investor.Workflow.IntradayPlan
import Mathlib.Data.Int.ConditionallyCompleteOrder

/-!
# Keeping the ticks of a session at their pace

`align_intraday_cadence` looks at the gaps between the ticks that are still ahead, and plans the
rest of the session anew where the middle one is not the interval of the books, or where the runtime
has been switched. `replan_intraday_jobs` drops the pending ticks first.

What a replan leaves is a grid and one tick before the close, which may split the last gaps. So a
second look finds nothing to do only if enough of the grid is left, or what is left happens to lie
right (`Settles`). A tick that was due is dropped with the others, and the new grid begins at the
present instant: nothing is due afterwards but a tick of just now (`KeepsUp`). Both conditions are
exact (`lawfulCadence_iff`).

Minutes are exact numbers here, and instants are in microseconds.
-/

namespace Investor.Workflow

open Lib Market

/-! ## A run and its ticks -/

/-- The metadata `intraday_cadence`. -/
structure Cadence where
  llmLocal : Bool
  intervalMinutes : ℕ
  deriving DecidableEq

/-- The metadata `last_intraday_replan`. -/
structure LastReplan where
  replannedAt : Int
  purged : ℕ
  created : ℕ
  deriving DecidableEq

/-- `DailyWorkflowRun` of a session date, with the jobs of that date. -/
structure CadenceRun where
  intradayCadence : Option Cadence
  lastIntradayReplan : Option LastReplan
  jobs : TickTable

abbrev CadenceRuns := Int → Option CadenceRun

/-- `DailyWorkflowService`: its settings, what `_resolve_intraday_interval` gives for the books in
    play, and the session after a date. -/
structure CadenceDesk where
  cal : MarketCalendar
  venue : Venue
  llmIsLocal : Bool
  resolveIntradayInterval : MarketSessionInfo → ℕ+
  getNextTradingDay : Int → Int

def isPlanned (venue : Venue) (r : TickJob) : Bool := isTick venue r && r.status = "planned"

def isPending (venue : Venue) (r : TickJob) : Bool :=
  isTick venue r && (r.status = "planned" || r.status = "skipped")

/-- `delete(ScheduledJobRecord)` of the pending ticks. -/
def purgeTicks (venue : Venue) (t : TickTable) : TickTable :=
  ⟨t.rows.filter fun r => !isPending venue r,
    t.unique.sublist (List.filter_sublist.map _)⟩

namespace CadenceDesk

variable (desk : CadenceDesk)

def forceCloseMinutes : Int := desk.cal.forceCloseBeforeMarketCloseMinutes

/-! ## The replan -/

/-- `_plan_intraday_jobs`, which remembers the cadence it planned by. -/
def planTicks (session : MarketSessionInfo) (notBefore : Option Int) (run : CadenceRun) :
    Option (CadenceRun × ℕ) :=
  let interval := desk.resolveIntradayInterval session
  (planIntradayJobs desk.venue desk.forceCloseMinutes session interval notBefore run.jobs).map
    fun (jobs, created) =>
      match tradingHours session with
      | none => ({ run with jobs }, created)
      | some _ => ({ run with jobs, intradayCadence := some ⟨desk.llmIsLocal, interval⟩ }, created)

/-- What `replan_intraday_jobs` returns. -/
inductive ReplanOut
  | skipped (reason : String)
  | done (purged created : ℕ)
  deriving DecidableEq

/-- `replan_intraday_jobs`, of a run that is there. -/
def replanRun (session : MarketSessionInfo) (now : Int) (run : CadenceRun) :
    Option (CadenceRun × ReplanOut) :=
  if !session.isTradingDay || session.regularOpen.isNone then
    some (run, .skipped "non_trading_day")
  else
    let purged := run.jobs.rows.countP (isPending desk.venue)
    (desk.planTicks session (some now) { run with jobs := purgeTicks desk.venue run.jobs }).map
      fun (run, created) =>
        ({ run with lastIntradayReplan := some ⟨now, purged, created⟩ }, .done purged created)

def replanIntradayJobs (day now : Int) (run : Option CadenceRun) :
    Option (Option CadenceRun × ReplanOut) :=
  match run with
  | none => some (none, .skipped "no_run")
  | some run => (desk.replanRun (desk.cal.getSession day) now run).map fun (run, out) =>
    (some run, out)

/-! ## The alignment -/

def futureTicks (venue : Venue) (now : Int) (t : TickTable) : List Int :=
  sortedBy id (((t.rows.filter (isPlanned venue)).map (·.plannedAt)).filter fun at' => now ≤ at')

def minutes (micros : Int) : ℚ := (micros : ℚ) / 60000000

/-- `ordered[len(ordered) // 2]` of the gaps. -/
def medianGap (future : List Int) : Option ℚ := upperMedian ((deltas future).map minutes)

def runtimeChanged (run : CadenceRun) : Bool :=
  (run.intradayCadence.map fun stored => stored.llmLocal != desk.llmIsLocal).getD false

def spacingChanged (interval : ℕ+) (close now : Int) (future : List Int) : Bool :=
  match medianGap future with
  | some median => 51 / 100 < |median - (interval : ℕ)|
  | none => ((interval : ℕ) : ℚ) * 2 < minutes (close - now)

structure AlignPart where
  sessionDate : Int
  replanned : Bool
  reason : Option String
  intervalMinutes : Option ℕ
  medianGapMinutes : Option ℚ
  purged : Option ℕ
  created : Option ℕ

def AlignPart.idle (day : Int) (reason : String) : AlignPart :=
  { sessionDate := day, replanned := false, reason := some reason, intervalMinutes := none,
    medianGapMinutes := none, purged := none, created := none }

def misaligned (session : MarketSessionInfo) (close now : Int) (run : CadenceRun) : Bool :=
  desk.runtimeChanged run || spacingChanged (desk.resolveIntradayInterval session) close now
    (futureTicks desk.venue now run.jobs)

/-- `_align_intraday_session`. -/
def alignIntradaySession (now day : Int) (run : Option CadenceRun) :
    Option (Option CadenceRun × AlignPart) :=
  match run with
  | none => some (none, .idle day "no_run")
  | some run =>
    let session := desk.cal.getSession day
    match tradingHours session with
    | none => some (some run, .idle day "non_trading_day")
    | some (_, close) =>
      if close ≤ now then some (some run, .idle day "session_closed")
      else
        let desired : ℕ := desk.resolveIntradayInterval session
        let median := medianGap (futureTicks desk.venue now run.jobs)
        if desk.misaligned session close now run then
          (desk.replanIntradayJobs day now (some run)).map fun (run, out) =>
            match out with
            | .skipped _ =>
              (run, { sessionDate := day, replanned := false, reason := none,
                      intervalMinutes := some desired, medianGapMinutes := median,
                      purged := none, created := none })
            | .done purged created =>
              (run, { sessionDate := day, replanned := true, reason := none,
                      intervalMinutes := some desired, medianGapMinutes := median,
                      purged := some purged, created := some created })
        else
          some (some run,
            { sessionDate := day, replanned := false, reason := some "aligned",
              intervalMinutes := some desired, medianGapMinutes := median, purged := none,
              created := none })

def alignSessions (now : Int) : List Int → CadenceRuns → Option (CadenceRuns × List AlignPart)
  | [], runs => some (runs, [])
  | day :: days, runs =>
    (desk.alignIntradaySession now day (runs day)).bind fun (run, part) =>
      (alignSessions now days (Function.update runs day run)).map fun (runs, parts) =>
        (runs, part :: parts)

def alignedDays (now : Int) : List Int :=
  let today := (desk.cal.astimezone now).date
  let next := desk.getNextTradingDay today
  if next ≠ today then [today, next] else [today]

/-- `align_intraday_cadence`: the runs it leaves, and what it tells of each session. -/
def alignIntradayCadence (now : Int) (runs : CadenceRuns) :
    Option (CadenceRuns × List AlignPart) :=
  desk.alignSessions now (desk.alignedDays now) runs

/-! ## What the alignment is for -/

/-- A look that has just replanned leaves nothing for a second one, and no replan loses a tick that
    was due: one that is due stands afterwards. -/
structure LawfulCadence (now : Int) (runs : CadenceRuns) : Prop where
  settles : ∀ runs' parts, desk.alignIntradayCadence now runs = some (runs', parts) →
    parts.any (·.replanned) = true →
      ∃ parts', desk.alignIntradayCadence now runs' = some (runs', parts') ∧
        parts'.any (·.replanned) = false ∧
        ∀ p ∈ parts.zip parts', p.1.replanned = true → p.2.reason = some "aligned"
  keepsDue : ∀ day run run' out, runs day = some run →
    desk.replanIntradayJobs day now (some run) = some (some run', out) →
      ∀ r ∈ run.jobs.rows, isPlanned desk.venue r = true → r.plannedAt < now →
        ∃ r' ∈ run'.jobs.rows, isPlanned desk.venue r' = true ∧ r'.plannedAt ≤ now

def closingTick (opening close : Int) (t : TickTable) : Option Int :=
  let force := forceAt desk.forceCloseMinutes close
  if opening < force ∧
      ¬ (purgeTicks desk.venue t).rows.any (fun r => isTick desk.venue r && inLastMinutes force close r)
  then some force else none

/-- 0.51 minutes. -/
def SPACING_MICROS : Int := 30600000

/-- Where one more tick leaves a grid at its pace: a single tick of the grid is an interval away from
it, and where it splits a gap of two or three, it stands close to one of them. -/
def StandsRight (grid : List Int) (interval : ℕ+) (at' : Int) : Prop :=
  (∀ tick, grid = [tick] → stepOf interval - |at' - tick| ≤ SPACING_MICROS) ∧
    (grid.length = 2 ∨ grid.length = 3 → (∃ tick ∈ grid, tick < at') → (∃ tick ∈ grid, at' < tick) →
      ∃ tick ∈ grid, |at' - tick| ≤ SPACING_MICROS)

/-- What a replan leaves of a session is at its pace: with one tick or none ahead, no more than two
intervals are left, and the tick before the close stands right. -/
structure Settles (opening close now : Int) (interval : ℕ+) (last : Option Int) : Prop where
  few : (gridTicks opening close interval (some now)).length +
      (last.filter fun at' => now ≤ at').toList.length ≤ 1 → close - now ≤ stepOf interval * 2
  right : ∀ at' ∈ last, now ≤ at' →
    StandsRight (gridTicks opening close interval (some now)) interval at'

/-- What was due is due again after a replan: a tick of the grid stands at the present instant, or
    the one before the close stands there or earlier. -/
def KeepsUp (opening close now : Int) (interval : ℕ+) (last : Option Int) : Prop :=
  (∃ k : ℕ, 0 < k ∧ opening + k * stepOf interval = now ∧ now < close) ∨ ∃ at' ∈ last, at' ≤ now

/-! ## The gaps after a replan -/

theorem monotone_minutes : Monotone minutes := by
  intro a b hab
  unfold minutes
  have : (a : ℚ) ≤ b := by exact_mod_cast hab
  linarith

theorem minutes_near_iff {gap : Int} {interval : ℕ+} :
    |minutes gap - (interval : ℕ)| ≤ 51 / 100 ↔ |gap - stepOf interval| ≤ SPACING_MICROS := by
  have hscale : minutes gap - (interval : ℕ) = ((gap - stepOf interval : Int) : ℚ) / 60000000 := by
    unfold minutes stepOf MINUTE_MICROS
    push_cast
    ring
  have hcast : ((|gap - stepOf interval| : Int) : ℚ) = |((gap - stepOf interval : Int) : ℚ)| :=
    Int.cast_abs
  rw [hscale, abs_div, ← hcast, abs_of_pos (by norm_num : (0 : ℚ) < 60000000), div_le_iff₀ (by norm_num)]
  unfold SPACING_MICROS
  constructor
  · intro h
    have : ((|gap - stepOf interval| : Int) : ℚ) ≤ (30600000 : Int) := by
      norm_num at h ⊢
      exact h
    exact_mod_cast this
  · intro h
    have : ((|gap - stepOf interval| : Int) : ℚ) ≤ (30600000 : Int) := by exact_mod_cast h
    norm_num at this ⊢
    exact this

theorem spacingChanged_eq_false_iff {interval : ℕ+} {close now : Int} {future : List Int} :
    spacingChanged interval close now future = false ↔
      match upperMedian (deltas future) with
      | some gap => |gap - stepOf interval| ≤ SPACING_MICROS
      | none => close - now ≤ stepOf interval * 2 := by
  unfold spacingChanged medianGap
  rw [upperMedian_map monotone_minutes]
  cases upperMedian (deltas future) with
  | none =>
    simp only [Option.map_none, decide_eq_false_iff_not, not_lt]
    have hscale : ((interval : ℕ) : ℚ) * 2 = minutes (stepOf interval * 2) := by
      unfold minutes stepOf MINUTE_MICROS
      push_cast
      ring
    rw [hscale]
    constructor
    · intro h
      by_contra hlt
      unfold minutes at h
      have : ((stepOf interval * 2 : Int) : ℚ) < ((close - now : Int) : ℚ) := by
        exact_mod_cast not_le.mp hlt
      linarith
    · intro h
      exact monotone_minutes h
  | some gap =>
    simp only [Option.map_some, decide_eq_false_iff_not, not_lt]
    exact minutes_near_iff

variable {opening close now first : Int} {interval : ℕ+} {n : ℕ} {last : Option Int}

theorem upperMedian_steps (hn : 2 ≤ n) :
    upperMedian (deltas (steps (stepOf interval) n first)) = some (stepOf interval) := by
  obtain ⟨m, rfl⟩ : ∃ m, n = m + 1 + 1 := ⟨n - 2, by omega⟩
  have hperm : List.Perm (deltas (steps (stepOf interval) (m + 1 + 1) first))
      (stepOf interval :: List.replicate m (stepOf interval)) := by
    rw [deltas_steps]
    rfl
  rw [upperMedian_cons_replicate hperm le_rfl, ite_self]

theorem max_near_iff {grid : List Int} {tick at' : Int} (hgrid : grid = steps (stepOf interval) n first)
    (ha : tick ∈ grid) (hnext : tick + stepOf interval ∈ grid) (hlt : tick < at')
    (hle : at' ≤ tick + stepOf interval) :
    |max (at' - tick) (tick + stepOf interval - at') - stepOf interval| ≤ SPACING_MICROS ↔
      ∃ b ∈ grid, |at' - b| ≤ SPACING_MICROS := by
  have hpos := stepOf_pos interval
  constructor
  · intro h
    rcases le_total (at' - tick) (tick + stepOf interval - at') with hxy | hyx
    · rw [max_eq_right hxy, abs_le] at h
      refine ⟨tick, ha, ?_⟩
      rw [abs_le]
      omega
    · rw [max_eq_left hyx, abs_le] at h
      refine ⟨_, hnext, ?_⟩
      rw [abs_le]
      omega
  · intro h
    obtain ⟨b, hb, hnear⟩ := h
    rw [abs_le] at hnear
    have hmax := max_le_iff.mp (le_refl (max (at' - tick) (tick + stepOf interval - at')))
    rw [abs_le]
    have hupper : max (at' - tick) (tick + stepOf interval - at') ≤ stepOf interval :=
      max_le (by omega) (by omega)
    unfold SPACING_MICROS at hnear ⊢
    rw [hgrid] at ha hb
    rcases steps_apart hpos.le ha hb with hbefore | hafter <;> omega

theorem spacing_outside_iff {m : ℕ} {at' gap : Int}
    (hperm : List.Perm (deltas ((steps (stepOf interval) (m + 1) first).orderedInsert (· ≤ ·) at'))
      (gap :: List.replicate m (stepOf interval)))
    (hgap : gap ≤ stepOf interval) (hsingle : m = 0 → |at' - first| = gap)
    (hout : ¬ ((∃ tick ∈ steps (stepOf interval) (m + 1) first, tick < at') ∧
      ∃ tick ∈ steps (stepOf interval) (m + 1) first, at' < tick)) :
    spacingChanged interval close now
        ((steps (stepOf interval) (m + 1) first).orderedInsert (· ≤ ·) at') = false ↔
      StandsRight (steps (stepOf interval) (m + 1) first) interval at' := by
  rw [spacingChanged_eq_false_iff, upperMedian_cons_replicate hperm hgap]
  unfold StandsRight
  rw [length_steps]
  cases m with
  | zero =>
    have hdist := hsingle rfl
    have hnear : |gap - stepOf interval| = stepOf interval - gap := by
      rw [abs_sub_comm]
      exact abs_of_nonneg (by omega)
    dsimp only [steps]
    rw [if_pos rfl, hnear]
    constructor
    · intro h
      refine ⟨?_, by omega⟩
      intro tick htick
      rw [List.singleton_inj] at htick
      rw [← htick, hdist]
      exact h
    · intro h
      have hright := h.1 first rfl
      rwa [hdist] at hright
  | succ m =>
    dsimp only
    rw [if_neg (Nat.succ_ne_zero m), sub_self, abs_zero]
    constructor
    · intro _
      refine ⟨?_, fun _ hbelow habove => absurd ⟨hbelow, habove⟩ hout⟩
      intro tick htick
      have hlength := congrArg List.length htick
      simp at hlength
    · intro _
      simp [SPACING_MICROS]

theorem spacing_insert_iff {at' : Int} (hn : 0 < n) (hfirst : first - stepOf interval ≤ at')
    (hend : at' < first + n • stepOf interval) :
    spacingChanged interval close now
        ((steps (stepOf interval) n first).orderedInsert (· ≤ ·) at') = false ↔
      StandsRight (steps (stepOf interval) n first) interval at' := by
  obtain ⟨m, rfl⟩ : ∃ m, n = m + 1 := ⟨n - 1, by omega⟩
  have hpos := stepOf_pos interval
  rcases @deltas_insert_steps _ _ (stepOf interval) at' _ m first with hbefore | hbehind | hinside
  · obtain ⟨hle, hperm⟩ := hbefore
    refine spacing_outside_iff hperm (by omega) ?_ ?_
    · intro _
      rw [abs_sub_comm]
      exact abs_of_nonneg (by omega)
    · intro h
      obtain ⟨⟨tick, htick, hlt⟩, -⟩ := h
      have := le_of_mem_steps hpos.le htick
      omega
  · obtain ⟨tick, htick, hall, hlast, hperm⟩ := hbehind
    have hlt := hall tick htick
    refine spacing_outside_iff hperm (by omega) ?_ ?_
    · intro hm
      subst hm
      rw [zero_add, one_nsmul, add_left_inj] at hlast
      rw [hlast] at hlt ⊢
      exact abs_of_nonneg (by omega)
    · intro h
      obtain ⟨-, b, hb, hafter⟩ := h
      have := hall b hb
      omega
  · obtain ⟨tick, k, htick, hnext, hlt, hle, rfl, hperm⟩ := hinside
    rw [spacingChanged_eq_false_iff,
      upperMedian_cons_cons_replicate hperm (by omega) (by omega)]
    unfold StandsRight
    rw [length_steps]
    by_cases hk : k ≤ 1
    · dsimp only
      rw [if_pos hk, max_near_iff rfl htick hnext hlt hle]
      constructor
      · intro h
        refine ⟨?_, fun _ _ _ => h⟩
        intro b hb
        have hlength := congrArg List.length hb
        simp at hlength
      · intro h
        rcases hle.lt_or_eq with habove | heq
        · exact h.2 (by omega) ⟨tick, htick, hlt⟩ ⟨_, hnext, habove⟩
        · exact ⟨_, hnext, by simp [heq, SPACING_MICROS]⟩
    · dsimp only
      rw [if_neg hk, sub_self, abs_zero]
      constructor
      · intro _
        refine ⟨?_, by omega⟩
        intro b hb
        have hlength := congrArg List.length hb
        simp at hlength
      · intro _
        simp [SPACING_MICROS]

theorem gridTicks_eq_steps (opening close now : Int) (interval : ℕ+) :
    ∃ n first, gridTicks opening close interval (some now) = steps (stepOf interval) n first ∧
      close ≤ first + n • stepOf interval ∧
        ∀ at', opening ≤ at' → now ≤ at' → first - stepOf interval ≤ at' := by
  have hpos := stepOf_pos interval
  obtain ⟨k, hk, hfirst, -, hbefore⟩ := @gridStart_spec opening interval (some now)
  have hstart : opening < gridStart opening interval (some now) := by
    rw [hfirst]
    have : (0 : Int) < k * stepOf interval := by positivity
    linarith
  obtain ⟨n, hn, hend, -⟩ := @ticksFrom_spec (stepOf interval) close
    (gridStart opening interval (some now)) (close - opening).toNat hpos (by omega)
  refine ⟨n, gridStart opening interval (some now), ?_, ?_, ?_⟩
  · unfold gridTicks
    rw [hn, steps_eq_map]
    simp only [nsmul_eq_mul]
  · rwa [nsmul_eq_mul]
  · intro at' hopen hnow
    rw [hfirst]
    rcases Nat.eq_or_lt_of_le hk with rfl | hlt
    · push_cast
      linarith
    · obtain ⟨nb, hnb, hearly⟩ := hbefore (k - 1) (by omega) (by omega)
      cases hnb
      rw [Nat.cast_sub hk, sub_mul] at hearly
      push_cast at hearly
      linarith

/-- **The ticks that a replan leaves ahead** are at their pace exactly where they settle. -/
theorem spacing_settles_iff (hlast : ∀ at' ∈ last, opening ≤ at' ∧ at' < close) :
    spacingChanged interval close now
        (sortedBy id (gridTicks opening close interval (some now) ++
          (last.filter fun at' => now ≤ at').toList)) = false ↔
      Settles opening close now interval last := by
  have hpos := stepOf_pos interval
  obtain ⟨n, first, hgrid, hend, hfirst⟩ := gridTicks_eq_steps opening close now interval
  have hsorted : (steps (stepOf interval) n first).Pairwise (· ≤ ·) := pairwise_steps hpos.le
  cases hahead : last.filter fun at' => decide (now ≤ at') with
  | none =>
    have hnone : ∀ at' ∈ last, ¬ now ≤ at' := by
      intro at' hmem hnow
      rw [Option.mem_def.mp hmem, Option.filter_some, if_pos (decide_eq_true hnow)] at hahead
      cases hahead
    rw [hgrid, Option.toList_none, List.append_nil, sortedBy_id_eq (List.Perm.refl _) hsorted,
      spacingChanged_eq_false_iff]
    by_cases hn : 2 ≤ n
    · rw [upperMedian_steps hn]
      dsimp only
      rw [sub_self, abs_zero]
      constructor
      · intro _
        refine ⟨?_, fun at' hmem hnow => absurd hnow (hnone at' hmem)⟩
        intro hfew
        rw [hgrid, length_steps] at hfew
        omega
      · intro _
        simp [SPACING_MICROS]
    · have hempty : upperMedian (deltas (steps (stepOf interval) n first)) = none := by
        rw [upperMedian_eq_none_iff]
        rcases (by omega : n = 0 ∨ n = 1) with rfl | rfl <;> rfl
      rw [hempty]
      dsimp only
      constructor
      · intro h
        exact ⟨fun _ => h, fun at' hmem hnow => absurd hnow (hnone at' hmem)⟩
      · intro h
        refine h.few ?_
        rw [hgrid, length_steps, hahead]
        simp
        omega
  | some at' =>
    obtain ⟨hmem, hnow⟩ := Option.filter_eq_some_iff.mp hahead
    have hnow : now ≤ at' := of_decide_eq_true hnow
    obtain ⟨hopen, hclose⟩ := hlast at' hmem
    rw [Option.toList_some, hgrid, sortedBy_append_singleton hsorted]
    rcases Nat.eq_zero_or_pos n with rfl | hn
    · rw [spacingChanged_eq_false_iff]
      have hempty : upperMedian (deltas ((steps (stepOf interval) 0 first).orderedInsert (· ≤ ·) at')) =
          none := upperMedian_eq_none_iff.mpr rfl
      rw [hempty]
      dsimp only
      constructor
      · intro h
        refine ⟨fun _ => h, ?_⟩
        intro b hb hnow'
        rw [hgrid]
        simp [StandsRight, steps]
      · intro h
        refine h.few ?_
        rw [hgrid, hahead]
        simp
    · rw [spacing_insert_iff hn (hfirst at' hopen hnow) (hclose.trans_le hend)]
      constructor
      · intro h
        refine ⟨?_, ?_⟩
        · intro hfew
          rw [hgrid, length_steps, hahead] at hfew
          simp at hfew
          omega
        · intro b hb _
          rw [Option.mem_unique hb hmem, hgrid]
          exact h
      · intro h
        rw [← hgrid]
        exact h.right at' hmem hnow

/-! ## One replan -/

variable {desk : CadenceDesk} {session : MarketSessionInfo} {run run' : CadenceRun} {day : Int}

theorem isPending_of_isPlanned {venue : Venue} {r : TickJob} (h : isPlanned venue r = true) :
    isPending venue r = true := by
  unfold isPlanned at h
  unfold isPending
  rw [Bool.and_eq_true] at h ⊢
  rw [h.2, Bool.true_or]
  exact ⟨h.1, rfl⟩

theorem filter_planned_purgeTicks (venue : Venue) (t : TickTable) :
    (purgeTicks venue t).rows.filter (isPlanned venue) = [] := by
  rw [List.filter_eq_nil_iff]
  intro r hr hplanned
  have hkept := (List.mem_filter.mp hr).2
  rw [isPending_of_isPlanned hplanned] at hkept
  cases hkept

theorem map_plannedAt_newRows {venue : Venue} {forceCloseMinutes : Int} {notBefore : Option Int}
    {existing : List TickJob} :
    (newRows venue forceCloseMinutes opening close interval notBefore existing).map (·.plannedAt) =
      gridTicks opening close interval notBefore ++
        if opening < forceAt forceCloseMinutes close ∧
            ¬ existing.any (inLastMinutes (forceAt forceCloseMinutes close) close)
        then [forceAt forceCloseMinutes close] else [] := by
  have hforce := forceAt_lt forceCloseMinutes close
  rw [newRows_eq, List.map_append]
  congr 1
  · unfold gridRows
    rw [List.map_map]
    exact List.zipIdx_map_fst _ _
  · unfold lastRows
    by_cases h : opening < forceAt forceCloseMinutes close ∧
        ¬ existing.any (inLastMinutes (forceAt forceCloseMinutes close) close)
    · rw [if_pos h, if_pos ⟨h.1, hforce, h.2⟩]
      rfl
    · rw [if_neg h, if_neg fun h' => h ⟨h'.1, h'.2.2⟩]
      rfl

theorem isTradingDay_of_hours (hhours : tradingHours session = some (opening, close)) :
    (!session.isTradingDay || session.regularOpen.isNone) = false := by
  unfold tradingHours at hhours
  split at hhours
  · rename_i opening' close' hopen hclose
    split at hhours
    · rename_i htrading
      simp [htrading, hopen]
    · cases hhours
  · cases hhours

theorem closingTick_toList {t : TickTable} :
    (if opening < forceAt desk.forceCloseMinutes close ∧
        ¬ ((purgeTicks desk.venue t).rows.filter (isTick desk.venue)).any
          (inLastMinutes (forceAt desk.forceCloseMinutes close) close)
      then [forceAt desk.forceCloseMinutes close] else []) =
      (desk.closingTick opening close t).toList := by
  unfold closingTick
  rw [List.any_filter]
  dsimp only
  split <;> rfl

theorem replanRun_trading (hhours : tradingHours session = some (opening, close))
    (run : CadenceRun) :
    ∃ run' purged created, desk.replanRun session now run = some (run', .done purged created) ∧
      run'.intradayCadence =
        some ⟨desk.llmIsLocal, desk.resolveIntradayInterval session⟩ ∧
      (run'.jobs.rows.filter (isPlanned desk.venue)).map (·.plannedAt) =
        gridTicks opening close (desk.resolveIntradayInterval session) (some now) ++
          (desk.closingTick opening close run.jobs).toList := by
  obtain ⟨t', hplan, hrows⟩ := @planned_rows opening close (desk.resolveIntradayInterval session)
    (some now) desk.venue desk.forceCloseMinutes session (purgeTicks desk.venue run.jobs) hhours
  have hnew : ∀ r ∈ newRows desk.venue desk.forceCloseMinutes opening close
      (desk.resolveIntradayInterval session) (some now)
      ((purgeTicks desk.venue run.jobs).rows.filter (isTick desk.venue)),
      isPlanned desk.venue r = true := by
    intro r hr
    obtain ⟨hstatus, n, -, hkey⟩ := newRows_key hr
    simp [isPlanned, hstatus, isTick_of_key hkey]
  unfold replanRun planTicks
  rw [isTradingDay_of_hours hhours, if_neg Bool.false_ne_true]
  dsimp only
  rw [hplan, hhours]
  refine ⟨_, _, _, rfl, rfl, ?_⟩
  dsimp only
  rw [hrows, List.filter_append, filter_planned_purgeTicks, List.nil_append,
    List.filter_eq_self.mpr hnew, map_plannedAt_newRows, closingTick_toList]

theorem futureTicks_replanned {t : TickTable}
    (hticks : (t.rows.filter (isPlanned desk.venue)).map (·.plannedAt) =
      gridTicks opening close interval (some now) ++ last.toList) :
    futureTicks desk.venue now t = sortedBy id (gridTicks opening close interval (some now) ++
      (last.filter fun at' => now ≤ at').toList) := by
  have hgrid : (gridTicks opening close interval (some now)).filter (fun at' => now ≤ at') =
      gridTicks opening close interval (some now) := by
    rw [List.filter_eq_self]
    intro at' hmem
    exact decide_eq_true ((mem_gridTicks.mp hmem).2.2 now rfl)
  have hlast : last.toList.filter (fun at' => now ≤ at') =
      (last.filter fun at' => now ≤ at').toList := by
    cases last with
    | none => rfl
    | some at' =>
      by_cases h : now ≤ at' <;> simp [Option.filter_some, h]
  unfold futureTicks
  rw [hticks, List.filter_append, hgrid, hlast]

theorem closingTick_bounds {t : TickTable} :
    ∀ at' ∈ desk.closingTick opening close t, opening ≤ at' ∧ at' < close := by
  intro at' hmem
  unfold closingTick at hmem
  dsimp only at hmem
  split at hmem
  · rename_i h
    cases hmem
    exact ⟨h.1.le, forceAt_lt _ _⟩
  · cases hmem

theorem misaligned_replanned (hhours : tradingHours session = some (opening, close))
    {out : ReplanOut} (h : desk.replanRun session now run = some (run', out)) :
    desk.misaligned session close now run' = false ↔
      Settles opening close now (desk.resolveIntradayInterval session)
        (desk.closingTick opening close run.jobs) := by
  obtain ⟨run'', purged, created, hrun, hcadence, hticks⟩ :=
    @replanRun_trading opening close now desk session hhours run
  rw [h] at hrun
  cases hrun
  have hruntime : desk.runtimeChanged run' = false := by
    unfold runtimeChanged
    rw [hcadence]
    simp
  unfold misaligned
  rw [hruntime, Bool.false_or, futureTicks_replanned hticks]
  exact spacing_settles_iff closingTick_bounds

/-! ## One look -/

def OffPace (desk : CadenceDesk) (now day : Int) (run : CadenceRun) (opening close : Int) : Prop :=
  tradingHours (desk.cal.getSession day) = some (opening, close) ∧ now < close ∧
    desk.misaligned (desk.cal.getSession day) close now run = true

/-- A session is replanned exactly if it is off its pace. -/
theorem align_cases (desk : CadenceDesk) (now day : Int) (run : CadenceRun) :
    (∃ part, desk.alignIntradaySession now day (some run) = some (some run, part) ∧
      part.replanned = false ∧ (∀ opening close, ¬ desk.OffPace now day run opening close) ∧
      ∀ opening close, tradingHours (desk.cal.getSession day) = some (opening, close) →
        now < close → part.reason = some "aligned") ∨
    ∃ opening close run' out part, desk.OffPace now day run opening close ∧
      desk.replanRun (desk.cal.getSession day) now run = some (run', out) ∧
      desk.alignIntradaySession now day (some run) = some (some run', part) ∧
      part.replanned = true := by
  unfold alignIntradaySession OffPace
  dsimp only
  cases hhours : tradingHours (desk.cal.getSession day) with
  | none => exact Or.inl ⟨_, rfl, rfl, by simp, by simp⟩
  | some hours =>
    obtain ⟨opening, close⟩ := hours
    dsimp only
    by_cases hclosed : close ≤ now
    · rw [if_pos hclosed]
      refine Or.inl ⟨_, rfl, rfl, ?_, ?_⟩
      · intro opening' close' h
        cases h.1
        exact absurd h.2.1 (not_lt.mpr hclosed)
      · intro opening' close' h hopen
        cases h
        exact absurd hopen (not_lt.mpr hclosed)
    · rw [if_neg hclosed]
      cases hmis : desk.misaligned (desk.cal.getSession day) close now run with
      | false =>
        rw [if_neg Bool.false_ne_true]
        refine Or.inl ⟨_, rfl, rfl, ?_, fun _ _ _ _ => rfl⟩
        intro opening' close' h
        cases h.1
        rw [hmis] at h
        exact absurd h.2.2 Bool.false_ne_true
      | true =>
        obtain ⟨run', purged, created, hrun, -, -⟩ :=
          @replanRun_trading opening close now desk _ hhours run
        rw [if_pos rfl]
        unfold replanIntradayJobs
        dsimp only
        rw [hrun]
        exact Or.inr ⟨opening, close, run', _, _, ⟨rfl, not_le.mp hclosed, hmis⟩, rfl, rfl, rfl⟩

theorem align_total (desk : CadenceDesk) (now day : Int) (run : Option CadenceRun) :
    ∃ run' part, desk.alignIntradaySession now day run = some (run', part) := by
  cases run with
  | none => exact ⟨_, _, rfl⟩
  | some run =>
    rcases align_cases desk now day run with hidle | hreplan
    · obtain ⟨part, h, -⟩ := hidle
      exact ⟨_, _, h⟩
    · obtain ⟨_, _, run', _, part, -, -, h, -⟩ := hreplan
      exact ⟨_, _, h⟩

theorem align_idle {run : Option CadenceRun} {run' : Option CadenceRun} {part : AlignPart}
    (h : desk.alignIntradaySession now day run = some (run', part))
    (hidle : part.replanned = false) : run' = run := by
  cases run with
  | none =>
    cases h
    rfl
  | some run =>
    rcases align_cases desk now day run with hkeep | hreplan
    · obtain ⟨part', hsame, -⟩ := hkeep
      rw [h] at hsame
      cases hsame
      rfl
    · obtain ⟨_, _, _, _, part', -, -, hsame, htrue⟩ := hreplan
      rw [h] at hsame
      cases hsame
      rw [hidle] at htrue
      cases htrue

theorem second_look {run : CadenceRun} {run' : Option CadenceRun} {part : AlignPart}
    (h : desk.alignIntradaySession now day (some run) = some (run', part))
    (hreplanned : part.replanned = true) :
    ∃ opening close part' run'', desk.OffPace now day run opening close ∧
      desk.alignIntradaySession now day run' = some (run'', part') ∧
      (part'.replanned = false ↔
        Settles opening close now (desk.resolveIntradayInterval (desk.cal.getSession day))
          (desk.closingTick opening close run.jobs)) ∧
      (part'.replanned = false → part'.reason = some "aligned") := by
  rcases align_cases desk now day run with hkeep | hreplan
  · obtain ⟨part', hsame, hfalse, -⟩ := hkeep
    rw [h] at hsame
    cases hsame
    rw [hfalse] at hreplanned
    cases hreplanned
  · obtain ⟨opening, close, run₁, out, part₁, hoff, hrun, hsame, -⟩ := hreplan
    rw [h] at hsame
    cases hsame
    have hsettles := misaligned_replanned hoff.1 hrun
    rcases align_cases desk now day run₁ with hkeep | hagain
    · obtain ⟨part', hsecond, hfalse, hpace, hreason⟩ := hkeep
      refine ⟨opening, close, part', _, hoff, hsecond, ?_, fun _ => hreason _ _ hoff.1 hoff.2.1⟩
      rw [← hsettles]
      refine ⟨fun _ => ?_, fun _ => hfalse⟩
      by_contra hmis
      exact hpace opening close ⟨hoff.1, hoff.2.1, by simpa using hmis⟩
    · obtain ⟨opening', close', run₂, out', part', hoff', -, hsecond, htrue⟩ := hagain
      have hhours := hoff'.1
      rw [hoff.1] at hhours
      cases hhours
      refine ⟨opening, close, part', _, hoff, hsecond, ?_, ?_⟩
      · rw [← hsettles, htrue, hoff'.2.2]
      · intro hfalse
        rw [htrue] at hfalse
        cases hfalse

/-! ## All sessions -/

theorem forall₂_common {α β γ : Type*} {R : α → β → Prop} {S : α → γ → Prop} {xs : List α}
    {ys : List β} {zs : List γ} (h : List.Forall₂ R xs ys) (h' : List.Forall₂ S xs zs) :
    ∀ p ∈ ys.zip zs, ∃ x ∈ xs, R x p.1 ∧ S x p.2 := by
  induction h generalizing zs with
  | nil => simp
  | cons hxy _ ih =>
    cases h' with
    | cons hxz hrest =>
      intro p hp
      rw [List.zip_cons_cons, List.mem_cons] at hp
      rcases hp with rfl | hp
      · exact ⟨_, List.mem_cons_self, hxy, hxz⟩
      · obtain ⟨x, hx, hboth⟩ := ih hrest p hp
        exact ⟨x, List.mem_cons_of_mem _ hx, hboth⟩

theorem alignSessions_spec (desk : CadenceDesk) (now : Int) {days : List Int} (hdays : days.Nodup)
    (runs : CadenceRuns) :
    ∃ runs' parts, desk.alignSessions now days runs = some (runs', parts) ∧
      (∀ day ∉ days, runs' day = runs day) ∧
      List.Forall₂ (fun day part =>
        desk.alignIntradaySession now day (runs day) = some (runs' day, part)) days parts := by
  induction days generalizing runs with
  | nil => exact ⟨runs, [], rfl, fun _ _ => rfl, List.Forall₂.nil⟩
  | cons day days ih =>
    obtain ⟨hday, hrest⟩ := List.nodup_cons.mp hdays
    obtain ⟨run, part, hrun⟩ := align_total desk now day (runs day)
    obtain ⟨runs', parts, hruns, hother, hparts⟩ := ih hrest (Function.update runs day run)
    refine ⟨runs', part :: parts, ?_, ?_, List.Forall₂.cons ?_ ?_⟩
    · rw [alignSessions, hrun, Option.bind_some]
      dsimp only
      rw [hruns]
      rfl
    · intro d hd
      obtain ⟨hne, hd⟩ := List.ne_and_not_mem_of_not_mem_cons hd
      rw [hother d hd, Function.update_of_ne hne]
    · rw [hrun, hother day hday, Function.update_self]
    · have hmem := (List.forall₂_and_left days parts).mpr ⟨fun _ hd => hd, hparts⟩
      refine hmem.imp ?_
      intro d part' h
      have hne : d ≠ day := fun heq => hday (heq ▸ h.1)
      rw [← h.2, Function.update_of_ne hne]

theorem nodup_alignedDays (desk : CadenceDesk) (now : Int) : (desk.alignedDays now).Nodup := by
  unfold alignedDays
  dsimp only
  split
  · rename_i hne
    simp [Ne.symm hne]
  · exact List.nodup_singleton _

def Resettles (desk : CadenceDesk) (now : Int) (runs : CadenceRuns) : Prop :=
  ∀ day ∈ desk.alignedDays now, ∀ run, runs day = some run →
    ∀ opening close, desk.OffPace now day run opening close →
      Settles opening close now (desk.resolveIntradayInterval (desk.cal.getSession day))
        (desk.closingTick opening close run.jobs)

def KeepsUpAll (desk : CadenceDesk) (now : Int) (runs : CadenceRuns) : Prop :=
  ∀ day run opening close, runs day = some run →
    tradingHours (desk.cal.getSession day) = some (opening, close) →
    (∃ r ∈ run.jobs.rows, isPlanned desk.venue r = true ∧ r.plannedAt < now) →
      KeepsUp opening close now (desk.resolveIntradayInterval (desk.cal.getSession day))
        (desk.closingTick opening close run.jobs)

/-- A second alignment at the same time moves nothing exactly if the desk resettles. -/
theorem settles_iff (desk : CadenceDesk) (now : Int) (runs : CadenceRuns) :
    (∀ runs' parts, desk.alignIntradayCadence now runs = some (runs', parts) →
      parts.any (·.replanned) = true →
        ∃ parts', desk.alignIntradayCadence now runs' = some (runs', parts') ∧
          parts'.any (·.replanned) = false ∧
          ∀ p ∈ parts.zip parts', p.1.replanned = true → p.2.reason = some "aligned") ↔
      desk.Resettles now runs := by
  have hdays := nodup_alignedDays desk now
  obtain ⟨runs₁, parts, hfirst, hother, hparts⟩ := alignSessions_spec desk now hdays runs
  obtain ⟨runs₂, parts', hsecond, hother', hparts'⟩ := alignSessions_spec desk now hdays runs₁
  unfold alignIntradayCadence
  constructor
  · intro h day hday run hrun opening close hoff
    obtain ⟨part, hpart, hlook⟩ := forall₂_mem_left hparts hday
    obtain ⟨part', hpart', hlook'⟩ := forall₂_mem_left hparts' hday
    rw [hrun] at hlook
    have hreplanned : part.replanned = true := by
      rcases align_cases desk now day run with hkeep | hreplan
      · obtain ⟨_, -, -, hpace, -⟩ := hkeep
        exact absurd hoff (hpace opening close)
      · obtain ⟨_, _, _, _, part₁, -, -, hsame, htrue⟩ := hreplan
        rw [hlook] at hsame
        obtain ⟨-, rfl⟩ := Prod.mk.inj (Option.some.inj hsame)
        exact htrue
    obtain ⟨parts₁, hagain, hnone, -⟩ := h runs₁ parts hfirst
      (List.any_eq_true.mpr ⟨part, hpart, hreplanned⟩)
    rw [hsecond] at hagain
    cases hagain
    obtain ⟨opening', close', part₂, run₂, hoff', hlook₂, hsettles, -⟩ := second_look hlook hreplanned
    have hhours := hoff'.1
    rw [hoff.1] at hhours
    cases hhours
    rw [hlook'] at hlook₂
    obtain ⟨-, rfl⟩ := Prod.mk.inj (Option.some.inj hlook₂)
    refine hsettles.mp ?_
    have hfalse := List.any_eq_false.mp hnone _ hpart'
    simpa using hfalse
  · intro h runs' out hout hany
    rw [hfirst] at hout
    cases hout
    have hlook : ∀ day part part', day ∈ desk.alignedDays now →
        desk.alignIntradaySession now day (runs day) = some (runs₁ day, part) →
        desk.alignIntradaySession now day (runs₁ day) = some (runs₂ day, part') →
        part'.replanned = false ∧ (part.replanned = true → part'.reason = some "aligned") := by
      intro day part part' hday hone htwo
      cases hpart : part.replanned with
      | false =>
        have hsame := align_idle hone hpart
        rw [hsame, hone] at htwo
        obtain ⟨-, rfl⟩ := Prod.mk.inj (Option.some.inj htwo)
        exact ⟨hpart, by simp⟩
      | true =>
        cases hrun : runs day with
        | none =>
          rw [hrun] at hone
          obtain ⟨-, rfl⟩ := Prod.mk.inj (Option.some.inj hone)
          cases hpart
        | some run =>
          rw [hrun] at hone
          obtain ⟨opening, close, part₁, run₁, hoff, hlook₁, hsettles, hreason⟩ :=
            second_look hone hpart
          rw [htwo] at hlook₁
          obtain ⟨-, rfl⟩ := Prod.mk.inj (Option.some.inj hlook₁)
          have hfalse := hsettles.mpr (h day hday run hrun opening close hoff)
          exact ⟨hfalse, fun _ => hreason hfalse⟩
    have hsame : runs₂ = runs₁ := by
      funext day
      by_cases hday : day ∈ desk.alignedDays now
      · obtain ⟨part, -, hone⟩ := forall₂_mem_left hparts hday
        obtain ⟨part', -, htwo⟩ := forall₂_mem_left hparts' hday
        exact align_idle htwo (hlook day part part' hday hone htwo).1
      · exact hother' day hday
    refine ⟨parts', by rw [hsecond, hsame], ?_, ?_⟩
    · rw [List.any_eq_false]
      intro part' hpart'
      obtain ⟨day, hday, htwo⟩ := forall₂_mem_right hparts' hpart'
      obtain ⟨part, -, hone⟩ := forall₂_mem_left hparts hday
      rw [(hlook day part part' hday hone htwo).1]
      exact Bool.false_ne_true
    · intro p hp
      obtain ⟨day, hday, hone, htwo⟩ := forall₂_common hparts hparts' p hp
      exact (hlook day p.1 p.2 hday hone htwo).2

/-! ## What was due -/

theorem due_replanned (hhours : tradingHours session = some (opening, close)) {out : ReplanOut}
    (h : desk.replanRun session now run = some (run', out)) :
    (∃ r ∈ run'.jobs.rows, isPlanned desk.venue r = true ∧ r.plannedAt ≤ now) ↔
      KeepsUp opening close now (desk.resolveIntradayInterval session)
        (desk.closingTick opening close run.jobs) := by
  obtain ⟨run'', purged, created, hrun, -, hticks⟩ :=
    @replanRun_trading opening close now desk session hhours run
  rw [h] at hrun
  cases hrun
  have hdue : (∃ r ∈ run'.jobs.rows, isPlanned desk.venue r = true ∧ r.plannedAt ≤ now) ↔
      ∃ at' ∈ (run'.jobs.rows.filter (isPlanned desk.venue)).map (·.plannedAt), at' ≤ now := by
    simp [List.mem_filter, and_assoc]
  rw [hdue, hticks]
  unfold KeepsUp
  constructor
  · intro h
    obtain ⟨at', hmem, hle⟩ := h
    rcases List.mem_append.mp hmem with hgrid | hlast
    · obtain ⟨⟨k, hk, heq⟩, hclose, hnow⟩ := mem_gridTicks.mp hgrid
      have hsame : at' = now := le_antisymm hle (hnow now rfl)
      exact Or.inl ⟨k, hk, by rw [← heq, hsame], hsame ▸ hclose⟩
    · exact Or.inr ⟨at', by simpa using hlast, hle⟩
  · intro h
    rcases h with hgrid | hlast
    · obtain ⟨k, hk, heq, hclose⟩ := hgrid
      refine ⟨now, List.mem_append_left _ (mem_gridTicks.mpr ⟨⟨k, hk, heq.symm⟩, hclose, ?_⟩), le_rfl⟩
      intro nb hnb
      cases hnb
      exact le_rfl
    · obtain ⟨at', hmem, hle⟩ := hlast
      exact ⟨at', List.mem_append_right _ (by simpa using hmem), hle⟩

theorem replanRun_idle {cal : MarketCalendar} (hnone : tradingHours (cal.getSession day) = none) :
    desk.replanRun (cal.getSession day) now run = some (run, .skipped "non_trading_day") := by
  unfold MarketCalendar.getSession at hnone ⊢
  cases hsession : cal.session day with
  | none => rfl
  | some hours =>
    rw [hsession] at hnone
    cases hnone

theorem keepsDue_iff (desk : CadenceDesk) (now : Int) (runs : CadenceRuns) :
    (∀ day run run' out, runs day = some run →
      desk.replanIntradayJobs day now (some run) = some (some run', out) →
        ∀ r ∈ run.jobs.rows, isPlanned desk.venue r = true → r.plannedAt < now →
          ∃ r' ∈ run'.jobs.rows, isPlanned desk.venue r' = true ∧ r'.plannedAt ≤ now) ↔
      desk.KeepsUpAll now runs := by
  constructor
  · intro h day run opening close hrun hhours hdue
    obtain ⟨r, hr, hplanned, hbefore⟩ := hdue
    obtain ⟨run', purged, created, hreplan, -⟩ :=
      @replanRun_trading opening close now desk _ hhours run
    refine (due_replanned hhours hreplan).mp ?_
    refine h day run run' (.done purged created) hrun ?_ r hr hplanned hbefore
    unfold replanIntradayJobs
    dsimp only
    rw [hreplan]
    rfl
  · intro h day run run' out hrun hout r hr hplanned hbefore
    unfold replanIntradayJobs at hout
    dsimp only at hout
    cases hhours : tradingHours (desk.cal.getSession day) with
    | none =>
      rw [replanRun_idle hhours] at hout
      cases hout
      exact ⟨r, hr, hplanned, hbefore.le⟩
    | some hours =>
      obtain ⟨opening, close⟩ := hours
      obtain ⟨run'', purged, created, hreplan, -⟩ :=
        @replanRun_trading opening close now desk _ hhours run
      rw [hreplan] at hout
      cases hout
      exact (due_replanned hhours hreplan).mpr
        (h day run opening close hrun hhours ⟨r, hr, hplanned, hbefore⟩)

/-- **The alignment comes to rest, and loses nothing that was due**, exactly where what a replan leaves
settles and keeps up. -/
theorem lawfulCadence_iff (desk : CadenceDesk) (now : Int) (runs : CadenceRuns) :
    desk.LawfulCadence now runs ↔ desk.Resettles now runs ∧ desk.KeepsUpAll now runs := by
  rw [← settles_iff, ← keepsDue_iff]
  constructor
  · intro h
    exact ⟨h.settles, h.keepsDue⟩
  · intro h
    exact ⟨h.1, h.2⟩

/-! ## Half an hour before the close -/

section Sample

def dailyCalendar : MarketCalendar :=
  { utcoffset := fun _ => 0
    session := fun day => some (day * DAY_MICROS + 570 * MINUTE_MICROS,
      day * DAY_MICROS + 960 * MINUTE_MICROS)
    premarketStart := none, postmarketEnd := none, regularCloseLocal := 960 * MINUTE_MICROS
    closingWindowMinutesBeforeClose := 30, forceCloseBeforeMarketCloseMinutes := 15 }

def halfHourDesk : CadenceDesk :=
  { cal := dailyCalendar, venue := .us, llmIsLocal := false
    resolveIntradayInterval := fun _ => 30, getNextTradingDay := fun day => day + 1 }

def plannedTick (key : String) (minute : Int) : TickJob :=
  { jobKey := key, plannedAt := minute * MINUTE_MICROS, status := "planned", metadata := [] }

def lastTicksRun : CadenceRun :=
  { intradayCadence := some ⟨false, 30⟩, lastIntradayReplan := none
    jobs := ⟨[plannedTick "US:intraday_eval_11" 930, plannedTick "US:intraday_eval_12" 955], by decide⟩ }

def lastTicksRuns : CadenceRuns := fun day => if day = 0 then some lastTicksRun else none

/-- At 15:25 the two are 25 minutes apart, and every look replans them as they are. -/
theorem last_two_ticks_replan_again :
    ¬ halfHourDesk.LawfulCadence (925 * MINUTE_MICROS) lastTicksRuns := by
  intro h
  have hsettles := (settles_iff _ _ _).mp h.settles 0 (by decide) lastTicksRun rfl
    (570 * MINUTE_MICROS) (960 * MINUTE_MICROS) ⟨by decide, by decide, by decide +kernel⟩
  have hclosing : halfHourDesk.closingTick (570 * MINUTE_MICROS) (960 * MINUTE_MICROS)
      lastTicksRun.jobs = some (955 * MINUTE_MICROS) := by decide +kernel
  have hgrid : gridTicks (570 * MINUTE_MICROS) (960 * MINUTE_MICROS)
      (halfHourDesk.resolveIntradayInterval (halfHourDesk.cal.getSession 0))
      (some (925 * MINUTE_MICROS)) = [930 * MINUTE_MICROS] := by decide +kernel
  have hright := (hsettles.right _ hclosing (by decide)).1 _ hgrid
  exact absurd hright (by decide)

end Sample

end CadenceDesk

end Investor.Workflow
