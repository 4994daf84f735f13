import Investor.Lib.Datetime
import Investor.Market.Venues

/-!
# The market calendar

`MarketCalendarService` tells the sessions of a venue on the market's own clock. What a session's
open and close are comes from `exchange_calendars` as instants; the service turns them into local
times, and from then on compares and subtracts those.

Two aware datetimes of one zone are compared by what the clock shows, not by when it shows it. Over
a weekend in which the clock is changed the difference is not the time that passes. `session`
and `utcoffset` are any calendar and any zone here, and `tells_next_open_iff` says when the next open
and the minutes to it are what they are called.
-/

namespace Investor.Market

open Lib

/-! ## A search over numbers -/

theorem findSome?_range_eq_some_iff {α : Type} {f : ℕ → Option α} {n : ℕ} {x : α} :
    (List.range n).findSome? f = some x ↔ ∃ i < n, f i = some x ∧ ∀ j < i, f j = none := by
  induction n with
  | zero => simp
  | succ n ih =>
    rw [List.range_succ, List.findSome?_append]
    cases hbefore : (List.range n).findSome? f with
    | some y =>
      rw [hbefore] at ih
      rw [Option.some_or, ih]
      constructor
      · rintro ⟨i, hi, hfound⟩
        exact ⟨i, Nat.lt_succ_of_lt hi, hfound⟩
      · rintro ⟨i, hi, hfound, hfirst⟩
        rcases Nat.lt_succ_iff_lt_or_eq.mp hi with hi | rfl
        · exact ⟨i, hi, hfound, hfirst⟩
        · obtain ⟨j, hj, hy⟩ := List.exists_of_findSome?_eq_some hbefore
          rw [hfirst j (List.mem_range.mp hj)] at hy
          cases hy
    | none =>
      have hnone : ∀ j < n, f j = none := fun j hj =>
        List.findSome?_eq_none_iff.mp hbefore j (List.mem_range.mpr hj)
      rw [Option.none_or, List.findSome?_singleton]
      constructor
      · intro hfound
        exact ⟨n, Nat.lt_succ_self n, hfound, hnone⟩
      · rintro ⟨i, hi, hfound, -⟩
        rcases Nat.lt_succ_iff_lt_or_eq.mp hi with hi | rfl
        · rw [hnone i hi] at hfound
          cases hfound
        · exact hfound

/-! ## Local times -/

/-- An aware datetime in the market's zone: an instant, and what the clock shows then. Both are in
    microseconds. -/
structure LocalTime where
  instant : Int
  wall : Int
  deriving DecidableEq

namespace LocalTime

/-- `t.date()`, as the number of the day. -/
def date (t : LocalTime) : Int := t.wall / DAY_MICROS

def time (t : LocalTime) : Int := t.wall % DAY_MICROS

/-- `(t - since).total_seconds() / 60.0`, of two datetimes of one zone. -/
def minutesSince (t since : LocalTime) : ℚ := ((t.wall - since.wall : Int) : ℚ) / 60000000

end LocalTime

/-- `MarketSessionInfo`, less its labels. The ends of the day are times on the clock alone. -/
structure MarketSessionInfo where
  sessionDate : Int
  isTradingDay : Bool
  isEarlyClose : Bool
  premarketStart : Option Int
  regularOpen : Option LocalTime
  regularClose : Option LocalTime
  postmarketEnd : Option Int
  deriving DecidableEq

inductive MarketPhase
  | nonTradingDay | beforePremarket | premarket | regular | forceCloseWindow | closingWindow
  | postmarket | afterHours
  deriving DecidableEq

/-- `MarketStatusSnapshot`, less its labels. -/
structure MarketStatusSnapshot where
  asOf : Int
  isTradingDay : Bool
  phase : MarketPhase
  session : MarketSessionInfo
  minutesToOpen : Option ℚ
  minutesToClose : Option ℚ
  minutesToNextOpen : Option ℚ
  nextOpen : Option LocalTime
  inClosingWindow : Bool
  inForceCloseWindow : Bool
  deriving DecidableEq

/-- `MarketCalendarService`: the zone by its offset at each instant, the sessions of
    `exchange_calendars` by their date as open and close, and the settings that are read. -/
structure MarketCalendar where
  utcoffset : Int → Int
  session : Int → Option (Int × Int)
  premarketStart : Option Int
  postmarketEnd : Option Int
  regularCloseLocal : Int
  closingWindowMinutesBeforeClose : Int
  forceCloseBeforeMarketCloseMinutes : Int

namespace MarketCalendar

variable (cal : MarketCalendar)

/-- `t.astimezone(self.market_tz)`. -/
def astimezone (t : Int) : LocalTime := ⟨t, t + cal.utcoffset t⟩

@[simp] theorem astimezone_wall (t : Int) : (cal.astimezone t).wall = t + cal.utcoffset t := rfl

/-! ## The service -/

def getSession (day : Int) : MarketSessionInfo :=
  match cal.session day with
  | none =>
    { sessionDate := day, isTradingDay := false, isEarlyClose := false, premarketStart := none,
      regularOpen := none, regularClose := none, postmarketEnd := none }
  | some (openUtc, closeUtc) =>
    let openLocal := cal.astimezone openUtc
    let closeLocal := cal.astimezone closeUtc
    let atTime := fun (time : Int) => day * DAY_MICROS + time
    { sessionDate := day, isTradingDay := true
      isEarlyClose := closeLocal.time < cal.regularCloseLocal
      premarketStart := some ((cal.premarketStart.map atTime).getD openLocal.wall)
      regularOpen := some openLocal, regularClose := some closeLocal
      postmarketEnd := some ((cal.postmarketEnd.map atTime).getD closeLocal.wall) }

def openAfter (now : LocalTime) (day : Int) : Option LocalTime :=
  (cal.getSession day).regularOpen.filter fun opening => now.wall < opening.wall

/-- `get_next_market_open`: the first of twenty days. -/
def getNextMarketOpen (now : Int) : Option LocalTime :=
  (List.range 20).findSome? fun (i : ℕ) =>
    cal.openAfter (cal.astimezone now) ((cal.astimezone now).date + i)

/-- The phase of a trading day, and whether it is in the closing or the force-close window. -/
def tradingPhase (now : LocalTime) (session : MarketSessionInfo) (opening closing : LocalTime) :
    MarketPhase × Bool × Bool :=
  let minutesToClose := closing.minutesSince now
  if now.wall < session.premarketStart.getD opening.wall then (.beforePremarket, false, false)
  else if now.wall < opening.wall then (.premarket, false, false)
  else if now.wall < closing.wall then
    if minutesToClose ≤ cal.forceCloseBeforeMarketCloseMinutes then (.forceCloseWindow, false, true)
    else if minutesToClose ≤ cal.closingWindowMinutesBeforeClose then (.closingWindow, true, false)
    else (.regular, false, false)
  else if now.wall < session.postmarketEnd.getD closing.wall then (.postmarket, false, false)
  else (.afterHours, false, false)

def getMarketStatus (now : Int) : MarketStatusSnapshot :=
  let nowLocal := cal.astimezone now
  let session := cal.getSession nowLocal.date
  let next := cal.getNextMarketOpen now
  let phase :=
    match session.regularOpen, session.regularClose with
    | some opening, some closing => cal.tradingPhase nowLocal session opening closing
    | _, _ => (.nonTradingDay, false, false)
  let minutesTo := fun (t : Option LocalTime) => (t.map (·.minutesSince nowLocal)).filter (0 ≤ ·)
  { asOf := now, isTradingDay := session.isTradingDay, phase := phase.1, session
    minutesToOpen := minutesTo session.regularOpen
    minutesToClose := minutesTo session.regularClose
    minutesToNextOpen := minutesTo next
    nextOpen := next
    inClosingWindow := phase.2.1
    inForceCloseWindow := phase.2.2 }

/-! ## The next open -/

/-- **The earliest open after an instant**, of all sessions there are. -/
structure IsNextOpen (now next : Int) : Prop where
  opens : ∃ day closing, cal.session day = some (next, closing)
  later : now < next
  first : ∀ day opening closing, cal.session day = some (opening, closing) → now < opening →
    next ≤ opening

/-- **The calendar tells the next open**, and the minutes that pass until then. -/
def TellsNextOpen (now : Int) : Prop :=
  ∃ next, cal.getNextMarketOpen now = some next ∧ cal.IsNextOpen now next.instant ∧
    (cal.getMarketStatus now).minutesToNextOpen = some (((next.instant - now : Int) : ℚ) / 60000000)

/-- **The next open stands on the clock as it stands in time**: it is dated within twenty days, the
    clock is not changed up to it, and no session dated before it shows a later open. -/
def OnTheClock (now : Int) : Prop :=
  ∃ day next closing, cal.session day = some (next, closing) ∧ cal.IsNextOpen now next ∧
    (cal.astimezone now).date ≤ day ∧ day < (cal.astimezone now).date + 20 ∧
    cal.utcoffset next = cal.utcoffset now ∧
    ∀ day' opening closing', (cal.astimezone now).date ≤ day' → day' < day →
      cal.session day' = some (opening, closing') →
      (cal.astimezone opening).wall ≤ (cal.astimezone now).wall

variable {cal}

theorem openAfter_eq_some_iff {now next : LocalTime} {day : Int} :
    cal.openAfter now day = some next ↔
      ∃ opening closing, cal.session day = some (opening, closing) ∧
        next = cal.astimezone opening ∧ now.wall < next.wall := by
  unfold openAfter getSession
  cases cal.session day with
  | none => simp
  | some hours =>
    simp only [Option.filter_eq_some_iff, Option.some.injEq, decide_eq_true_eq]
    constructor
    · rintro ⟨rfl, hlater⟩
      exact ⟨hours.1, hours.2, rfl, rfl, hlater⟩
    · rintro ⟨opening, closing, rfl, rfl, hlater⟩
      exact ⟨rfl, hlater⟩

theorem openAfter_eq_none_iff {now : LocalTime} {day : Int} :
    cal.openAfter now day = none ↔ ∀ opening closing, cal.session day = some (opening, closing) →
      (cal.astimezone opening).wall ≤ now.wall := by
  unfold openAfter getSession
  cases cal.session day with
  | none => simp
  | some hours =>
    simp only [Option.filter_eq_none_iff, Option.some.injEq, decide_eq_true_eq, not_lt]
    constructor
    · rintro hnone opening closing rfl
      exact hnone _ rfl
    · rintro hall next rfl
      exact hall hours.1 hours.2 rfl

/-- The next open is the first whose wall time is after now's. -/
theorem getNextMarketOpen_eq_some_iff {now : Int} {next : LocalTime} :
    cal.getNextMarketOpen now = some next ↔
      ∃ day opening closing, (cal.astimezone now).date ≤ day ∧
        day < (cal.astimezone now).date + 20 ∧ cal.session day = some (opening, closing) ∧
        next = cal.astimezone opening ∧ (cal.astimezone now).wall < next.wall ∧
        ∀ day' opening' closing', (cal.astimezone now).date ≤ day' → day' < day →
          cal.session day' = some (opening', closing') →
          (cal.astimezone opening').wall ≤ (cal.astimezone now).wall := by
  unfold getNextMarketOpen
  rw [findSome?_range_eq_some_iff]
  generalize cal.astimezone now = clock
  constructor
  · rintro ⟨i, hi, hfound, hfirst⟩
    obtain ⟨opening, closing, hsession, hnext, hlater⟩ := openAfter_eq_some_iff.mp hfound
    refine ⟨clock.date + i, opening, closing, by omega, by omega, hsession, hnext, hlater, ?_⟩
    intro day' opening' closing' hfrom hbefore hsession'
    obtain ⟨j, rfl⟩ : ∃ j : ℕ, day' = clock.date + j := ⟨(day' - clock.date).toNat, by omega⟩
    exact openAfter_eq_none_iff.mp (hfirst j (by omega)) opening' closing' hsession'
  · rintro ⟨day, opening, closing, hfrom, hbefore, hsession, hnext, hlater, hfirst⟩
    obtain ⟨i, rfl⟩ : ∃ i : ℕ, day = clock.date + i := ⟨(day - clock.date).toNat, by omega⟩
    refine ⟨i, by omega, openAfter_eq_some_iff.mpr ⟨opening, closing, hsession, hnext, hlater⟩, ?_⟩
    intro j hj
    refine openAfter_eq_none_iff.mpr fun opening' closing' hsession' => ?_
    exact hfirst (clock.date + j) opening' closing' (by omega) (by omega) hsession'

theorem minutesToNextOpen_of_next {now : Int} {next : LocalTime}
    (hnext : cal.getNextMarketOpen now = some next) :
    (cal.getMarketStatus now).minutesToNextOpen =
      some (next.minutesSince (cal.astimezone now)) := by
  obtain ⟨-, -, -, -, -, -, -, hlater, -⟩ := getNextMarketOpen_eq_some_iff.mp hnext
  have hnonneg : 0 ≤ next.minutesSince (cal.astimezone now) := by
    unfold LocalTime.minutesSince
    have hpos : (0 : ℚ) ≤ ((next.wall - (cal.astimezone now).wall : Int) : ℚ) := by
      exact_mod_cast (Int.sub_pos.mpr hlater).le
    positivity
  simp only [getMarketStatus, hnext, Option.map_some, Option.filter_some, hnonneg, decide_true,
    if_true]

theorem minutesSince_eq_iff (now opening : Int) :
    (cal.astimezone opening).minutesSince (cal.astimezone now) =
        ((opening - now : Int) : ℚ) / 60000000 ↔ cal.utcoffset opening = cal.utcoffset now := by
  unfold LocalTime.minutesSince
  rw [div_left_inj' (by norm_num), Int.cast_inj, astimezone_wall, astimezone_wall]
  constructor <;> intro h <;> omega

/-- **Exactly an open that stands on the clock as it stands in time is told.** -/
theorem tells_next_open_iff (cal : MarketCalendar) (now : Int) :
    cal.TellsNextOpen now ↔ cal.OnTheClock now := by
  constructor
  · rintro ⟨next, hnext, hopen, hminutes⟩
    rw [minutesToNextOpen_of_next hnext] at hminutes
    obtain ⟨day, opening, closing, hfrom, hbefore, hsession, rfl, -, hfirst⟩ :=
      getNextMarketOpen_eq_some_iff.mp hnext
    have hoffset := (minutesSince_eq_iff now opening).mp (Option.some.inj hminutes)
    exact ⟨day, opening, closing, hsession, hopen, hfrom, hbefore, hoffset, hfirst⟩
  · rintro ⟨day, opening, closing, hsession, hopen, hfrom, hbefore, hoffset, hfirst⟩
    have hlater : (cal.astimezone now).wall < (cal.astimezone opening).wall := by
      have hpast := hopen.later
      rw [astimezone_wall, astimezone_wall, hoffset]
      omega
    have hnext : cal.getNextMarketOpen now = some (cal.astimezone opening) :=
      getNextMarketOpen_eq_some_iff.mpr
        ⟨day, opening, closing, hfrom, hbefore, hsession, rfl, hlater, hfirst⟩
    refine ⟨cal.astimezone opening, hnext, hopen, ?_⟩
    rw [minutesToNextOpen_of_next hnext]
    exact congrArg some ((minutesSince_eq_iff now opening).mpr hoffset)

section Samples

def HOUR_MICROS : Int := 3600000000

def newYorkOffset (t : Int) : Int :=
  if t < 20520 * DAY_MICROS + 7 * HOUR_MICROS then -5 * HOUR_MICROS else -4 * HOUR_MICROS

def weekdaySession (day : Int) : Option (Int × Int) :=
  if (day + 3) % 7 < 5 then
    let midnight := day * DAY_MICROS + if day < 20520 then 5 * HOUR_MICROS else 4 * HOUR_MICROS
    some (midnight + 9 * HOUR_MICROS + HOUR_MICROS / 2, midnight + 16 * HOUR_MICROS)
  else none

def newYork : MarketCalendar :=
  { utcoffset := newYorkOffset, session := weekdaySession
    premarketStart := some (4 * HOUR_MICROS), postmarketEnd := some (20 * HOUR_MICROS)
    regularCloseLocal := 16 * HOUR_MICROS, closingWindowMinutesBeforeClose := 30
    forceCloseBeforeMarketCloseMinutes := 10 }

/-- **A weekend with a clock change is told an hour too long**: from Friday at 17:00 the next open
    is 63 and a half hours away. -/
theorem weekend_an_hour_long :
    ¬ ∀ (cal : MarketCalendar) (now : Int),
      (∀ day, ∃ day', day < day' ∧ day' < day + 20 ∧ (cal.session day').isSome) →
      (∀ day opening closing, cal.session day = some (opening, closing) →
        (cal.astimezone opening).date = day ∧ opening < closing) →
      cal.TellsNextOpen now := by
  intro hall
  have hgaps : ∀ day, ∃ day', day < day' ∧ day' < day + 20 ∧ (newYork.session day').isSome := by
    intro day
    obtain ⟨i, hi, hweekday⟩ : ∃ i : Int, (0 < i ∧ i < 20) ∧ (day + i + 3) % 7 < 5 := by
      by_cases h : (day + 1 + 3) % 7 < 5
      · exact ⟨1, by omega, h⟩
      · exact ⟨3, by omega, by omega⟩
    exact ⟨day + i, by omega, by omega, by simp [newYork, weekdaySession, hweekday]⟩
  have hdates : ∀ day opening closing, newYork.session day = some (opening, closing) →
      (newYork.astimezone opening).date = day ∧ opening < closing := by
    intro day opening closing hsession
    simp only [newYork, weekdaySession, Option.ite_none_right_eq_some, Option.some.injEq,
      Prod.mk.injEq] at hsession
    obtain ⟨-, rfl, rfl⟩ := hsession
    simp only [LocalTime.date, astimezone_wall, newYork, newYorkOffset, HOUR_MICROS, DAY_MICROS]
    split_ifs <;> omega
  obtain ⟨next, hnext, -, hminutes⟩ :=
    hall newYork (20518 * DAY_MICROS + 22 * HOUR_MICROS) hgaps hdates
  have hfound : newYork.getNextMarketOpen (20518 * DAY_MICROS + 22 * HOUR_MICROS) =
      some (newYork.astimezone (20521 * DAY_MICROS + 13 * HOUR_MICROS + HOUR_MICROS / 2)) := by
    decide +kernel
  obtain rfl := Option.some.inj (hfound.symm.trans hnext)
  revert hminutes
  decide +kernel

end Samples

end MarketCalendar

end Investor.Market
