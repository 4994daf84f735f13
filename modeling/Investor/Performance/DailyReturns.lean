import Investor.Performance.FifoBooks
import Mathlib.Algebra.Order.Ring.Rat

/-!
# Daily returns of the equity curve

The equity curve of a period is made of the portfolio's snapshots in it, or of the daily rows if
there are none. Each point but the first gives a return, and the statistics of the returns are
annualised by the trading days of a year: one observation is taken for one day. The curve has a
point for each snapshot, though, not for each day, so a snapshot that is written between two of
the same day adds a return. The statistics are the same exactly if it is not in the period
(`daily_unchanged_iff`).

A root is left as it is: a number is `coeff * √radicand`.
-/

namespace Investor.Performance

open Lib

namespace Daily

/-! ## The equity curve -/

/-- `PortfolioSnapshot`, the columns of the curve; instants in microseconds. -/
structure EquitySnapshot where
  asOf : Int
  equity : ℚ
  deriving DecidableEq

/-- `DailyPerformance`: the date as a day number, and the equity at its end. -/
structure DailyPerformance where
  tradeDate : Int
  endingEquity : ℚ
  deriving DecidableEq

def dayLength : Int := 86400 * 1000000

def dateOf (t : Int) : Int := t / dayLength

structure ReturnPeriod where
  start : Int
  stop : Int

def ReturnPeriod.holds (p : ReturnPeriod) (t : Int) : Bool := p.start ≤ t ∧ t ≤ p.stop

def dailyCurve (p : ReturnPeriod) (daily : List DailyPerformance) : List (Int × ℚ) :=
  ((sortedBy DailyPerformance.tradeDate daily).map fun d =>
    (d.tradeDate * dayLength, d.endingEquity)).filter fun e => p.holds e.1

/-- `PerformanceService._equity_curve`. -/
def equityCurve (p : ReturnPeriod) (snapshots : List EquitySnapshot) (daily : List DailyPerformance) :
    List (Int × ℚ) :=
  match sortedBy EquitySnapshot.asOf (snapshots.filter fun s => p.holds s.asOf) with
  | [] => dailyCurve p daily
  | snaps => snaps.map fun s => (s.asOf, s.equity)

/-! ## Returns and their statistics -/

/-- `daily_returns`. -/
def dailyReturns : List (Int × ℚ) → List (Int × ℚ)
  | [] => []
  | [_] => []
  | prev :: next :: rest =>
    (next.1, if prev.2 = 0 then 0 else (next.2 - prev.2) / prev.2) :: dailyReturns (next :: rest)

inductive MetricStatus
  | available | insufficientData | unreliable | unavailable
  deriving DecidableEq

/-- The number `coeff * √radicand`. -/
structure Surd where
  coeff : ℚ
  radicand : ℚ
  deriving DecidableEq

/-- `MetricResult`, less what the metrics here leave empty. -/
structure MetricResult where
  metricName : String
  value : Option Surd
  periodStart : Option Int := none
  periodEnd : Option Int := none
  observationCount : ℕ
  annualizationFactor : Option ℚ := none
  riskFreeRate : Option ℚ := none
  method : String
  status : MetricStatus := .available
  deriving DecidableEq

def ANNUALIZATION_FACTOR : ℚ := 252

def DEFAULT_MIN_OBS : ℕ := 2

/-- `statistics.variance`, of two numbers or more. -/
def variance (xs : List ℚ) : ℚ := (xs.map fun x => (x - mean xs) ^ 2).sum / (xs.length - 1)

/-- `time_weighted_return`. -/
def timeWeightedReturn (returns : List ℚ) : MetricResult :=
  if returns = [] then
    { metricName := "time_weighted_return", value := none, observationCount := 0,
      method := "chain_link", status := .insufficientData }
  else
    { metricName := "time_weighted_return"
      value := some ⟨(returns.map (1 + ·)).prod - 1, 1⟩
      observationCount := returns.length, method := "chain_link" }

/-- `annualized_volatility`. -/
def annualizedVolatility (returns : List ℚ) (p : ReturnPeriod) : MetricResult :=
  let metric : MetricResult :=
    { metricName := "annualized_volatility", value := none, periodStart := some p.start,
      periodEnd := some p.stop, observationCount := returns.length,
      annualizationFactor := some ANNUALIZATION_FACTOR, method := "sample_std" }
  if returns.length < DEFAULT_MIN_OBS then { metric with status := .insufficientData }
  else { metric with value := some ⟨1, variance returns * ANNUALIZATION_FACTOR⟩ }

/-- `sharpe_ratio`. -/
def sharpeRatio (returns : List ℚ) (riskFreeRate : ℚ) (p : ReturnPeriod) : MetricResult :=
  let metric : MetricResult :=
    { metricName := "sharpe_ratio", value := none, periodStart := some p.start,
      periodEnd := some p.stop, observationCount := returns.length,
      riskFreeRate := some riskFreeRate, method := "excess_return_over_vol" }
  if returns.length < DEFAULT_MIN_OBS then { metric with status := .insufficientData }
  else if variance returns = 0 then { metric with status := .unreliable }
  else
    let excess := returns.map (· - riskFreeRate / ANNUALIZATION_FACTOR)
    { metric with
      value := some ⟨mean excess, ANNUALIZATION_FACTOR / variance returns⟩
      annualizationFactor := some ANNUALIZATION_FACTOR }

/-- What `returns_summary` and `risk_summary` report of the daily returns, less what is compared with a
    benchmark or taken from the curve. -/
structure ReturnsReport where
  timeWeightedReturn : MetricResult
  observationCount : ℕ
  volatility : MetricResult
  sharpe : MetricResult
  deriving DecidableEq

def returnsReport (p : ReturnPeriod) (riskFreeRate : ℚ) (curve : List (Int × ℚ)) : ReturnsReport :=
  let rets := (dailyReturns curve).map (·.2)
  { timeWeightedReturn := timeWeightedReturn rets
    observationCount := rets.length
    volatility := annualizedVolatility rets p
    sharpe := sharpeRatio rets riskFreeRate p }

/-! ## Points and returns -/

theorem length_dailyReturns (curve : List (Int × ℚ)) :
    (dailyReturns curve).length = curve.length - 1 := by
  induction curve with
  | nil => rfl
  | cons prev rest ih =>
    cases rest with
    | nil => rfl
    | cons next rest =>
      rw [dailyReturns, List.length_cons, ih]
      rfl

theorem time_of_dailyReturns {curve : List (Int × ℚ)} {r : Int × ℚ} (h : r ∈ dailyReturns curve) :
    ∃ e ∈ curve, e.1 = r.1 := by
  induction curve with
  | nil => cases h
  | cons prev rest ih =>
    cases rest with
    | nil => cases h
    | cons next rest =>
      rw [dailyReturns] at h
      rcases List.mem_cons.mp h with rfl | h
      · exact ⟨next, by simp, rfl⟩
      · obtain ⟨e, he, htime⟩ := ih h
        exact ⟨e, List.mem_cons_of_mem _ he, htime⟩

theorem dailyReturns_eq_nil_iff {curve : List (Int × ℚ)} :
    dailyReturns curve = [] ↔ curve.length < 2 := by
  rw [← List.length_eq_zero_iff, length_dailyReturns]
  omega

/-! ## One more snapshot of a day -/

variable {p : ReturnPeriod} {snapshots added : List EquitySnapshot} {daily : List DailyPerformance}

def ReturnPeriod.of (p : ReturnPeriod) (snapshots : List EquitySnapshot) : List EquitySnapshot :=
  snapshots.filter fun s => p.holds s.asOf

def IsIntraday (snapshots : List EquitySnapshot) (s : EquitySnapshot) : Prop :=
  ∃ before ∈ snapshots, ∃ after ∈ snapshots, before.asOf < s.asOf ∧ s.asOf < after.asOf ∧
    dateOf before.asOf = dateOf s.asOf ∧ dateOf after.asOf = dateOf s.asOf

theorem equityCurve_of_snapshots (h : p.of snapshots ≠ []) :
    equityCurve p snapshots daily =
      (sortedBy EquitySnapshot.asOf (p.of snapshots)).map fun s => (s.asOf, s.equity) := by
  unfold equityCurve
  have hperm := sortedBy_perm EquitySnapshot.asOf (p.of snapshots)
  split
  · rename_i hnone
    have hnil : sortedBy EquitySnapshot.asOf (p.of snapshots) = [] := hnone
    rw [hnil] at hperm
    exact absurd hperm.nil_eq.symm h
  · rfl

theorem equityCurve_of_none (h : p.of snapshots = []) :
    equityCurve p snapshots daily = dailyCurve p daily := by
  have hnil : sortedBy EquitySnapshot.asOf (snapshots.filter fun s => p.holds s.asOf) = [] := by
    show sortedBy EquitySnapshot.asOf (p.of snapshots) = []
    rw [h]
    rfl
  simp only [equityCurve, hnil]

theorem length_equityCurve (h : p.of snapshots ≠ []) :
    (equityCurve p snapshots daily).length = (p.of snapshots).length := by
  rw [equityCurve_of_snapshots h, List.length_map, (sortedBy_perm _ _).length_eq]

theorem of_append : p.of (snapshots ++ added) = p.of snapshots ++ p.of added :=
  List.filter_append ..

theorem IsIntraday.not_midnight {s : EquitySnapshot} (h : IsIntraday snapshots s) (day : Int) :
    s.asOf ≠ day * dayLength := by
  obtain ⟨before, -, -, -, hlt, -, hdate, -⟩ := h
  intro hmidnight
  unfold dateOf dayLength at hdate
  unfold dayLength at hmidnight
  omega

theorem midnight_of_dailyCurve {e : Int × ℚ} (h : e ∈ dailyCurve p daily) :
    ∃ day, e.1 = day * dayLength := by
  obtain ⟨d, -, rfl⟩ := List.mem_map.mp (List.mem_filter.mp h).1
  exact ⟨d.tradeDate, rfl⟩

theorem intraday_ne_daily (hadded : ∀ s ∈ added, IsIntraday snapshots s) (hold : p.of snapshots = [])
    (hmany : 2 ≤ (p.of added).length) :
    dailyReturns (equityCurve p (snapshots ++ added) daily) ≠ dailyReturns (dailyCurve p daily) := by
  have hof : p.of (snapshots ++ added) = p.of added := by
    rw [of_append, hold, List.nil_append]
  have hnew : p.of (snapshots ++ added) ≠ [] := by
    intro hnil
    rw [← hof, hnil] at hmany
    simp at hmany
  have hsome : dailyReturns (equityCurve p (snapshots ++ added) daily) ≠ [] := by
    rw [ne_eq, dailyReturns_eq_nil_iff, length_equityCurve hnew, hof]
    omega
  obtain ⟨r, hr⟩ := List.exists_mem_of_ne_nil _ hsome
  intro hsame
  -- the return stands at an added snapshot, and at a midnight
  obtain ⟨e, he, htime⟩ := time_of_dailyReturns hr
  rw [equityCurve_of_snapshots hnew, hof] at he
  obtain ⟨s, hs, rfl⟩ := List.mem_map.mp he
  have hs : s ∈ p.of added := (sortedBy_perm _ _).mem_iff.mp hs
  rw [hsame] at hr
  obtain ⟨e, he, hdaily⟩ := time_of_dailyReturns hr
  obtain ⟨day, hday⟩ := midnight_of_dailyCurve he
  apply (hadded s (List.mem_filter.mp hs).1).not_midnight day
  rw [← hday, hdaily, ← htime]

/-- **The returns and their statistics stay as they are exactly if no snapshot is added in the period**, or
    the only one there is adds no return and no daily row gave one. -/
theorem daily_unchanged_iff (riskFreeRate : ℚ) (hadded : ∀ s ∈ added, IsIntraday snapshots s) :
    (dailyReturns (equityCurve p (snapshots ++ added) daily) =
        dailyReturns (equityCurve p snapshots daily) ∧
      returnsReport p riskFreeRate (equityCurve p (snapshots ++ added) daily) =
        returnsReport p riskFreeRate (equityCurve p snapshots daily)) ↔
    p.of added = [] ∨ p.of snapshots = [] ∧ (p.of added).length = 1 ∧
      (dailyCurve p daily).length < 2 := by
  have hreport : ∀ curve curve' : List (Int × ℚ), dailyReturns curve = dailyReturns curve' →
      returnsReport p riskFreeRate curve = returnsReport p riskFreeRate curve' := by
    intro curve curve' hsame
    unfold returnsReport
    rw [hsame]
  have hboth : ∀ curve curve' : List (Int × ℚ), (dailyReturns curve = dailyReturns curve' ∧
      returnsReport p riskFreeRate curve = returnsReport p riskFreeRate curve') ↔
        dailyReturns curve = dailyReturns curve' :=
    fun curve curve' => ⟨And.left, fun hsame => ⟨hsame, hreport curve curve' hsame⟩⟩
  rw [hboth]
  by_cases hnone : p.of added = []
  · refine iff_of_true ?_ (Or.inl hnone)
    have hsame : p.of (snapshots ++ added) = p.of snapshots := by
      rw [of_append, hnone, List.append_nil]
    by_cases hold : p.of snapshots = []
    · rw [equityCurve_of_none hold, equityCurve_of_none (hsame.trans hold)]
    · rw [equityCurve_of_snapshots hold, equityCurve_of_snapshots (hsame ▸ hold), hsame]
  · have hnew : p.of (snapshots ++ added) ≠ [] := by
      rw [of_append]
      simp [hnone]
    have hcount : (dailyReturns (equityCurve p (snapshots ++ added) daily)).length =
        (p.of snapshots).length + (p.of added).length - 1 := by
      rw [length_dailyReturns, length_equityCurve hnew, of_append, List.length_append]
    have hpos : 0 < (p.of added).length := List.length_pos_iff.mpr hnone
    by_cases hold : p.of snapshots = []
    · rw [equityCurve_of_none hold]
      by_cases hone : (p.of added).length = 1
      · have hnil : dailyReturns (equityCurve p (snapshots ++ added) daily) = [] := by
          rw [← List.length_eq_zero_iff, hcount, hold, hone]
          rfl
        rw [hnil, eq_comm, dailyReturns_eq_nil_iff]
        simp [hnone, hold, hone]
      · have hne : dailyReturns (equityCurve p (snapshots ++ added) daily) ≠
            dailyReturns (dailyCurve p daily) := intraday_ne_daily hadded hold (by omega)
        simp [hne, hnone, hone]
    · have holdPos : 0 < (p.of snapshots).length := List.length_pos_iff.mpr hold
      refine iff_of_false (fun hsame => ?_) (fun hor => ?_)
      · have hlength := congrArg List.length hsame
        rw [hcount, length_dailyReturns, length_equityCurve hold] at hlength
        omega
      · rcases hor with hor | ⟨hor, -⟩
        · exact hnone hor
        · exact hold hor

section Sample

def samplePeriod : ReturnPeriod := { start := 0, stop := 2 * dayLength }

def sampleSnapshots : List EquitySnapshot :=
  [{ asOf := 1000, equity := 100 }, { asOf := 5000, equity := 110 },
    { asOf := dayLength + 5000, equity := 121 }]

def sampleMark : EquitySnapshot := { asOf := 3000, equity := 80 }

theorem sampleMark_intraday : ∀ s ∈ [sampleMark], IsIntraday sampleSnapshots s := by
  intro s hs
  rw [List.mem_singleton.mp hs]
  exact ⟨⟨1000, 100⟩, by simp [sampleSnapshots], ⟨5000, 110⟩, by simp [sampleSnapshots],
    by decide, by decide, by decide, by decide⟩

/-- A mark before the period leaves the returns of the period as they are. -/
theorem daily_unchanged_iff_before :
    (dailyReturns (equityCurve ⟨4000, 2 * dayLength⟩ (sampleSnapshots ++ [sampleMark]) []) =
        dailyReturns (equityCurve ⟨4000, 2 * dayLength⟩ sampleSnapshots []) ∧
      returnsReport ⟨4000, 2 * dayLength⟩ 0
          (equityCurve ⟨4000, 2 * dayLength⟩ (sampleSnapshots ++ [sampleMark]) []) =
        returnsReport ⟨4000, 2 * dayLength⟩ 0
          (equityCurve ⟨4000, 2 * dayLength⟩ sampleSnapshots [])) ↔
    ReturnPeriod.of ⟨4000, 2 * dayLength⟩ [sampleMark] = [] ∨
      ReturnPeriod.of ⟨4000, 2 * dayLength⟩ sampleSnapshots = [] ∧
        (ReturnPeriod.of ⟨4000, 2 * dayLength⟩ [sampleMark]).length = 1 ∧
        (dailyCurve ⟨4000, 2 * dayLength⟩ []).length < 2 :=
  daily_unchanged_iff 0 sampleMark_intraday

/-- The mark in the period turns two returns of a tenth, without volatility and so without a ratio, into
    three that have both. -/
theorem mark_counted_as_day :
    IsIntraday sampleSnapshots sampleMark ∧
    (let report := returnsReport samplePeriod 0 (equityCurve samplePeriod sampleSnapshots [])
     report.observationCount = 2 ∧ report.volatility.value = some ⟨1, 0⟩ ∧
       report.sharpe.status = .unreliable) ∧
    (let report := returnsReport samplePeriod 0
       (equityCurve samplePeriod (sampleSnapshots ++ [sampleMark]) [])
     report.observationCount = 3 ∧ report.volatility.value = some ⟨1, 8337 / 400⟩ ∧
       report.sharpe.status = .available) := by
  refine ⟨sampleMark_intraday sampleMark (by simp), ?_, ?_⟩
  · decide +kernel
  · decide +kernel

end Sample

end Daily

end Investor.Performance
