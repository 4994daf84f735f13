import Investor.Performance.DailyReturns

/-!
# Drawdowns of the equity curve

`compute_drawdowns` goes over the curve once. It holds the peak and the trough since, and a point
that reaches the peak closes the drawdown it ends and is the peak from there on. What is held
after any points is `Scanned`: one point keeps it (`Scanned.step`), so it holds of the whole curve
(`scanned_curve`).

The periods are disjoint and in order, and they cover exactly the points that lie below one before
them. As a point below an earlier one lies in a period whose peak is no lower and whose trough is
no higher, the worst of the periods is the worst of all pairs (`isLeast_worst`).
-/

namespace Investor.Performance.Drawdown

open Lib Daily

/-! ## Periods -/

inductive DrawdownStatus
  | active | recovered
  deriving DecidableEq

structure DrawdownPeriod where
  peakAt : Int
  peakValue : ℚ
  troughAt : Int
  troughValue : ℚ
  recoveredAt : Option Int
  drawdownPct : ℚ
  durationDays : Int
  recoveryDays : Option Int
  status : DrawdownStatus
  deriving DecidableEq

/-- A time of the curve, in microseconds, and the equity at it. -/
abbrev EquityPoint := Int × ℚ

/-- `_days_between`. -/
def daysBetween (a b : Int) : Int := max 0 ((b - a) / dayLength)

structure Scan where
  periods : List DrawdownPeriod
  peak : EquityPoint
  trough : EquityPoint
  inDd : Bool

def Scan.recovered (s : Scan) (e : EquityPoint) : DrawdownPeriod :=
  { peakAt := s.peak.1, peakValue := s.peak.2, troughAt := s.trough.1, troughValue := s.trough.2
    recoveredAt := some e.1
    drawdownPct := if s.peak.2 ≠ 0 then (s.trough.2 - s.peak.2) / s.peak.2 else 0
    durationDays := daysBetween s.peak.1 s.trough.1
    recoveryDays := some (daysBetween s.trough.1 e.1)
    status := .recovered }

def Scan.active (s : Scan) : DrawdownPeriod :=
  { peakAt := s.peak.1, peakValue := s.peak.2, troughAt := s.trough.1, troughValue := s.trough.2
    recoveredAt := none
    drawdownPct := (s.trough.2 - s.peak.2) / s.peak.2
    durationDays := daysBetween s.peak.1 s.trough.1
    recoveryDays := none
    status := .active }

def scanPoint (s : Scan) (e : EquityPoint) : Scan :=
  if s.peak.2 ≤ e.2 then
    { periods := if s.inDd then s.periods ++ [s.recovered e] else s.periods
      peak := e, trough := e, inDd := false }
  else { s with inDd := true, trough := if e.2 < s.trough.2 then e else s.trough }

def scanCurve (first : EquityPoint) (rest : List EquityPoint) : Scan :=
  rest.foldl scanPoint { periods := [], peak := first, trough := first, inDd := false }

/-- `compute_drawdowns`. -/
def computeDrawdowns : List EquityPoint → List DrawdownPeriod
  | [] => []
  | [_] => []
  | first :: rest =>
    let s := scanCurve first rest
    if s.inDd ∧ 0 < s.peak.2 then s.periods ++ [s.active] else s.periods

/-- `max_drawdown`. -/
def maxDrawdown (curve : List EquityPoint) : Daily.MetricResult :=
  match firstLeast DrawdownPeriod.drawdownPct (computeDrawdowns curve) with
  | none =>
    { metricName := "max_drawdown", value := none, observationCount := curve.length
      method := "peak_to_trough", status := .insufficientData }
  | some worst =>
    { metricName := "max_drawdown", value := some ⟨worst.drawdownPct, 1⟩
      periodStart := some worst.peakAt, periodEnd := some worst.troughAt
      observationCount := curve.length, method := "peak_to_trough" }

/-- `current_drawdown`. -/
def currentDrawdown (curve : List EquityPoint) : Daily.MetricResult :=
  match greatestKey (·.2) curve, curve.head?, curve.getLast? with
  | some peakVal, some first, some last =>
    if peakVal = 0 then
      { metricName := "current_drawdown", value := none, observationCount := curve.length
        method := "peak_to_current", status := .unreliable }
    else
      { metricName := "current_drawdown", value := some ⟨(last.2 - peakVal) / peakVal, 1⟩
        periodStart := some first.1, periodEnd := some last.1
        observationCount := curve.length, method := "peak_to_current" }
  | _, _, _ =>
    { metricName := "current_drawdown", value := none, observationCount := 0
      method := "peak_to_current", status := .insufficientData }

/-! ## What a period says -/

def DrawdownPeriod.Covers (p : DrawdownPeriod) (t : Int) : Prop :=
  p.peakAt < t ∧ ∀ r, p.recoveredAt = some r → t < r

def DrawdownPeriod.Before (p q : DrawdownPeriod) : Prop := ∃ r, p.recoveredAt = some r ∧ r ≤ q.peakAt

theorem DrawdownPeriod.Before.disjoint {p q : DrawdownPeriod} (h : p.Before q) (t : Int) :
    ¬(p.Covers t ∧ q.Covers t) := by
  intro hboth
  obtain ⟨r, hr, hle⟩ := h
  have hbefore := hboth.1.2 r hr
  have hafter := hboth.2.1
  omega

/-- A fall from a peak of these points to the trough that follows it. -/
structure DrawdownPeriod.Of (points : List EquityPoint) (p : DrawdownPeriod) : Prop where
  peak : (p.peakAt, p.peakValue) ∈ points
  trough : (p.troughAt, p.troughValue) ∈ points
  covers : p.Covers p.troughAt
  falls : p.troughValue < p.peakValue
  /-- Up to the recovery nothing is above the peak. -/
  highest : ∀ e ∈ points, (∀ r, p.recoveredAt = some r → e.1 < r) → e.2 ≤ p.peakValue
  /-- What it covers is below the peak and not below the trough. -/
  between : ∀ e ∈ points, p.Covers e.1 → e.2 < p.peakValue ∧ p.troughValue ≤ e.2
  pct : p.drawdownPct = (p.troughValue - p.peakValue) / p.peakValue

/-! ## What the loop holds -/

structure Scanned (seen : List EquityPoint) (s : Scan) : Prop where
  peak_mem : s.peak ∈ seen
  peak_le : ∀ e ∈ seen, e.2 ≤ s.peak.2
  since : ∀ e ∈ seen, s.peak.1 < e.1 → s.inDd ∧ e.2 < s.peak.2 ∧ s.trough.2 ≤ e.2
  falls : s.inDd → s.trough ∈ seen ∧ s.peak.1 < s.trough.1 ∧ s.trough.2 < s.peak.2
  level : s.inDd = false → s.trough = s.peak
  periods : ∀ p ∈ s.periods, p.Of seen ∧ ∃ r, p.recoveredAt = some r ∧ r ≤ s.peak.1
  ordered : s.periods.Pairwise DrawdownPeriod.Before
  covered : ∀ e ∈ seen, e.1 ≤ s.peak.1 → (∃ f ∈ seen, f.1 ≤ e.1 ∧ e.2 < f.2) →
    ∃ p ∈ s.periods, p.Covers e.1

theorem Scanned.ordered_append {seen : List EquityPoint} {s : Scan} (h : Scanned seen s) {q : DrawdownPeriod}
    (hq : q.peakAt = s.peak.1) : (s.periods ++ [q]).Pairwise DrawdownPeriod.Before := by
  refine List.pairwise_append.mpr ⟨h.ordered, List.pairwise_singleton _ _, ?_⟩
  intro p hp x hx
  rw [List.mem_singleton.mp hx]
  obtain ⟨r, hr, hle⟩ := (h.periods p hp).2
  exact ⟨r, hr, hq ▸ hle⟩

theorem scanned_first (first : EquityPoint) :
    Scanned [first] { periods := [], peak := first, trough := first, inDd := false } where
  peak_mem := List.mem_singleton_self first
  peak_le := by
    intro e he
    rw [List.mem_singleton.mp he]
  since := by
    intro e he hlater
    rw [List.mem_singleton.mp he] at hlater
    exact absurd hlater (lt_irrefl _)
  falls := by simp
  level := by simp
  periods := by simp
  ordered := List.Pairwise.nil
  covered := by
    intro e he _ hbelow
    obtain ⟨f, hf, -, hlt⟩ := hbelow
    rw [List.mem_singleton.mp he, List.mem_singleton.mp hf] at hlt
    exact absurd hlt (lt_irrefl _)

theorem DrawdownPeriod.Of.concat {seen : List EquityPoint} {p : DrawdownPeriod} {r : Int} {e : EquityPoint}
    (h : p.Of seen) (hr : p.recoveredAt = some r) (hlate : r ≤ e.1) : p.Of (seen ++ [e]) where
  peak := List.mem_append_left _ h.peak
  trough := List.mem_append_left _ h.trough
  covers := h.covers
  falls := h.falls
  highest := by
    intro f hf hbefore
    rcases List.mem_append.mp hf with hf | hf
    · exact h.highest f hf hbefore
    · rw [List.mem_singleton.mp hf] at hbefore
      exact absurd (hbefore r hr) (not_lt.mpr hlate)
  between := by
    intro f hf hcovers
    rcases List.mem_append.mp hf with hf | hf
    · exact h.between f hf hcovers
    · rw [List.mem_singleton.mp hf] at hcovers
      exact absurd (hcovers.2 r hr) (not_lt.mpr hlate)
  pct := h.pct

section Step

variable {seen : List EquityPoint} {s : Scan} {e : EquityPoint}

theorem Scanned.recovered_of (h : Scanned seen s) (hpos : 0 < s.peak.2) (hin : s.inDd)
    (htimes : ∀ f ∈ seen, f.1 < e.1) : (s.recovered e).Of seen where
  peak := h.peak_mem
  trough := (h.falls hin).1
  covers := by
    refine ⟨(h.falls hin).2.1, ?_⟩
    intro r hr
    rw [← Option.some.inj hr]
    exact htimes _ (h.falls hin).1
  falls := (h.falls hin).2.2
  highest := fun f hf _ => h.peak_le f hf
  between := fun f hf hcovers => (h.since f hf hcovers.1).2
  pct := if_pos hpos.ne'

/-- **A point that reaches the peak** is the peak from there on. -/
theorem Scanned.reset (h : Scanned seen s) (hpos : 0 < s.peak.2) (htimes : ∀ f ∈ seen, f.1 < e.1)
    (hreach : s.peak.2 ≤ e.2) : Scanned (seen ++ [e]) (scanPoint s e) := by
  have hpeak : s.peak.1 < e.1 := htimes _ h.peak_mem
  have hold : ∀ p ∈ s.periods, p.Of (seen ++ [e]) ∧ ∃ r, p.recoveredAt = some r ∧ r ≤ e.1 := by
    intro p hp
    obtain ⟨hof, r, hr, hle⟩ := h.periods p hp
    exact ⟨hof.concat hr (hle.trans hpeak.le), r, hr, hle.trans hpeak.le⟩
  have hnew : s.inDd → (s.recovered e).Of (seen ++ [e]) := fun hin =>
    (h.recovered_of hpos hin htimes).concat rfl le_rfl
  rw [scanPoint, if_pos hreach]
  exact {
    peak_mem := List.mem_append_right _ (List.mem_singleton_self e)
    peak_le := by
      intro f hf
      rcases List.mem_append.mp hf with hf | hf
      · exact (h.peak_le f hf).trans hreach
      · rw [List.mem_singleton.mp hf]
    since := by
      intro f hf hlater
      rcases List.mem_append.mp hf with hf | hf
      · exact absurd hlater (not_lt.mpr (htimes f hf).le)
      · rw [List.mem_singleton.mp hf] at hlater
        exact absurd hlater (lt_irrefl _)
    falls := by simp
    level := by simp
    periods := by
      intro p hp
      dsimp only at hp
      split at hp
      · rename_i hin
        rcases List.mem_append.mp hp with hp | hp
        · exact hold p hp
        · rw [List.mem_singleton.mp hp]
          exact ⟨hnew hin, e.1, rfl, le_rfl⟩
      · exact hold p hp
    ordered := by
      dsimp only
      split
      · exact h.ordered_append rfl
      · exact h.ordered
    covered := by
      intro f hf _ hbelow
      obtain ⟨g, hg, hgf, hlt⟩ := hbelow
      have hseen : f ∈ seen := by
        rcases List.mem_append.mp hf with hf | hf
        · exact hf
        · -- the point itself is below none
          rw [List.mem_singleton.mp hf] at hlt
          rcases List.mem_append.mp hg with hg | hg
          · exact absurd (hlt.trans_le (h.peak_le g hg)) (not_lt.mpr hreach)
          · rw [List.mem_singleton.mp hg] at hlt
            exact absurd hlt (lt_irrefl _)
      have hgseen : g ∈ seen := by
        rcases List.mem_append.mp hg with hg | hg
        · exact hg
        · rw [List.mem_singleton.mp hg] at hgf
          exact absurd (htimes f hseen) (not_lt.mpr hgf)
      dsimp only
      by_cases hlater : s.peak.1 < f.1
      · have hin := (h.since f hseen hlater).1
        rw [if_pos hin]
        refine ⟨s.recovered e, List.mem_append_right _ (List.mem_singleton_self _), hlater, ?_⟩
        intro r hr
        rw [← Option.some.inj hr]
        exact htimes f hseen
      · obtain ⟨p, hp, hcovers⟩ := h.covered f hseen (not_lt.mp hlater) ⟨g, hgseen, hgf, hlt⟩
        refine ⟨p, ?_, hcovers⟩
        split
        · exact List.mem_append_left _ hp
        · exact hp }

theorem Scanned.fall (h : Scanned seen s) (htimes : ∀ f ∈ seen, f.1 < e.1) (hbelow : e.2 < s.peak.2) :
    Scanned (seen ++ [e]) (scanPoint s e) := by
  have hpeak : s.peak.1 < e.1 := htimes _ h.peak_mem
  have htrough : s.inDd = false → e.2 < s.trough.2 := by
    intro hin
    rw [h.level hin]
    exact hbelow
  rw [scanPoint, if_neg (not_le.mpr hbelow)]
  exact {
    peak_mem := List.mem_append_left _ h.peak_mem
    peak_le := by
      intro f hf
      rcases List.mem_append.mp hf with hf | hf
      · exact h.peak_le f hf
      · rw [List.mem_singleton.mp hf]
        exact hbelow.le
    since := by
      intro f hf hlater
      refine ⟨rfl, ?_⟩
      dsimp only
      rcases List.mem_append.mp hf with hf | hf
      · obtain ⟨-, hlt, hle⟩ := h.since f hf hlater
        refine ⟨hlt, ?_⟩
        split
        · rename_i hlower
          exact hlower.le.trans hle
        · exact hle
      · rw [List.mem_singleton.mp hf]
        refine ⟨hbelow, ?_⟩
        split
        · exact le_rfl
        · rename_i hhigher
          exact not_lt.mp hhigher
    falls := by
      intro _
      dsimp only
      split
      · exact ⟨List.mem_append_right _ (List.mem_singleton_self e), hpeak, hbelow⟩
      · rename_i hhigher
        cases hin : s.inDd with
        | false => exact absurd (htrough hin) hhigher
        | true =>
          obtain ⟨hmem, hlater, hlt⟩ := h.falls hin
          exact ⟨List.mem_append_left _ hmem, hlater, hlt⟩
    level := by simp
    periods := by
      intro p hp
      obtain ⟨hof, r, hr, hle⟩ := h.periods p hp
      exact ⟨hof.concat hr (hle.trans hpeak.le), r, hr, hle⟩
    ordered := h.ordered
    covered := by
      intro f hf hbefore hhigher
      obtain ⟨g, hg, hgf, hlt⟩ := hhigher
      have hseen : ∀ x ∈ seen ++ [e], x.1 ≤ s.peak.1 → x ∈ seen := by
        intro x hx hle
        rcases List.mem_append.mp hx with hx | hx
        · exact hx
        · rw [List.mem_singleton.mp hx] at hle
          exact absurd hpeak (not_lt.mpr hle)
      exact h.covered f (hseen f hf hbefore) hbefore ⟨g, hseen g hg (hgf.trans hbefore), hgf, hlt⟩ }

theorem Scanned.step (h : Scanned seen s) (hpos : 0 < s.peak.2) (htimes : ∀ f ∈ seen, f.1 < e.1) :
    Scanned (seen ++ [e]) (scanPoint s e) := by
  by_cases hreach : s.peak.2 ≤ e.2
  · exact h.reset hpos htimes hreach
  · exact h.fall htimes (not_le.mp hreach)

end Step

def InOrder (curve : List EquityPoint) : Prop := curve.Pairwise fun e f => e.1 < f.1

theorem Scanned.run {seen rest : List EquityPoint} {s : Scan} (h : Scanned seen s)
    (hpos : ∀ e ∈ seen ++ rest, 0 < e.2) (htimes : InOrder (seen ++ rest)) :
    Scanned (seen ++ rest) (rest.foldl scanPoint s) := by
  induction rest generalizing seen s with
  | nil => simpa using h
  | cons e rest ih =>
    have hsplit : seen ++ e :: rest = (seen ++ [e]) ++ rest := by simp
    have hbefore : ∀ f ∈ seen, f.1 < e.1 := fun f hf =>
      (List.pairwise_append.mp htimes).2.2 f hf e (List.mem_cons_self ..)
    have hstep := h.step (hpos _ (List.mem_append_left _ h.peak_mem)) hbefore
    rw [hsplit] at hpos htimes ⊢
    exact ih hstep hpos htimes

theorem scanned_curve {first : EquityPoint} {rest : List EquityPoint}
    (hpos : ∀ e ∈ first :: rest, 0 < e.2) (htimes : InOrder (first :: rest)) :
    Scanned (first :: rest) (scanCurve first rest) :=
  (scanned_first first).run hpos htimes

theorem Scanned.active_of {seen : List EquityPoint} {s : Scan} (h : Scanned seen s) (hin : s.inDd) :
    s.active.Of seen where
  peak := h.peak_mem
  trough := (h.falls hin).1
  covers := ⟨(h.falls hin).2.1, fun _ hr => by cases hr⟩
  falls := (h.falls hin).2.2
  highest := fun f hf _ => h.peak_le f hf
  between := fun f hf hcovers => (h.since f hf hcovers.1).2
  pct := rfl

/-! ## The periods of a curve -/

section Curve

variable {curve : List EquityPoint}

theorem computeDrawdowns_cons (first : EquityPoint) (rest : List EquityPoint) :
    computeDrawdowns (first :: rest) =
      if (scanCurve first rest).inDd ∧ 0 < (scanCurve first rest).peak.2 then
        (scanCurve first rest).periods ++ [(scanCurve first rest).active]
      else (scanCurve first rest).periods := by
  cases rest with
  | nil => simp [computeDrawdowns, scanCurve]
  | cons e rest => rfl

theorem of_mem_computeDrawdowns (hpos : ∀ e ∈ curve, 0 < e.2) (htimes : InOrder curve) {p : DrawdownPeriod}
    (hp : p ∈ computeDrawdowns curve) : p.Of curve := by
  cases curve with
  | nil => simp [computeDrawdowns] at hp
  | cons first rest =>
    have h := scanned_curve hpos htimes
    rw [computeDrawdowns_cons] at hp
    split at hp
    · rename_i hin
      rcases List.mem_append.mp hp with hp | hp
      · exact (h.periods p hp).1
      · rw [List.mem_singleton.mp hp]
        exact h.active_of hin.1
    · exact (h.periods p hp).1

theorem computeDrawdowns_ordered (hpos : ∀ e ∈ curve, 0 < e.2) (htimes : InOrder curve) :
    (computeDrawdowns curve).Pairwise DrawdownPeriod.Before := by
  cases curve with
  | nil => simp [computeDrawdowns]
  | cons first rest =>
    have h := scanned_curve hpos htimes
    rw [computeDrawdowns_cons]
    split
    · exact h.ordered_append rfl
    · exact h.ordered

theorem covered_iff (hpos : ∀ e ∈ curve, 0 < e.2) (htimes : InOrder curve) {e : EquityPoint}
    (he : e ∈ curve) :
    (∃ p ∈ computeDrawdowns curve, p.Covers e.1) ↔ ∃ f ∈ curve, f.1 ≤ e.1 ∧ e.2 < f.2 := by
  constructor
  · intro hcovered
    obtain ⟨p, hp, hcovers⟩ := hcovered
    have hof := of_mem_computeDrawdowns hpos htimes hp
    exact ⟨_, hof.peak, hcovers.1.le, (hof.between e he hcovers).1⟩
  · intro hbelow
    cases curve with
    | nil => cases he
    | cons first rest =>
      have h := scanned_curve hpos htimes
      rw [computeDrawdowns_cons]
      by_cases hlater : (scanCurve first rest).peak.1 < e.1
      · have hin := (h.since e he hlater).1
        rw [if_pos ⟨hin, hpos _ h.peak_mem⟩]
        exact ⟨_, List.mem_append_right _ (List.mem_singleton_self _), hlater, fun _ hr => by cases hr⟩
      · obtain ⟨p, hp, hcovers⟩ := h.covered e he (not_lt.mp hlater) hbelow
        refine ⟨p, ?_, hcovers⟩
        split
        · exact List.mem_append_left _ hp
        · exact hp

/-! ## The worst of them -/

theorem change_le {a b c d : ℚ} (hc : 0 < c) (hd : 0 < d) (hb : 0 < b) (hab : a ≤ b) (hdc : d ≤ c) :
    (a - c) / c ≤ (b - d) / d := by
  have hleft : (a - c) / c = a / c - 1 := by field_simp
  have hright : (b - d) / d = b / d - 1 := by field_simp
  have hquot : a / c ≤ b / d := by
    calc a / c ≤ b / c := by gcongr
      _ ≤ b / d := by gcongr
  rw [hleft, hright]
  linarith

theorem exists_period_le (hpos : ∀ e ∈ curve, 0 < e.2) (htimes : InOrder curve) {e f : EquityPoint}
    (he : e ∈ curve) (hf : f ∈ curve) (hef : e.1 ≤ f.1) (hfall : f.2 < e.2) :
    ∃ p ∈ computeDrawdowns curve, p.drawdownPct ≤ (f.2 - e.2) / e.2 := by
  obtain ⟨p, hp, hcovers⟩ := (covered_iff hpos htimes hf).mpr ⟨e, he, hef, hfall⟩
  have hof := of_mem_computeDrawdowns hpos htimes hp
  have hpeak : e.2 ≤ p.peakValue := hof.highest e he fun r hr => hef.trans_lt (hcovers.2 r hr)
  refine ⟨p, hp, ?_⟩
  rw [hof.pct]
  exact change_le (hpos _ hof.peak) (hpos e he) (hpos f hf) (hof.between f hf hcovers).2 hpeak

/-! ## Pairs of points -/

def Earlier (curve : List EquityPoint) (e f : EquityPoint) : Prop :=
  ∃ i j : ℕ, i ≤ j ∧ curve[i]? = some e ∧ curve[j]? = some f

/-- What the curve gains or loses from a point to one that is no earlier. -/
def changes (curve : List EquityPoint) : Set ℚ :=
  {r | ∃ e f, Earlier curve e f ∧ r = (f.2 - e.2) / e.2}

theorem earlier_iff (htimes : InOrder curve) {e f : EquityPoint} :
    Earlier curve e f ↔ e ∈ curve ∧ f ∈ curve ∧ e.1 ≤ f.1 := by
  have hlt : ∀ {i j : ℕ} {e f : EquityPoint}, i < j → curve[i]? = some e → curve[j]? = some f →
      e.1 < f.1 := by
    intro i j e f hij hi hj
    obtain ⟨hilen, rfl⟩ := List.getElem?_eq_some_iff.mp hi
    obtain ⟨hjlen, rfl⟩ := List.getElem?_eq_some_iff.mp hj
    exact List.pairwise_iff_getElem.mp htimes i j hilen hjlen hij
  constructor
  · intro h
    obtain ⟨i, j, hij, hi, hj⟩ := h
    refine ⟨List.mem_of_getElem? hi, List.mem_of_getElem? hj, ?_⟩
    rcases Nat.lt_or_eq_of_le hij with hij | rfl
    · exact (hlt hij hi hj).le
    · rw [Option.some.inj (hi.symm.trans hj)]
  · intro h
    obtain ⟨he, hf, hle⟩ := h
    obtain ⟨i, hi⟩ := List.mem_iff_getElem?.mp he
    obtain ⟨j, hj⟩ := List.mem_iff_getElem?.mp hf
    refine ⟨i, j, ?_, hi, hj⟩
    by_contra hji
    exact absurd (hlt (not_le.mp hji) hj hi) (not_lt.mpr hle)

theorem InOrder.eq_of_time (htimes : InOrder curve) {e f : EquityPoint} (he : e ∈ curve) (hf : f ∈ curve)
    (h : e.1 = f.1) : e = f := by
  have hnodup : (curve.map Prod.fst).Nodup :=
    List.pairwise_map.mpr (htimes.imp fun hlt => hlt.ne)
  exact List.inj_on_of_nodup_map hnodup he hf h

theorem isLeast_worst (hpos : ∀ e ∈ curve, 0 < e.2) (htimes : InOrder curve) {p : DrawdownPeriod}
    (hp : p ∈ computeDrawdowns curve)
    (hworst : ∀ q ∈ computeDrawdowns curve, p.drawdownPct ≤ q.drawdownPct) :
    IsLeast (changes curve) p.drawdownPct := by
  have hof := of_mem_computeDrawdowns hpos htimes hp
  have hneg : p.drawdownPct ≤ 0 := by
    rw [hof.pct]
    exact div_nonpos_of_nonpos_of_nonneg (by linarith [hof.falls]) (hpos _ hof.peak).le
  refine ⟨⟨_, _, (earlier_iff htimes).mpr ⟨hof.peak, hof.trough, hof.covers.1.le⟩, hof.pct⟩, ?_⟩
  intro r hr
  obtain ⟨e, f, hearlier, rfl⟩ := hr
  obtain ⟨he, hf, hle⟩ := (earlier_iff htimes).mp hearlier
  by_cases hfall : f.2 < e.2
  · obtain ⟨q, hq, hdeeper⟩ := exists_period_le hpos htimes he hf hle hfall
    exact (hworst q hq).trans hdeeper
  · exact hneg.trans (div_nonneg (by linarith) (hpos e he).le)

theorem currentDrawdown_value (hpos : ∀ e ∈ curve, 0 < e.2) (htimes : InOrder curve) (hne : curve ≠ []) :
    ∃ c, (currentDrawdown curve).value = some ⟨c, 1⟩ ∧ c ∈ changes curve := by
  obtain ⟨first, hfirst⟩ := Option.ne_none_iff_exists'.mp (mt List.head?_eq_none_iff.mp hne)
  obtain ⟨last, hlast⟩ := Option.ne_none_iff_exists'.mp (mt List.getLast?_eq_none_iff.mp hne)
  have hsome : greatestKey (fun e : EquityPoint => e.2) curve ≠ none := by
    simpa [greatestKey] using hne
  obtain ⟨peakVal, hpeak⟩ := Option.ne_none_iff_exists'.mp hsome
  obtain ⟨⟨peak, hmem, rfl⟩, -⟩ := greatestKey_eq_some_iff.mp hpeak
  refine ⟨(last.2 - peak.2) / peak.2, ?_, peak, last, ?_, rfl⟩
  · rw [currentDrawdown, hpeak, hfirst, hlast]
    simp [(hpos peak hmem).ne']
  · refine (earlier_iff htimes).mpr ⟨hmem, List.mem_of_mem_getLast? hlast, ?_⟩
    obtain ⟨front, rfl⟩ := List.getLast?_eq_some_iff.mp hlast
    rcases List.mem_append.mp hmem with hmem | hmem
    · exact ((List.pairwise_append.mp htimes).2.2 peak hmem last (List.mem_singleton_self _)).le
    · rw [List.mem_singleton.mp hmem]

/-- **Drawdowns of a curve of positive values.** They are disjoint and in order and cover the points below
an earlier one; and the worst of them is the worst change from a point to a later one, told with the peak
and the trough it runs between, unless the curve never falls. -/
theorem drawdowns_of_curve (hpos : ∀ e ∈ curve, 0 < e.2) (htimes : InOrder curve) :
    (computeDrawdowns curve).Pairwise (fun p q => p.Before q ∧ ∀ t, ¬(p.Covers t ∧ q.Covers t)) ∧
    (∀ e ∈ curve, (∃ p ∈ computeDrawdowns curve, p.Covers e.1) ↔ ∃ f, Earlier curve f e ∧ e.2 < f.2) ∧
    ((maxDrawdown curve).value = none ∧ (∀ e f, Earlier curve e f → e.2 ≤ f.2) ∨
      ∃ d c peak trough, (maxDrawdown curve).value = some ⟨d, 1⟩ ∧ IsLeast (changes curve) d ∧ d < 0 ∧
        (currentDrawdown curve).value = some ⟨c, 1⟩ ∧ d ≤ c ∧
        (maxDrawdown curve).periodStart = some peak.1 ∧ (maxDrawdown curve).periodEnd = some trough.1 ∧
        Earlier curve peak trough ∧ d = (trough.2 - peak.2) / peak.2 ∧
        (∀ e, Earlier curve e trough → e.2 ≤ peak.2) ∧
        ∀ e, Earlier curve peak e → Earlier curve e trough → trough.2 ≤ e.2) := by
  refine ⟨?_, ?_, ?_⟩
  · exact (computeDrawdowns_ordered hpos htimes).imp fun h => ⟨h, h.disjoint⟩
  · intro e he
    rw [covered_iff hpos htimes he]
    refine exists_congr fun f => ?_
    rw [earlier_iff htimes]
    exact ⟨fun h => ⟨⟨h.1, he, h.2.1⟩, h.2.2⟩, fun h => ⟨h.1.1, h.1.2.2, h.2⟩⟩
  · cases hworst : firstLeast DrawdownPeriod.drawdownPct (computeDrawdowns curve) with
    | none =>
      refine Or.inl ⟨by rw [maxDrawdown, hworst], ?_⟩
      intro e f hearlier
      obtain ⟨he, hf, hle⟩ := (earlier_iff htimes).mp hearlier
      by_contra hfall
      obtain ⟨p, hp, -⟩ := exists_period_le hpos htimes he hf hle (not_le.mp hfall)
      rw [firstLeast_eq_none_iff.mp hworst] at hp
      cases hp
    | some worst =>
      obtain ⟨hmem, hleast⟩ := firstLeast_least hworst
      have hof := of_mem_computeDrawdowns hpos htimes hmem
      have hisLeast := isLeast_worst hpos htimes hmem hleast
      obtain ⟨c, hc, hchange⟩ := currentDrawdown_value hpos htimes (List.ne_nil_of_mem hof.peak)
      have hneg : worst.drawdownPct < 0 := by
        rw [hof.pct]
        exact div_neg_of_neg_of_pos (by linarith [hof.falls]) (hpos _ hof.peak)
      refine Or.inr ⟨worst.drawdownPct, c, (worst.peakAt, worst.peakValue),
        (worst.troughAt, worst.troughValue), by rw [maxDrawdown, hworst], hisLeast, hneg, hc,
        hisLeast.2 hchange, by rw [maxDrawdown, hworst], by rw [maxDrawdown, hworst],
        (earlier_iff htimes).mpr ⟨hof.peak, hof.trough, hof.covers.1.le⟩, hof.pct, ?_, ?_⟩
      · intro e hearlier
        obtain ⟨he, -, hle⟩ := (earlier_iff htimes).mp hearlier
        exact hof.highest e he fun r hr => hle.trans_lt (hof.covers.2 r hr)
      · intro e hafter hbefore
        obtain ⟨-, he, hpeak⟩ := (earlier_iff htimes).mp hafter
        obtain ⟨-, -, htrough⟩ := (earlier_iff htimes).mp hbefore
        rcases lt_or_eq_of_le hpeak with hlater | hsame
        · exact (hof.between e he ⟨hlater, fun r hr => htrough.trans_lt (hof.covers.2 r hr)⟩).2
        · rw [← htimes.eq_of_time hof.peak he hsame]
          exact hof.falls.le

end Curve

section Sample

def twoFalls : List EquityPoint := [(0, 100), (1, 80), (2, 100), (3, 120), (4, 90), (5, 110)]

theorem worst_of_two_falls : IsLeast (changes twoFalls) (-1 / 4) := by
  have hvalue : (maxDrawdown twoFalls).value = some ⟨-1 / 4, 1⟩ := by decide +kernel
  obtain ⟨-, -, hnone | hsome⟩ := @drawdowns_of_curve twoFalls (by decide +kernel)
    (by unfold InOrder; decide +kernel)
  · rw [hnone.1] at hvalue
    cases hvalue
  · obtain ⟨d, c, peak, trough, hd, hleast, -⟩ := hsome
    rw [hvalue] at hd
    cases hd
    exact hleast

end Sample

end Investor.Performance.Drawdown
