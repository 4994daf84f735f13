import Investor.Lib.Group
import Investor.Lib.Run
import Investor.Performance.Prices

/-!
# The price resolver and its cache

One `DecisionPriceResolver` answers the questions of a batch of decisions. The snapshots of a
symbol are read once, up to the time of the evaluation, and kept in a cache. An answer is the same
whatever was asked before (`askAfter_eq`), and the rows that a question turns on are those until
the end of its horizon, or until the decision itself where the price of the decision is asked for
(`resolver_looks_back`). Rows of the same time are told apart by their order in the table.
-/

namespace Investor.Performance

open Lib

/-! ## Questions and answers -/

/-- `DecisionPriceResolver`, less its cache. -/
structure PriceResolver where
  now : Int
  historyStart : Option Int
  snapshots : List MarketSnapshot

/-- `_points`: what was read of each symbol. -/
abbrev PointCache := Dict (List (Int × ℚ))

/-- `ResolvedPrice`. -/
structure TimedPrice where
  price : Option ℚ
  asOf : Option Int
  source : PriceSource
  deriving DecidableEq

inductive PriceQuery
  | decision (symbol : String) (decisionTs : Int) (book : Option String) (explicit : Option ℚ)
      (entryZone : Option (Dict Json))
  | horizon (symbol : String) (decisionTs : Int) (book : Option String) (explicit : Option ℚ)
  | benchmark (benchmark : String) (decisionTs : Int) (book : Option String)

inductive PriceAnswer
  | price (p : TimedPrice)
  | ratio (q : Option ℚ)
  deriving DecidableEq

def PriceQuery.symbol : PriceQuery → String
  | .decision symbol _ _ _ _ => symbol
  | .horizon symbol _ _ _ => symbol
  | .benchmark bench _ _ => bench

def PriceQuery.decisionTs : PriceQuery → Int
  | .decision _ decisionTs _ _ _ => decisionTs
  | .horizon _ decisionTs _ _ => decisionTs
  | .benchmark _ decisionTs _ => decisionTs

def PriceQuery.book : PriceQuery → Option String
  | .decision _ _ book _ _ => book
  | .horizon _ _ book _ => book
  | .benchmark _ _ book => book

/-! ## Picks -/

def lastPoint (points : List (Int × ℚ)) : Option (Int × ℚ) := (sortedBy (·.1) points).getLast?

/-- `pick_price_at_or_before`. -/
def pointAtOrBefore (points : List (Int × ℚ)) (asOf maxSkew : Int) : Option (Int × ℚ) :=
  (lastPoint (points.filter fun p => p.1 ≤ asOf)).filter fun p => asOf - maxSkew ≤ p.1

/-- `pick_price_in_window`. -/
def pointInWindow (points : List (Int × ℚ)) (start stop : Int) : Option (Int × ℚ) :=
  lastPoint (points.filter fun p => start ≤ p.1 ∧ p.1 ≤ stop)

section Asking

/-- `book or "unknown"`. -/
def bookOr (book : Option String) : String := (book.filter (· ≠ "")).getD "unknown"

def PriceQuery.horizonEnd [Casing] (q : PriceQuery) : Int :=
  q.decisionTs + evaluationHorizonDelta (bookOr q.book)

namespace PriceResolver

def readPoints (r : PriceResolver) (sym : String) : List (Int × ℚ) :=
  (sortedBy MarketSnapshot.asOf (r.snapshots.filter fun s =>
    s.symbol = sym ∧ r.historyStart.all (· ≤ s.asOf) ∧ s.asOf ≤ r.now)).filterMap
      fun s => s.last.map (s.asOf, ·)

section

variable [Casing]

/-- `_load_points`. -/
def loadPoints (r : PriceResolver) (cache : PointCache) (symbol : String) :
    List (Int × ℚ) × PointCache :=
  let sym := Casing.upper symbol
  match Dict.get? cache sym with
  | some points => (points, cache)
  | none =>
    let points := r.readPoints sym
    (points, Dict.set cache sym points)

/-- `decision_price`. -/
def decisionPrice (r : PriceResolver) (cache : PointCache) (symbol : String) (decisionTs : Int)
    (book : Option String) (explicit : Option ℚ) (entryZone : Option (Dict Json)) :
    TimedPrice × PointCache :=
  match explicit.filter (0 < ·) with
  | some px => (⟨some px, some decisionTs, .payload⟩, cache)
  | none =>
    let (points, cache) := r.loadPoints cache symbol
    match pointAtOrBefore points decisionTs (decisionPriceMaxSkew (bookOr book)) with
    | some (ts, px) => (⟨some px, some ts, .marketSnapshot⟩, cache)
    | none =>
      -- a zone is the fallback of a print
      match (zoneMid entryZone).filter (0 < ·) with
      | some mid => (⟨some mid, some decisionTs, .entryZone⟩, cache)
      | none => (⟨none, none, .missing⟩, cache)

/-- `horizon_price`. -/
def horizonPrice (r : PriceResolver) (cache : PointCache) (symbol : String) (decisionTs : Int)
    (book : Option String) (explicit : Option ℚ) : TimedPrice × PointCache :=
  match explicit.filter (0 < ·) with
  | some px => (⟨some px, none, .payload⟩, cache)
  | none =>
    let horizonEnd := decisionTs + evaluationHorizonDelta (bookOr book)
    if r.now < horizonEnd then (⟨none, none, .pending⟩, cache)
    else
      let (points, cache) := r.loadPoints cache symbol
      match pointInWindow points decisionTs horizonEnd with
      | some (ts, px) => (⟨some px, some ts, .marketSnapshot⟩, cache)
      | none => (⟨none, none, .missing⟩, cache)

/-- `benchmark_return`. -/
def benchmarkReturn (r : PriceResolver) (cache : PointCache) (benchmark : String) (decisionTs : Int)
    (book : Option String) : Option ℚ × PointCache :=
  let horizonEnd := decisionTs + evaluationHorizonDelta (bookOr book)
  if r.now < horizonEnd then (none, cache)
  else
    let (points, cache) := r.loadPoints cache benchmark
    match pointAtOrBefore points decisionTs (decisionPriceMaxSkew (bookOr book)),
      pointInWindow points decisionTs horizonEnd with
    | some (_, p0), some (_, p1) => (if p0 ≤ 0 then none else some ((p1 - p0) / p0), cache)
    | _, _ => (none, cache)

def ask (r : PriceResolver) (cache : PointCache) : PriceQuery → PriceAnswer × PointCache
  | .decision symbol decisionTs book explicit entryZone =>
    let (p, cache) := r.decisionPrice cache symbol decisionTs book explicit entryZone
    (.price p, cache)
  | .horizon symbol decisionTs book explicit =>
    let (p, cache) := r.horizonPrice cache symbol decisionTs book explicit
    (.price p, cache)
  | .benchmark benchmark decisionTs book =>
    let (q, cache) := r.benchmarkReturn cache benchmark decisionTs book
    (.ratio q, cache)

def askAfter (r : PriceResolver) (earlier : List PriceQuery) (q : PriceQuery) : PriceAnswer :=
  (r.ask (runFrom (fun cache q => (r.ask cache q).2) [] earlier) q).1

end

/-! ## The cache -/

def Faithful (r : PriceResolver) (cache : PointCache) : Prop :=
  ∀ sym points, Dict.get? cache sym = some points → points = r.readPoints sym

variable {r r' : PriceResolver} {cache : PointCache}

theorem faithful_nil (r : PriceResolver) : r.Faithful [] := fun _ _ h => by cases h

section

variable [Casing]

theorem loadPoints_some {symbol : String} {points : List (Int × ℚ)}
    (h : Dict.get? cache (Casing.upper symbol) = some points) :
    r.loadPoints cache symbol = (points, cache) := by
  simp only [loadPoints, h]

theorem loadPoints_none {symbol : String} (h : Dict.get? cache (Casing.upper symbol) = none) :
    r.loadPoints cache symbol = (r.readPoints (Casing.upper symbol),
      Dict.set cache (Casing.upper symbol) (r.readPoints (Casing.upper symbol))) := by
  simp only [loadPoints, h]

theorem loadPoints_faithful (h : r.Faithful cache) (symbol : String) :
    (r.loadPoints cache symbol).1 = r.readPoints (Casing.upper symbol) ∧
      r.Faithful (r.loadPoints cache symbol).2 := by
  cases hget : Dict.get? cache (Casing.upper symbol) with
  | some points =>
    rw [loadPoints_some hget]
    exact ⟨h _ _ hget, h⟩
  | none =>
    rw [loadPoints_none hget]
    refine ⟨rfl, fun sym points hpoints => ?_⟩
    rw [Dict.get?_set] at hpoints
    split at hpoints
    · rename_i hsame
      rw [← hsame]
      exact (Option.some.inj hpoints).symm
    · exact h _ _ hpoints

theorem ask_cache (r : PriceResolver) (cache : PointCache) (q : PriceQuery) :
    (r.ask cache q).2 = cache ∨ (r.ask cache q).2 = (r.loadPoints cache q.symbol).2 := by
  cases q with
  | decision symbol decisionTs book explicit entryZone =>
    simp only [ask, decisionPrice, PriceQuery.symbol]
    repeat' split
    all_goals simp
  | horizon symbol decisionTs book explicit =>
    simp only [ask, horizonPrice, PriceQuery.symbol]
    repeat' split
    all_goals simp
  | benchmark bench decisionTs book =>
    simp only [ask, benchmarkReturn, PriceQuery.symbol]
    repeat' split
    all_goals simp

theorem ask_faithful (h : r.Faithful cache) (q : PriceQuery) : r.Faithful (r.ask cache q).2 := by
  rcases ask_cache r cache q with heq | heq
  · rw [heq]
    exact h
  · rw [heq]
    exact (loadPoints_faithful h q.symbol).2

theorem faithful_run (r : PriceResolver) (earlier : List PriceQuery) :
    r.Faithful (runFrom (fun cache q => (r.ask cache q).2) [] earlier) :=
  @run_invariant _ _ (fun cache q => (r.ask cache q).2) r.Faithful
    (fun _ q hcache => ask_faithful hcache q) _ _ (faithful_nil r)

/-! ## What an answer turns on -/

theorem ask_decision_congr {cache' : PointCache} {symbol : String} {decisionTs : Int}
    {book : Option String} (explicit : Option ℚ) (entryZone : Option (Dict Json))
    (hat : ∀ skew, pointAtOrBefore (r.loadPoints cache symbol).1 decisionTs skew =
      pointAtOrBefore (r'.loadPoints cache' symbol).1 decisionTs skew) :
    (r.ask cache (.decision symbol decisionTs book explicit entryZone)).1 =
      (r'.ask cache' (.decision symbol decisionTs book explicit entryZone)).1 := by
  simp only [ask, decisionPrice]
  cases explicit.filter (0 < ·) with
  | some px => rfl
  | none =>
    dsimp only
    rw [hat]
    cases pointAtOrBefore (r'.loadPoints cache' symbol).1 decisionTs
        (decisionPriceMaxSkew (bookOr book)) with
    | some p => rfl
    | none => cases (zoneMid entryZone).filter (0 < ·) <;> rfl

/-- An answer depends on the clock and the points about the horizon only. -/
theorem ask_congr {cache' : PointCache} {q : PriceQuery}
    (hnow : r.now < q.horizonEnd ↔ r'.now < q.horizonEnd)
    (hat : ∀ skew, pointAtOrBefore (r.loadPoints cache q.symbol).1 q.decisionTs skew =
      pointAtOrBefore (r'.loadPoints cache' q.symbol).1 q.decisionTs skew)
    (hin : pointInWindow (r.loadPoints cache q.symbol).1 q.decisionTs q.horizonEnd =
      pointInWindow (r'.loadPoints cache' q.symbol).1 q.decisionTs q.horizonEnd) :
    (r.ask cache q).1 = (r'.ask cache' q).1 := by
  cases q with
  | decision symbol decisionTs book explicit entryZone =>
    exact ask_decision_congr explicit entryZone hat
  | horizon symbol decisionTs book explicit =>
    simp only [PriceQuery.horizonEnd, PriceQuery.decisionTs, PriceQuery.book, PriceQuery.symbol]
      at hnow hin
    simp only [ask, horizonPrice, hnow, hin]
    cases explicit.filter (0 < ·) with
    | some px => rfl
    | none =>
      dsimp only
      split
      · rfl
      · cases pointInWindow (r'.loadPoints cache' symbol).1 decisionTs
            (decisionTs + evaluationHorizonDelta (bookOr book)) <;> rfl
  | benchmark bench decisionTs book =>
    simp only [PriceQuery.horizonEnd, PriceQuery.decisionTs, PriceQuery.book, PriceQuery.symbol]
      at hnow hat hin
    simp only [ask, benchmarkReturn, hnow, hat, hin]
    split
    · rfl
    · cases pointAtOrBefore (r'.loadPoints cache' bench).1 decisionTs
          (decisionPriceMaxSkew (bookOr book)) with
      | none => rfl
      | some p =>
        cases pointInWindow (r'.loadPoints cache' bench).1 decisionTs
          (decisionTs + evaluationHorizonDelta (bookOr book)) <;> rfl

theorem askAfter_eq (r : PriceResolver) (earlier : List PriceQuery) (q : PriceQuery) :
    r.askAfter earlier q = r.askAfter [] q := by
  have hpoints : (r.loadPoints (runFrom (fun cache q => (r.ask cache q).2) [] earlier)
      q.symbol).1 = (r.loadPoints [] q.symbol).1 := by
    rw [(loadPoints_faithful (faithful_run r earlier) q.symbol).1,
      (loadPoints_faithful (faithful_nil r) q.symbol).1]
  exact ask_congr Iff.rfl (fun skew => by rw [hpoints]; rfl) (by rw [hpoints]; rfl)

/-! ## No look ahead -/

/-- The tables have the same rows of the symbol until a time, in the same order. -/
def AgreeUntil (r r' : PriceResolver) (symbol : String) (bound : Int) : Prop :=
  r.snapshots.filter (fun s => s.symbol = Casing.upper symbol ∧ s.asOf ≤ bound) =
    r'.snapshots.filter fun s => s.symbol = Casing.upper symbol ∧ s.asOf ≤ bound

end

theorem readPoints_until (r : PriceResolver) (sym : String) (bound : Int) :
    (r.readPoints sym).filter (fun p => p.1 ≤ bound) =
      (sortedBy MarketSnapshot.asOf ((r.snapshots.filter fun s => s.symbol = sym ∧ s.asOf ≤ bound).filter
        fun s => r.historyStart.all (· ≤ s.asOf) ∧ s.asOf ≤ r.now)).filterMap
          fun s => s.last.map (s.asOf, ·) := by
  have hrows : (r.snapshots.filter fun s => s.symbol = sym ∧ s.asOf ≤ bound).filter
      (fun s => r.historyStart.all (· ≤ s.asOf) ∧ s.asOf ≤ r.now) =
      (r.snapshots.filter fun s => s.symbol = sym ∧ r.historyStart.all (· ≤ s.asOf) ∧
        s.asOf ≤ r.now).filter fun s => s.asOf ≤ bound := by
    rw [List.filter_filter, List.filter_filter]
    refine List.filter_congr fun s _ => ?_
    rw [Bool.eq_iff_iff]
    simp
    tauto
  rw [hrows, ← sortedBy_filter, readPoints, List.filter_filterMap, List.filterMap_filter]
  refine List.filterMap_congr fun s _ => ?_
  cases s.last with
  | none => simp
  | some px =>
    by_cases h : s.asOf ≤ bound
    · simp [h]
    · simp [h, not_le.mp h]

variable {symbol : String} {bound : Int}

theorem readPoints_agree [Casing] (hstart : r.historyStart = r'.historyStart)
    (h : r.AgreeUntil r' symbol bound)
    (hnow : r.now = r'.now ∨ bound ≤ r.now ∧ bound ≤ r'.now) :
    (r.readPoints (Casing.upper symbol)).filter (fun p => p.1 ≤ bound) =
      (r'.readPoints (Casing.upper symbol)).filter fun p => p.1 ≤ bound := by
  rw [readPoints_until, readPoints_until, h, hstart]
  congr 2
  refine List.filter_congr fun s hs => ?_
  rcases hnow with hsame | ⟨hr, hr'⟩
  · rw [hsame]
  · have hbound : s.asOf ≤ bound := by
      have := (List.mem_filter.mp hs).2
      simp at this
      exact this.2
    simp [hbound.trans hr, hbound.trans hr']

theorem pointAtOrBefore_congr {points points' : List (Int × ℚ)} {asOf : Int}
    (h : points.filter (fun p => p.1 ≤ bound) = points'.filter fun p => p.1 ≤ bound)
    (hle : asOf ≤ bound) (skew : Int) :
    pointAtOrBefore points asOf skew = pointAtOrBefore points' asOf skew := by
  have hwithin : ∀ ps : List (Int × ℚ), ps.filter (fun p => p.1 ≤ asOf) =
      (ps.filter fun p => p.1 ≤ bound).filter fun p => p.1 ≤ asOf := by
    intro ps
    rw [List.filter_filter]
    refine List.filter_congr fun p _ => ?_
    rw [Bool.eq_iff_iff]
    simp
    omega
  unfold pointAtOrBefore
  rw [hwithin points, hwithin points', h]

theorem pointInWindow_congr {points points' : List (Int × ℚ)}
    (h : points.filter (fun p => p.1 ≤ bound) = points'.filter fun p => p.1 ≤ bound) (start : Int) :
    pointInWindow points start bound = pointInWindow points' start bound := by
  have hwithin : ∀ ps : List (Int × ℚ), ps.filter (fun p => start ≤ p.1 ∧ p.1 ≤ bound) =
      (ps.filter fun p => p.1 ≤ bound).filter fun p => start ≤ p.1 := by
    intro ps
    rw [List.filter_filter]
    refine List.filter_congr fun p _ => ?_
    rw [Bool.eq_iff_iff]
    simp
  unfold pointInWindow
  rw [hwithin points, hwithin points', h]

theorem evaluationHorizonDelta_pos [Casing] (book : String) : 0 < evaluationHorizonDelta book := by
  unfold evaluationHorizonDelta minutes
  dsimp only
  split
  · omega
  · omega

theorem loadPoints_run [Casing] (r : PriceResolver) (earlier : List PriceQuery) (symbol : String) :
    (r.loadPoints (runFrom (fun cache q => (r.ask cache q).2) [] earlier) symbol).1 =
      r.readPoints (Casing.upper symbol) :=
  (loadPoints_faithful (faithful_run r earlier) symbol).1

/-- **The resolver looks back only.** Two tables that agree on the symbol's rows until the end of a horizon
    give the same answers at any time after it, and the same price of a decision if they agree until the
    decision; what was asked before makes no difference. -/
theorem resolver_looks_back [Casing] {r r' : PriceResolver} (hstart : r.historyStart = r'.historyStart)
    (earlier earlier' : List PriceQuery) (q : PriceQuery) :
    (r.AgreeUntil r' q.symbol q.horizonEnd → q.horizonEnd ≤ r.now → q.horizonEnd ≤ r'.now →
      r.askAfter earlier q = r'.askAfter earlier' q) ∧
    (∀ symbol decisionTs book explicit entryZone, r.AgreeUntil r' symbol decisionTs →
      (r.now = r'.now ∨ decisionTs ≤ r.now ∧ decisionTs ≤ r'.now) →
      r.askAfter earlier (.decision symbol decisionTs book explicit entryZone) =
        r'.askAfter earlier' (.decision symbol decisionTs book explicit entryZone)) ∧
    r.askAfter earlier q = r.askAfter earlier' q := by
  refine ⟨fun hagree hnow hnow' => ?_, ?_, ?_⟩
  · have hpoints := readPoints_agree hstart hagree (Or.inr ⟨hnow, hnow'⟩)
    have hbefore : q.decisionTs ≤ q.horizonEnd := by
      have := evaluationHorizonDelta_pos (bookOr q.book)
      unfold PriceQuery.horizonEnd
      omega
    refine ask_congr (by omega) (fun skew => ?_) ?_
    · rw [loadPoints_run, loadPoints_run]
      exact pointAtOrBefore_congr hpoints hbefore skew
    · rw [loadPoints_run, loadPoints_run]
      exact pointInWindow_congr hpoints q.decisionTs
  · intro symbol decisionTs book explicit entryZone hagree hnow
    refine ask_decision_congr explicit entryZone fun skew => ?_
    rw [loadPoints_run, loadPoints_run]
    exact pointAtOrBefore_congr (readPoints_agree hstart hagree hnow) (le_refl decisionTs) skew
  · rw [askAfter_eq r earlier, askAfter_eq r earlier']

end PriceResolver

end Asking

section Sample

attribute [local instance] asciiCasing

private def printsThen (later : List MarketSnapshot) : List MarketSnapshot :=
  [⟨"BHP", 0, some 40⟩, ⟨"BHP", minutes 200, some 41⟩] ++ later

/-- A print after the horizon, and a later evaluation, do not change what is answered. -/
theorem resolver_looks_back_bhp :
    PriceResolver.askAfter ⟨minutes 240, none, printsThen []⟩ [] (.horizon "bhp" 0 (some "scalp") none) =
        PriceResolver.askAfter ⟨minutes 500, none, printsThen [⟨"BHP", minutes 241, some 99⟩]⟩
          [.benchmark "SPY" 0 none] (.horizon "bhp" 0 (some "scalp") none) ∧
      PriceResolver.askAfter ⟨minutes 240, none, printsThen []⟩ []
        (.horizon "bhp" 0 (some "scalp") none) =
          .price ⟨some 41, some (minutes 200), .marketSnapshot⟩ := by
  refine ⟨?_, by decide +kernel⟩
  have hboth := @PriceResolver.resolver_looks_back _ ⟨minutes 240, none, printsThen []⟩
    ⟨minutes 500, none, printsThen [⟨"BHP", minutes 241, some 99⟩]⟩ rfl []
    [.benchmark "SPY" 0 none] (.horizon "bhp" 0 (some "scalp") none)
  exact hboth.1 rfl (by decide +kernel) (by decide +kernel)

end Sample

end Investor.Performance
