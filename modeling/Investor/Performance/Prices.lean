import Investor.Universe.Horizons

/-!
# Prices for the evaluation of decisions

A decision is scored by the price at its time and by the last price within its horizon, which is
the holding window of its book. Both come from the decision's own payload where it names one, and
else from the snapshots of the market, which are looked up as of the time of the evaluation: a
horizon that has not elapsed is pending. Instants are microseconds.
-/

namespace Investor.Performance

open Lib Universe

def minutes (n : Int) : Int := n * 60000000

/-- `MarketSnapshot`, the columns that are read. -/
structure MarketSnapshot where
  symbol : String
  asOf : Int
  last : Option ℚ

inductive PriceSource
  | payload | entryZone | marketSnapshot | missing | pending
  deriving DecidableEq

/-- `ResolvedPrice`, without the time of the price. -/
structure ResolvedPrice where
  price : Option ℚ
  source : PriceSource
  deriving DecidableEq

section Books

variable [Casing]

/-- `evaluation_horizon_delta`. -/
def evaluationHorizonDelta (book : String) : Int :=
  let mins := (((policyFor (Casing.lower book)).bind (·.maxHoldingMinutes)).getD 0)
  minutes (if mins ≤ 0 then 24 * 60 else mins)

/-- `evaluation_horizon_label`. -/
def evaluationHorizonLabel (book : String) : String :=
  match Casing.lower book with
  | "scalp" => "4h"
  | "day" => "1session"
  | "short" => "10d"
  | "medium" => "60d"
  | _ => "1d"

/-- `decision_price_max_skew`. -/
def decisionPriceMaxSkew (book : String) : Int :=
  match Casing.lower book with
  | "scalp" | "day" => minutes (6 * 60)
  | "short" => minutes (2 * 24 * 60)
  | "medium" => minutes (5 * 24 * 60)
  | _ => minutes (24 * 60)

end Books

/-! ## Lookups -/

def latest (points : List (Int × ℚ)) : Option (Int × ℚ) :=
  (points.mergeSort fun p q => decide (p.1 ≤ q.1)).getLast?

/-- `pick_price_at_or_before`, the price alone. -/
def pickPriceAtOrBefore (points : List (Int × ℚ)) (asOf maxSkew : Int) : Option ℚ :=
  match latest (points.filter fun p => p.1 ≤ asOf) with
  | none => none
  | some (ts, px) => if ts < asOf - maxSkew then none else some px

/-- `pick_price_in_window`, the price alone. -/
def pickPriceInWindow (points : List (Int × ℚ)) (start stop : Int) : Option ℚ :=
  (latest (points.filter fun p => start ≤ p.1 ∧ p.1 ≤ stop)).map (·.2)

/-- `zone_mid`. -/
def zoneMid (zone : Option (Dict Json)) : Option ℚ :=
  match zone with
  | none => none
  | some zone =>
    let lo := Dict.at zone "min"
    let hi := Dict.at zone "max"
    if !lo.isNull && !hi.isNull then
      match lo.float?, hi.float? with
      | some lo, some hi => some ((lo + hi) / 2)
      | _, _ => none
    else if !lo.isNull then lo.float?
    else if !hi.isNull then hi.float?
    else none

def explicitPrice (value : Json) : Option ℚ := value.float?.filter fun q => 0 < q

/-! ## The resolver -/

/-- `DecisionPriceResolver`: the snapshots it may read, from `history_start` on until `now`. -/
structure Resolver where
  now : Int
  historyStart : Int
  snapshots : List MarketSnapshot

namespace Resolver

variable [Casing] (r : Resolver)

/-- `_load_points`. -/
def points (symbol : String) : List (Int × ℚ) :=
  ((r.snapshots.filter fun s =>
      s.symbol = Casing.upper symbol ∧ r.historyStart ≤ s.asOf ∧ s.asOf ≤ r.now).mergeSort
    fun s s' => decide (s.asOf ≤ s'.asOf)).filterMap fun s => s.last.map fun px => (s.asOf, px)

/-- `decision_price`. -/
def decisionPrice (symbol : String) (decisionTs : Int) (book : String) (explicit : Option ℚ)
    (entryZone : Option (Dict Json)) : ResolvedPrice :=
  match explicit with
  | some px => ⟨some px, .payload⟩
  | none =>
    let found := pickPriceAtOrBefore (r.points symbol) decisionTs (decisionPriceMaxSkew book)
    match found with
    | some px => ⟨some px, .marketSnapshot⟩
    | none =>
      -- a zone is the fallback of a print
      match (zoneMid entryZone).filter fun q => 0 < q with
      | some mid => ⟨some mid, .entryZone⟩
      | none => ⟨none, .missing⟩

/-- `horizon_price`. -/
def horizonPrice (symbol : String) (decisionTs : Int) (book : String) (explicit : Option ℚ) :
    ResolvedPrice :=
  match explicit with
  | some px => ⟨some px, .payload⟩
  | none =>
    let horizonEnd := decisionTs + evaluationHorizonDelta book
    if r.now < horizonEnd then ⟨none, .pending⟩
    else
      match pickPriceInWindow (r.points symbol) decisionTs horizonEnd with
      | some px => ⟨some px, .marketSnapshot⟩
      | none => ⟨none, .missing⟩

/-- `benchmark_return`. -/
def benchmarkReturn (benchmark : String) (decisionTs : Int) (book : String) : Option ℚ :=
  let horizonEnd := decisionTs + evaluationHorizonDelta book
  if r.now < horizonEnd then none
  else
    match pickPriceAtOrBefore (r.points benchmark) decisionTs (decisionPriceMaxSkew book),
      pickPriceInWindow (r.points benchmark) decisionTs horizonEnd with
    | some p0, some p1 => if p0 ≤ 0 then none else some ((p1 - p0) / p0)
    | _, _ => none

/-- The horizon of a decision is over: its window has elapsed, or a price is named. -/
def HorizonOver (decisionTs : Int) (book : String) (explicit : Option ℚ) : Prop :=
  explicit.isSome ∨ decisionTs + evaluationHorizonDelta book ≤ r.now

instance (decisionTs : Int) (book : String) (explicit : Option ℚ) :
    Decidable (r.HorizonOver decisionTs book explicit) := inferInstanceAs (Decidable (_ ∨ _))

theorem horizonPrice_pending_iff {symbol : String} {decisionTs : Int} {book : String}
    {explicit : Option ℚ} :
    (r.horizonPrice symbol decisionTs book explicit).source = .pending ↔
      ¬ r.HorizonOver decisionTs book explicit := by
  unfold horizonPrice HorizonOver
  cases explicit with
  | some px => simp
  | none =>
    dsimp only
    by_cases hearly : r.now < decisionTs + evaluationHorizonDelta book
    · rw [if_pos hearly]
      simpa using hearly
    · rw [if_neg hearly]
      cases pickPriceInWindow (r.points symbol) decisionTs
          (decisionTs + evaluationHorizonDelta book) with
      | none => simpa using hearly
      | some px => simpa using hearly

end Resolver

end Investor.Performance
