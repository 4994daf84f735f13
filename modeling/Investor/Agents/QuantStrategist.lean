import Investor.Agents.Passes
import Investor.Universe.Accumulation

/-!
# The Quant agent without a model

`QuantStrategistAgent.fallback_output` reads a bar of a symbol into states and a probability
(`quant_strategist.py`), and a view carries them on. The view keeps the states, the range of the
day and a zone around the last price. The indicators themselves, the open and the averages stay
behind.

Prices are exact numbers, and a probability is rounded as the source rounds it.
-/

namespace Investor.Agents

open Lib Schema Market Universe

/-! ## The bar -/

/-- `BarSnapshot`, less the columns that nothing here reads. -/
structure BarSnapshot where
  symbol : String
  last : ℚ
  opening : Option ℚ
  high : Option ℚ
  low : Option ℚ
  volume : Option ℚ
  avgVolume20d : Option ℚ
  atr14 : Option ℚ
  rsi14 : Option ℚ
  sma20 : Option ℚ
  sma50 : Option ℚ
  sma200 : Option ℚ
  bid : Option ℚ
  ask : Option ℚ
  sessionHistory : List SessionBar
  deriving DecidableEq

/-- `if x`, of a number that may be missing. -/
def truthy (x : Option ℚ) : Option ℚ := x.filter (· ≠ 0)

/-- `values[-n:]`. -/
def lastOf {α : Type} (n : ℕ) (values : List α) : List α := values.drop (values.length - n)

def average (values : List ℚ) : ℚ := values.sum / values.length

/-- `_sma`. -/
def sma (values : List ℚ) (n : ℕ) : Option ℚ :=
  if n = 0 ∨ values.length < n then none else some (average (lastOf n values))

/-- `_rsi`, over fourteen changes. -/
def rsiOf (closes : List ℚ) : Option ℚ :=
  let n := 14
  if closes.length < n + 1 then none
  else
    let changes := deltas (lastOf (n + 1) closes)
    let gains := (changes.filter (0 ≤ ·)).sum
    let losses := -(changes.filter (· < 0)).sum
    if losses ≤ 0 then some (if 0 < gains then 100 else 50)
    else some (100 - 100 / (1 + (gains / n) / (losses / n)))

/-- `_session_closes`: the closes of the history, and the last price behind them. -/
def sessionCloses (bar : BarSnapshot) : List ℚ :=
  let closes := (bar.sessionHistory.map (·.close)).filter (0 < ·)
  if 0 < bar.last ∧ (closes.getLast?.all fun close => 1 / 10000 < |close - bar.last| / bar.last) then
    closes ++ [bar.last]
  else closes

/-- `swing_trend`. -/
def swingTrend (closes : List ℚ) : TrendState :=
  let fastN := 8
  if closes.length < fastN then .sideways
  else
    let slowN := if 20 ≤ closes.length then 20 else max fastN (closes.length / 2)
    let prior := (lastOf slowN closes).take (slowN - fastN)
    let recent := lastOf fastN closes
    match sma closes fastN, sma closes slowN with
    | some fast, some slow =>
      if slow ≤ 0 ∨ fast ≤ 0 ∨ prior = [] ∨ recent = [] ∨ average prior ≤ 0 then .sideways
      else
        let last := closes.getLastD 0
        let drift := average recent / average prior - 1
        if (1 / 100 ≤ drift ∧ slow * (995 / 1000) ≤ fast) ∧ fast * (97 / 100) ≤ last ∧
            last ≤ fast * (106 / 100) then .up
        else if last < fast * (98 / 100) ∧ fast < slow then .down
        else .sideways
    | _, _ => .sideways

/-- `enrich_bar_indicators`: averages and RSI from the closes, where the quote has none. -/
def enrichBarIndicators (bar : BarSnapshot) : BarSnapshot :=
  let closes := sessionCloses bar
  { bar with
    sma20 := bar.sma20.or (((truthy (sma closes 20)).or (sma closes 8)).map (roundTo 4))
    sma50 := bar.sma50.or ((sma closes 50).map (roundTo 4))
    sma200 := bar.sma200.or ((sma closes 200).map (roundTo 4))
    rsi14 := bar.rsi14.or ((rsiOf closes).map (roundTo 2)) }

section Readings

variable [Casing]

/-- `str(horizon or "short").lower()`. -/
def horizonKey (horizon : String) : String := Casing.lower (if horizon = "" then "short" else horizon)

def trendAgainst (last : ℚ) (level : Option ℚ) : Option TrendState :=
  (truthy level).bind fun level =>
    if last = 0 then none
    else if level < last then some .up
    else if last < level then some .down
    else none

/-- `_trend`. -/
def trendOf (bar : BarSnapshot) (horizon : String) : TrendState :=
  let hz := horizonKey horizon
  if hz = "scalp" then
    ((trendAgainst bar.last bar.sma20).or (trendAgainst bar.last bar.opening)).getD .sideways
  else if hz = "day" then
    let session : Option TrendState :=
      match truthy bar.high, truthy bar.low with
      | some high, some low =>
        if bar.last = 0 then none
        else
          let typical := (high + low + bar.last) / 3
          if typical ≤ bar.last ∧ bar.opening.all (· ≤ bar.last) then some .up
          else if bar.last < typical ∧ bar.opening.any (bar.last < ·) then some .down
          else none
      | _, _ => none
    (session.or (trendAgainst bar.last bar.sma20)).getD .sideways
  else
    match truthy bar.sma50, truthy bar.sma200 with
    | some sma50, some sma200 =>
      if bar.last = 0 then swingTrend (sessionCloses bar)
      else if sma50 < bar.last ∧ sma200 < sma50 then .up
      else if bar.last < sma50 ∧ sma50 < sma200 then .down
      else .sideways
    | _, _ => swingTrend (sessionCloses bar)

/-- `_volume_accelerating`. -/
def volumeAccelerating (bar : BarSnapshot) : Bool :=
  bar.volume.any fun volume => (bar.avgVolume20d.filter (0 < ·)).any fun avg => 115 / 100 * avg ≤ volume

/-- `_momentum`. -/
def momentumOf (bar : BarSnapshot) (horizon : String) : MomentumState :=
  let hz := horizonKey horizon
  if hz = "scalp" then
    if bar.rsi14.any (80 ≤ ·) then .exhausted
    else if volumeAccelerating bar && (bar.opening.any (· < bar.last) || bar.sma20.any (· < bar.last)) then
      .accelerating
    else if bar.rsi14.any (· ≤ 35) then .decelerating
    else .steady
  else if hz = "day" then
    if bar.rsi14.any (80 ≤ ·) then .exhausted
    else
      match truthy bar.high, truthy bar.low with
      | some high, some low =>
        if high ≤ low then .steady
        else
          let loc := (bar.last - low) / (high - low)
          if 55 / 100 ≤ loc ∧ bar.opening.all (· ≤ bar.last) then .accelerating
          else if loc ≤ 35 / 100 then .decelerating
          else .steady
      | _, _ => .steady
  else
    match bar.rsi14 with
    | none => .steady
    | some rsi =>
      if 70 ≤ rsi then .exhausted
      else if 55 ≤ rsi then .accelerating
      else if rsi ≤ 45 then .decelerating
      else .steady

/-- `_volatility`. -/
def volatilityOf (bar : BarSnapshot) (vix : Option ℚ) : VolatilityState :=
  if vix.any (30 ≤ ·) then .extreme
  else if vix.any (20 ≤ ·) then .elevated
  else if vix.any (· ≤ 14) then .low
  else
    match truthy bar.atr14 with
    | none => .normal
    | some atr =>
      if bar.last = 0 then .normal
      else if 3 / 100 ≤ atr / bar.last then .elevated
      else if atr / bar.last ≤ 1 / 100 then .low
      else .normal

/-- `_liquidity`. -/
def liquidityOf (bar : BarSnapshot) : LiquidityState :=
  let spread : Option ℚ :=
    match truthy bar.bid, truthy bar.ask with
    | some bid, some ask => if bar.last = 0 then none else some ((ask - bid) / bar.last * 10000)
    | _, _ => none
  if spread.any (25 < ·) then .stressed
  else if spread.any (15 < ·) then .tight
  else if (truthy bar.avgVolume20d).any (· < 1000000) then .tight
  else .normal

/-! ## The probability -/

def clampProbability (score : ℚ) : ℚ := max (5 / 100) (min (95 / 100) (roundTo 2 score))

/-- `_probability`. -/
def probabilityOf (trend : TrendState) (momentum : MomentumState) : ℚ :=
  let score : ℚ := 1 / 2
  let score := if trend.isUp then score + 12 / 100 else if trend.isDown then score - 5 / 100 else score
  let score :=
    match momentum with
    | .accelerating => score + 1 / 10
    | .decelerating | .exhausted => score - 1 / 10
    | .steady => score
  clampProbability score

def adjustment (applies : Bool) (delta : ℚ) (note : String) : List (ℚ × String) :=
  if applies then [(delta, note)] else []

/-- `adjust_probability`. -/
def adjustProbability (base : ℚ) (horizon : String) (liquidity : LiquidityState)
    (volatility : VolatilityState) (rsi volume avgVolume : Option ℚ) : ℚ × List String :=
  let notes := [s!"book={horizon}"]
  match playbookFor horizon with
  | none => (clampProbability (min base (35 / 100)), notes ++ ["medium_ignored=-cap"])
  | some book =>
    let changes :=
      adjustment (liquidity ∈ book.rejectLiquidity) (-(15 / 100)) "liq_reject=-0.15" ++
      adjustment (volatility = .extreme) (-(15 / 100)) "vol_extreme=-0.15" ++
      adjustment (volatility = .elevated && horizon = "scalp") (-(8 / 100)) "vol_elev_scalp=-0.08" ++
      adjustment (rsi.any (book.preferRsiMax < ·)) (-(5 / 100)) "rsi_hot=-0.05" ++
      adjustment (book.requireVolumeAccel && volume.any fun volume =>
        (avgVolume.filter (0 < ·)).any fun avg => book.volumeAccelMult * avg ≤ volume)
        (5 / 100) "vol_accel=+0.05"
    (clampProbability (base + (changes.map (·.1)).sum), notes ++ changes.map (·.2))

def timingDelta (label : String) : ℚ × String :=
  if label = "dip_buy" then (10 / 100, "+0.10")
  else if label = "bounce" then (18 / 100, "+0.18")
  else if label = "continuation" then (4 / 100, "+0.04")
  else if label = "chase" then (-(4 / 100), "-0.04")
  else if label = "falling_knife" then (-(20 / 100), "-0.20")
  else if label = "blowoff" then (-(20 / 100), "-0.20")
  else if label = "accumulation" then (10 / 100, "+0.10")
  else (0, "+0.00")

/-- `apply_timing_probability`. -/
def applyTimingProbability (score : ℚ) (notes : List String) (t : Tape) : ℚ × List String × String :=
  let label := classifyTiming t
  let delta := timingDelta label
  (clampProbability (score + delta.1),
    notes ++ [s!"timing={label}"] ++ if delta.1 = 0 then [] else [s!"{label}={delta.2}"], label)

/-! ## The reading of a bar -/

def barTape (bar : BarSnapshot) (horizon : String) (vix minutesToClose : Option ℚ)
    (accumulation : Bool) : Tape :=
  { trend := trendOf bar horizon, momentum := momentumOf bar horizon, liquidity := liquidityOf bar,
    volatility := volatilityOf bar vix, rsi := bar.rsi14, volume := bar.volume,
    avgVolume := bar.avgVolume20d, last := some bar.last, opening := bar.opening, high := bar.high,
    low := bar.low, sma20 := bar.sma20, minutesToClose, accumulation }

def tapeProbability (horizon : String) (t : Tape) : ℚ × List String × String :=
  let adjusted := adjustProbability (probabilityOf t.trend t.momentum) horizon t.liquidity t.volatility
    t.rsi t.volume t.avgVolume
  applyTimingProbability adjusted.1 adjusted.2 t

def hardNoZone (why : String) : Bool :=
  why ∈ ["medium_book_ignored", "vol_extreme", "falling_knife", "exhausted", "short_oversold_bounce",
    "too_close_to_flatten", "sideways_stand_down"] || hasPrefix why "liquidity_" ||
    hasPrefix why "rsi_extreme"

def zoneAround (last pct : ℚ) : PriceZone :=
  { min := roundTo 4 (last * (1 - pct)), max := roundTo 4 (last * (1 + pct)) }

structure QuantInput where
  watchlist : List WatchRow
  vix : Option ℚ
  minutesToClose : Option ℚ
  localPython : Bool

def accumulates (bar : BarSnapshot) (horizon : String) : Bool :=
  horizon = "short" && (detectStealthAccumulation bar.sessionHistory bar.avgVolume20d).detected

def QuantInput.tape (x : QuantInput) (raw : BarSnapshot) : Tape :=
  let bar := enrichBarIndicators raw
  let horizon := horizonForSymbol bar.symbol x.watchlist
  barTape bar horizon x.vix x.minutesToClose (accumulates bar horizon)

/-- The view that `fallback_output` makes of a bar. -/
def QuantInput.view (x : QuantInput) (raw : BarSnapshot) : SymbolQuantView :=
  let bar := enrichBarIndicators raw
  let horizon := horizonForSymbol bar.symbol x.watchlist
  let t := x.tape raw
  let hit := detectStealthAccumulation bar.sessionHistory bar.avgVolume20d
  let probability := tapeProbability horizon t
  let book := playbookFor horizon
  let why := (structureAllowsEntry horizon t).getD "ok"
  { symbol := Casing.upper bar.symbol
    trendState := t.trend, momentumState := t.momentum, volatilityState := t.volatility,
    liquidityState := t.liquidity
    support := bar.low, resistance := bar.high
    entryZone :=
      if hardNoZone why then none else book.map fun book => zoneAround bar.last book.entryZonePct
    stopOrInvalidation := suggestedLongStop bar.last (truthy bar.atr14)
      (Dict.get? (policyBySymbol x.watchlist) (Casing.upper bar.symbol))
    probabilityEstimate := probability.1
    notes := [if x.localPython then "python-indicators" else "fallback-rules"] ++ probability.2.1 ++
      [s!"structure={why}"] ++
      (if accumulates bar horizon then [s!"stealth={hit.reason}"]
        else if hit.reason ≠ "insufficient_history" then [s!"stealth_no={hit.reason}"] else [])
    entryTiming := some probability.2.2 }

end Readings

end Investor.Agents
