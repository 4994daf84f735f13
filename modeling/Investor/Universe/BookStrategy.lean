import Investor.Universe.Horizons
import Investor.Universe.Allocation

/-!
# The rules of the books

What a book takes and what it gives up (`book_strategy.py`): the horizon a symbol is
traded under, the timing of a tape, whether a view may be proposed as an entry, and when
a held name is to be sold. The portfolio action of a decision is read off the actions of
its plans, and a symbol's own closes may block it (`outcome_gate.py`).
-/

namespace Investor.Universe

open Lib Schema Market

/-- `_DEFAULT_HORIZON`. -/
def DEFAULT_HORIZON : Dict String :=
  [("SPY", "medium"), ("QQQ", "medium"), ("DIA", "medium"), ("VAS", "medium"), ("NDQ", "medium"),
    ("IOZ", "medium"), ("NVDA", "scalp"), ("TSLA", "scalp"), ("IWM", "day"), ("META", "day"),
    ("AMZN", "day"), ("GOOGL", "day"), ("BHP", "short"), ("CBA", "short")]

def isIntraday (horizon : String) : Bool := horizon = "scalp" || horizon = "day"

section Horizons

variable [Casing]

/-- `horizon_for_symbol`: the watchlist's, else the standing book's, else the default. -/
def horizonForSymbol (symbol : String) (watchlist : List WatchRow) : String :=
  let sym := Casing.upper symbol
  let rows := watchlist.filter fun row =>
    Casing.upper row.symbol = sym ∧ Casing.lower (strip row.horizon) ≠ ""
  match rows with
  | row :: _ => Casing.lower (strip row.horizon)
  | [] =>
    match assignedHorizon sym with
    | some forced => forced
    | none => (Dict.get? DEFAULT_HORIZON sym).getD UniverseHorizon.short.value

/-- `policy_time_horizon`. -/
def policyTimeHorizon (horizon : String) : TimeHorizon :=
  match playbookFor horizon with
  | some book => book.cioTimeHorizon
  | none =>
    match policyFor (if horizon = "" then "short" else horizon) with
    | some policy => policy.cioTimeHorizon
    | none => .intraday

end Horizons

/-! ## The tape of a view -/

structure Tape where
  trend : TrendState
  momentum : MomentumState
  liquidity : LiquidityState
  volatility : VolatilityState
  rsi : Option ℚ
  volume : Option ℚ
  avgVolume : Option ℚ
  last : Option ℚ
  opening : Option ℚ
  high : Option ℚ
  low : Option ℚ
  sma20 : Option ℚ
  minutesToClose : Option ℚ
  accumulation : Bool
  deriving DecidableEq

/-- `_range_loc`: where the last price stands in the range. -/
def rangeLoc (last high low : Option ℚ) : Option ℚ := do
  let l ← last
  let h ← high
  let b ← low
  if h ≤ b then none else some ((l - b) / (h - b))

/-- `classify_timing`. -/
def classifyTiming (t : Tape) : String :=
  let loc := rangeLoc t.last t.high t.low
  let oversold := t.rsi.any (· ≤ 40)
  let extended := t.rsi.any (72 ≤ ·)
  let nearLow := loc.any (· ≤ 35 / 100)
  let nearHigh := loc.any (85 / 100 ≤ ·)
  let atMa := t.sma20.any fun ma => t.last.any fun px =>
    |px - ma| / max |ma| (1 / 10 ^ 9) ≤ 8 / 1000
  let reclaim := t.last.any fun px =>
    t.sma20.any (· ≤ px) || (t.opening.any (· ≤ px) && nearLow)
  if t.accumulation then "accumulation"
  else if t.momentum = .exhausted && t.rsi.all (70 ≤ ·) then "blowoff"
  else if t.trend.isDown then
    if oversold || nearLow || reclaim then "bounce" else "falling_knife"
  else if nearLow || oversold || (atMa && t.rsi.any (· ≤ 52)) then "dip_buy"
  else if extended || (nearHigh && t.rsi.any (68 ≤ ·)) then "chase"
  else "continuation"

/-- `view_has_accumulation`. -/
def viewHasAccumulation [Casing] (view : SymbolQuantView) : Bool :=
  Casing.lower (strip (view.entryTiming.getD "")) = "accumulation" ||
    view.notes.any fun raw =>
      let text := Casing.lower (strip raw)
      hasPrefix text "timing=accumulation" || hasPrefix text "stealth="

/-- `tape_from_view`, with the states of the view. -/
def tapeFromView [Casing] (view : SymbolQuantView) (minutesToClose : Option ℚ) : Tape :=
  { trend := view.trendState, momentum := view.momentumState, liquidity := view.liquidityState,
    volatility := view.volatilityState, rsi := none, volume := none, avgVolume := none,
    last := view.entryZone.map fun zone => (zone.min + zone.max) / 2,
    opening := none, high := view.resistance, low := view.support, sma20 := none, minutesToClose,
    accumulation := viewHasAccumulation view }

/-! ## Entries -/

section Entries

variable [Casing]

/-- `structure_allows_entry`: the reason the tape is refused, if it is. -/
def structureAllowsEntry (horizon : String) (t : Tape) : Option String :=
  match playbookFor horizon with
  | none => some "medium_book_ignored"
  | some book =>
    let timing := classifyTiming t
    if t.liquidity ∈ book.rejectLiquidity then some s!"liquidity_{t.liquidity.value}"
    else if t.volatility = .extreme then some "vol_extreme"
    else if horizon = "scalp" ∧ t.minutesToClose.any (fun m => 0 ≤ m ∧ m < 45) then
      some "too_close_to_flatten"
    else if t.rsi.any fun rsi => book.rsiHardMax.any (· < rsi) then
      some s!"rsi_extreme_{roundHalfEven (t.rsi.getD 0)}"
    else if t.rsi.any fun rsi => book.rsiHardMin.any (rsi < ·) then
      some s!"rsi_extreme_{roundHalfEven (t.rsi.getD 0)}"
    -- a multi-day accumulation is not vetoed by the labels of one bar
    else if t.accumulation ∧ horizon = "short" then none
    else if isIntraday horizon ∧ t.trend = .sideways then some "sideways_stand_down"
    else if timing = "falling_knife" then some "falling_knife"
    else if timing = "blowoff" then some "exhausted"
    else if horizon = "short" ∧ timing = "bounce" then some "short_oversold_bounce"
    else if book.requireUptrend ∧ ¬ t.trend.isUp ∧ timing ≠ "bounce" ∧
        ¬ (book.allowSidewaysMomentum ∧ t.trend = .sideways ∧ t.momentum = .accelerating) then
      some s!"trend_{t.trend.value}"
    else if book.requireAccelerating ∧ t.momentum ≠ .accelerating then
      some s!"mom_{t.momentum.value}"
    else if t.momentum = .exhausted ∧ book.sellIfExhausted ∧ timing ∉ ["bounce", "dip_buy"] then
      some "exhausted"
    else if book.requireVolumeAccel ∧ t.volume.any (fun v => t.avgVolume.any fun avg =>
        0 < avg ∧ v < book.volumeAccelMult * avg) then some "volume_flat"
    else if book.requireShortMa ∧ t.sma20.any (fun ma => t.last.any (· ≤ ma)) then
      some "below_sma20"
    else if book.requireSessionStructure ∧ t.last.any (fun px => t.opening.any (px < ·)) then
      some "below_open"
    else if book.requireSessionStructure ∧ t.last.any (fun px => t.high.any fun h =>
        t.low.any fun l => l < h ∧ px < (h + l + px) / 3) then some "below_session_vwap"
    else none

def DEFAULT_ROUND_TRIP_COST_BPS : ℚ := 8

/-- `required_probability` at the default costs. -/
def requiredProbability (horizon : String) : ℚ :=
  match playbookFor horizon with
  | none => 1
  | some book =>
    let stopPct := ((policyFor horizon).map (·.stopPctFallback)).getD book.targetPct
    let cost := max 0 DEFAULT_ROUND_TRIP_COST_BPS / 10000
    let win := book.targetPct - cost
    let loss := stopPct + cost
    if win ≤ 0 ∨ loss ≤ 0 then 1 else roundTo 4 (loss / (win + loss))

def entryProbabilityFloor (horizon : String) : ℚ :=
  match playbookFor horizon with
  | none => 1
  | some book => max book.minProbability (requiredProbability horizon)

/-- `should_propose_entry`. -/
def shouldProposeEntry (horizon : String) (probability : ℚ) (t : Tape) (regime : MarketRegime) :
    Bool :=
  match playbookFor horizon with
  | none => false
  | some book =>
    !decide (probability < entryProbabilityFloor horizon) &&
      (structureAllowsEntry horizon t).isNone && decide (regime ∈ book.newOnlyRegimes)

def viewMayEnter (horizon : String) (view : SymbolQuantView) (regime : MarketRegime)
    (minutesToClose : Option ℚ) : Bool :=
  shouldProposeEntry horizon view.probabilityEstimate (tapeFromView view minutesToClose) regime

end Entries

/-! ## Exits -/

inductive BookExit
  | hold | reduce | sell
  deriving DecidableEq

def BookExit.value : BookExit → String
  | .hold => "hold"
  | .reduce => "reduce"
  | .sell => "sell"

/-- `symbol_action_for_exit`. -/
def symbolActionForExit : BookExit → SymbolAction
  | .sell => .sell
  | .reduce => .reduce
  | .hold => .hold

/-- `min_hold_seconds`: one cycle of re-evaluation. -/
def minHoldSeconds (horizon : String) : ℚ := ((policyFor horizon).map (·.reevalSeconds)).getD 300

/-- `hope_trade_floor`: the loss below which a move is noise. -/
def hopeTradeFloor (horizon : String) : ℚ :=
  ((policyFor horizon).map (·.minStopPct)).getD (5 / 1000)

/-- `_is_hope_trade`: under water far enough, and long enough. -/
def isHopeTrade (horizon : String) (last entry heldSeconds : Option ℚ) : Bool :=
  match last, entry with
  | some last, some entry =>
    decide (0 < entry) && decide (hopeTradeFloor horizon < (entry - last) / entry) &&
      !heldSeconds.any (· < minHoldSeconds horizon)
  | _, _ => false

/-- `exit_action`. -/
def exitAction [Casing] (horizon : String) (view : SymbolQuantView)
    (last entry heldSeconds : Option ℚ) : BookExit :=
  match playbookFor horizon with
  | none => .hold
  | some book =>
    -- a downtrend that slows down is hope of a bounce, not a dip
    if book.sellIfDowntrend && view.trendState.isDown then .sell
    else if isHopeTrade horizon last entry heldSeconds && !view.trendState.isUp then .sell
    else if book.sellIfLiquidityStressed && view.liquidityState = .stressed then .sell
    else if book.sellIfExhausted && view.momentumState = .exhausted then .sell
    else if book.reduceIfExhausted && view.momentumState = .exhausted then .reduce
    else .hold

/-- `portfolio_action_from_symbol_actions`, over the actions' texts. -/
def portfolioActionFromTexts (values : List String) : PortfolioAction :=
  if values.any (· ∈ ["BUY", "STRONG_BUY", "SCALE_IN", "ADD"]) then .scaleIn
  else if values.any (· ∈ ["SELL", "PARTIAL_SELL"]) then .reduce
  else if "REDUCE" ∈ values then .reduce
  else if values ≠ [] then .hold
  else .noTrade

/-- `portfolio_action_from_symbol_actions` of a list of plans. -/
def portfolioActionFromSymbolActions (plans : List SymbolActionPlan) : PortfolioAction :=
  portfolioActionFromTexts (plans.map (·.action.value))

/-! ## The account's memory -/

def NO_WIN_CLOSES : ℕ := 5

def RECENT_WINDOW : ℕ := 10

/-- `entry_block_reason`: the closed profits of a symbol, oldest first. -/
def entryBlockReason (pnls : List ℚ) : Option String :=
  let recent := pnls.drop (pnls.length - RECENT_WINDOW)
  if NO_WIN_CLOSES ≤ pnls.length ∧ ¬ pnls.any (0 < ·) then some "no_win_after_closes"
  else if RECENT_WINDOW ≤ recent.length ∧ recent.sum < 0 then some "recent_net_loss"
  else none

end Investor.Universe
