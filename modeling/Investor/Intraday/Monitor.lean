import Investor.Intraday.Lifecycles
import Investor.Universe.BookStrategy

/-!
# The position monitor

`PositionMonitor.evaluate` goes through its rules one after another with a verdict in hand, which
some of them overwrite whatever it was and others only raise. Here the rules are a list
(`rules`), in the order of the source, and the verdict is the fold of it. What a rule looks at does
not depend on the verdict so far, only what it does to it.

The stop and the target a lifecycle does not have are stamped from the book its symbol is traded
under. Left out are the snapshot that is written and the columns of the lifecycle that are only
stored (the unrealised result, the last verdict, the notes in the exit policy).
-/

namespace Investor.Intraday

open Lib Market Execution Universe

/-! ## Verdicts -/

inductive Verdict
  | healthy | watch | riskReviewRequired | exitIntentRequired | reconciliationRequired
  | emergencyActionRequired
  deriving DecidableEq

def Verdict.acts : Verdict → Bool
  | .healthy | .watch => false
  | _ => true

/-- What a rule adds: the verdict after it, the reason, and the type of the event it publishes. -/
structure Rule where
  fires : Bool
  next : Verdict → Verdict
  reason : String
  event : Option String := none

def Rule.apply (rule : Rule) (v : Verdict) : Verdict := if rule.fires then rule.next v else v

/-- `WATCH if verdict == HEALTHY else verdict`. -/
def orWatch (v : Verdict) : Verdict := if v = .healthy then .watch else v

def unlessEmergency (target v : Verdict) : Verdict :=
  if v ≠ .emergencyActionRequired then target else v

/-! ## What is looked at -/

/-- `Settings`, the fields the monitor and the exit policy read. -/
structure MonitorSettings extends Settings where
  dailyMaxLossPct : ℚ
  maxDrawdownPct : ℚ
  allowStopWidening : Bool
  allowStopTightening : Bool

def mockMonitorSettings : MonitorSettings :=
  { mockSettings with
    dailyMaxLossPct := 3 / 2, maxDrawdownPct := 8, allowStopWidening := false
    allowStopTightening := true }

/-- The part of `exit_policy` that is read again; an absent horizon is empty. -/
structure ExitPolicy where
  horizon : String
  peakPrice : Option ℚ
  troughPrice : Option ℚ
  deriving DecidableEq

/-- The columns the monitor reads beside those the broker sync writes; instants in microseconds. -/
structure MonitorColumns where
  takeProfitPrice : Option ℚ
  openedAt : Option Int
  maxHoldingMinutes : Option Int
  overnightAllowed : Bool
  reconciliationRequired : Bool
  exitPolicy : ExitPolicy
  deriving DecidableEq

structure Monitored extends Lifecycle, MonitorColumns
  deriving DecidableEq

/-- The arguments of `evaluate`, the clock, and the extremes of the snapshots so far. -/
structure Observation where
  currentPrice : Option ℚ
  quoteAgeSeconds : Option ℚ
  spreadBps : Option ℚ
  halted : Bool
  brokerQty : Option ℚ
  equity : ℚ
  dailyPnlPct : ℚ
  drawdownPct : ℚ
  now : Int
  histPeak : Option ℚ
  histTrough : Option ℚ

section Levels

variable [Casing]

/-- `playbook_take_profit`. -/
def playbookTakeProfit (entry : ℚ) (horizon : String) (longSide : Bool) : Option ℚ :=
  match playbookFor horizon with
  | none => none
  | some book =>
    if entry ≤ 0 then none
    else some (roundTo 4 (entry * (1 + if longSide then book.targetPct else -book.targetPct)))

/-- `lock_level`. -/
def lockLevel (entry : ℚ) (takeProfit : Option ℚ) (horizon : String) (longSide : Bool) : Option ℚ :=
  if entry ≤ 0 then none
  else
    (takeProfit.orElse fun _ => playbookTakeProfit entry horizon longSide).bind fun tp =>
      if decide (0 < tp - entry) ≠ longSide then none
      else some (roundTo 4 (entry + 1 / 2 * (tp - entry)))

/-- `flatten_on_max_holding`. -/
def flattenOnMaxHolding (m : Monitored) : Bool :=
  let hz := Casing.lower m.exitPolicy.horizon
  if hz ∈ ["scalp", "day"] then true
  else if hz ∈ ["short", "medium"] then false
  else !m.overnightAllowed

end Levels

/-- `_remember_peak_price`. -/
def rememberPeakPrice (policy : ExitPolicy) (hist : Option ℚ) (price : ℚ) : Option ℚ :=
  let peak := ((policy.peakPrice.orElse fun _ => hist).map (max price)).getD price
  if peak ≤ 0 then none else some peak

/-- `_remember_trough_price`. -/
def rememberTroughPrice (policy : ExitPolicy) (hist : Option ℚ) (price : ℚ) : Option ℚ :=
  if price ≤ 0 then none
  else some (((policy.troughPrice.orElse fun _ => hist.filter (0 < ·)).map (min price)).getD price)

/-! ## The rules -/

def Observation.markRejected (o : Observation) : Bool :=
  o.currentPrice.isSome && (usableMark [o.currentPrice]).isNone

namespace Monitored

variable (m : Monitored) (o : Observation)

def entry : ℚ := m.averageEntryPrice.getD 0

def mark : Option ℚ := usableMark [o.currentPrice, m.currentPrice, some m.entry]

def price : ℚ := (m.mark o).getD 0

def longSide : Bool := decide (0 ≤ m.quantity)

def against (level price : ℚ) : Bool :=
  if m.longSide then decide (price ≤ level) else decide (level ≤ price)

def stopArmed : Bool := decide (0 < m.price o) && decide (m.quantity ≠ 0)

def stopTriggered : Bool :=
  m.stopArmed o && m.stopPrice.any fun stop => m.against stop (m.price o)

def stopProximity : Bool :=
  m.stopArmed o && m.stopPrice.any fun stop =>
    !m.against stop (m.price o) && decide (|m.price o - stop| / m.price o * 100 < 1)

def takeProfitTriggered : Bool := m.takeProfitPrice.any fun tp =>
  decide (m.quantity ≠ 0) &&
    if m.longSide then decide (tp ≤ m.price o) else decide (0 < m.price o ∧ m.price o ≤ tp)

def best : Option ℚ :=
  if m.longSide then rememberPeakPrice m.exitPolicy o.histPeak (m.price o)
  else rememberTroughPrice m.exitPolicy o.histTrough (m.price o)

def lock [Casing] : Option ℚ :=
  if 0 < m.entry then lockLevel m.entry m.takeProfitPrice m.exitPolicy.horizon m.longSide else none

def priced : Bool := (m.mark o).isSome && decide (m.quantity ≠ 0) && decide (0 < m.entry)

/-- The level lies on the profitable side of the other, or on it. -/
def reaches (price level : ℚ) : Bool :=
  if m.longSide then decide (level ≤ price) else decide (price ≤ level)

def gaveBack [Casing] : Bool :=
  m.priced o && (m.best o).any (fun best => m.lock.any fun lock => m.reaches best lock) &&
    (if m.longSide then decide (m.price o < m.entry) else decide (m.entry < m.price o)) &&
    !m.takeProfitTriggered o

/-- The lock is reached and the stop still lies on the losing side of the entry. -/
def trails [Casing] : Bool :=
  !m.gaveBack o && m.priced o && m.lock.any (fun lock => m.reaches (m.price o) lock) &&
    m.stopPrice.any fun stop =>
      if m.longSide then decide (stop < m.entry) else decide (m.entry < stop)

/-- The breakeven trail: the stop moves to the entry, and what rests at the broker is not it. -/
def trailed [Casing] : Monitored :=
  if m.trails o then
    { m with stopPrice := some (roundTo 4 m.entry), protectionSubmitted := false }
  else m

def heldTooLong : Bool := m.openedAt.any fun opened =>
  (m.maxHoldingMinutes.filter (· ≠ 0)).any fun minutes =>
    decide ((minutes : ℚ) ≤ (o.now - opened) / 60000000)

def qtyDrifts : Bool := o.brokerQty.any fun qty => decide (1 / 10 ^ 6 < |qty - m.quantity|)

def unprotected [Casing] : Bool :=
  !(m.trailed o).protectionSubmitted && decide (0 < |m.quantity|) && m.stopPrice.isSome

def weight : ℚ :=
  if o.equity ≠ 0 ∧ m.price o ≠ 0 then |m.quantity| * m.price o / o.equity * 100 else 0

end Monitored

section Evaluate

variable [Casing] (cfg : MonitorSettings)

def staleQuote (o : Observation) : Bool :=
  o.quoteAgeSeconds.any fun age => decide ((cfg.latestQuoteMaxAgeSeconds : ℚ) * 20 < age)

def spreadWide (o : Observation) : Bool :=
  o.spreadBps.any fun spread => decide (cfg.maxOrderSpreadBps < spread)

def concentrated (m : Monitored) (o : Observation) : Bool :=
  decide (cfg.maxPositionPct * (11 / 10) < m.weight o)

def quoteRules (m : Monitored) (o : Observation) : List Rule :=
  [{ fires := o.markRejected, next := fun _ => .watch, reason := "mark_rejected" },
   { fires := (m.mark o).isNone
     next := unlessEmergency .riskReviewRequired, reason := "mark_unusable" },
   { fires := o.halted, next := fun _ => .riskReviewRequired, reason := "trading_halt" },
   { fires := staleQuote cfg o, next := fun _ => .riskReviewRequired, reason := "stale_quote" },
   { fires := spreadWide cfg o, next := fun _ => .watch, reason := "spread_wide" }]

def positionRules (m : Monitored) (o : Observation) : List Rule :=
  [{ fires := m.qtyDrifts o
     next := fun _ => .reconciliationRequired, reason := "broker_qty_drift" },
   { fires := m.reconciliationRequired
     next := fun _ => .reconciliationRequired, reason := "flagged_reconciliation" },
   { fires := m.stopTriggered o, next := fun _ => .exitIntentRequired
     reason := "stop_triggered", event := some "STOP_TRIGGERED" },
   { fires := m.stopProximity o, next := orWatch, reason := "stop_proximity" },
   { fires := m.takeProfitTriggered o, next := unlessEmergency .exitIntentRequired
     reason := "take_profit_triggered", event := some "TAKE_PROFIT_TRIGGERED" },
   { fires := m.gaveBack o, next := unlessEmergency .exitIntentRequired
     reason := "giveback_to_loss", event := some "TAKE_PROFIT_TRIGGERED" },
   { fires := m.heldTooLong o && flattenOnMaxHolding m, next := unlessEmergency .exitIntentRequired
     reason := "max_holding_time", event := some "MAX_HOLDING_TIME_REACHED" },
   { fires := m.heldTooLong o && !flattenOnMaxHolding m
     next := fun v =>
       if v = .emergencyActionRequired ∨ v = .exitIntentRequired then v else .riskReviewRequired
     reason := "max_holding_review", event := some "MAX_HOLDING_TIME_REACHED" },
   { fires := m.unprotected o, next := orWatch, reason := "protection_order_missing" },
   { fires := decide (o.dailyPnlPct ≤ -cfg.dailyMaxLossPct)
     next := fun _ => .emergencyActionRequired, reason := "daily_loss_limit" },
   { fires := decide (cfg.maxDrawdownPct ≤ o.drawdownPct)
     next := fun _ => .emergencyActionRequired, reason := "drawdown_limit" },
   { fires := concentrated cfg m o
     next := fun v => if v = .healthy then .riskReviewRequired else v
     reason := "position_concentration" }]

/-- The rules of `evaluate`, in their order. -/
def rules (m : Monitored) (o : Observation) : List Rule :=
  quoteRules cfg m o ++ positionRules cfg m o

/-- `MonitorResult`, with the types of the events that were published. -/
structure MonitorResult where
  verdict : Verdict
  symbol : String
  reasons : List String
  events : List String
  deriving DecidableEq

/-- What `evaluate` writes to the lifecycle. -/
def observed (m : Monitored) (o : Observation) : Monitored :=
  { m.trailed o with
    currentPrice := (m.mark o).orElse fun _ => m.currentPrice
    exitPolicy :=
      { m.exitPolicy with
        peakPrice := (rememberPeakPrice m.exitPolicy o.histPeak (m.price o)).orElse fun _ =>
          m.exitPolicy.peakPrice
        troughPrice := (rememberTroughPrice m.exitPolicy o.histTrough (m.price o)).orElse fun _ =>
          m.exitPolicy.troughPrice } }

/-- `PositionMonitor.evaluate`. -/
def PositionMonitor.evaluate (m : Monitored) (o : Observation) : MonitorResult :=
  let fired := (rules cfg m o).filter (·.fires)
  { verdict := (rules cfg m o).foldl (fun v rule => rule.apply v) .healthy
    symbol := m.symbol
    reasons := fired.map (·.reason)
    events := fired.filterMap (·.event) }

end Evaluate

/-! ## The stop and the target of the book -/

/-- `suggested_long_stop` before it is rounded, under a policy. -/
def rawLongStop (policy : HorizonPolicy) (reference : ℚ) (atr : Option ℚ) : ℚ :=
  let stop := match atr.filter (0 < ·) with
    | some atr => reference - policy.stopAtrMult * atr
    | none => reference * (1 - policy.stopPctFallback)
  min stop (reference * (1 - policy.minStopPct))

/-- `suggested_long_stop`. -/
def suggestedLongStop (policy : HorizonPolicy) (reference : ℚ) (atr : Option ℚ) : Option ℚ :=
  if reference ≤ 0 then none
  else
    let stop := rawLongStop policy reference atr
    if stop ≤ 0 ∨ reference ≤ stop then none else some (roundTo 4 stop)

section Stamps

variable [Casing]

/-- The horizon a lifecycle is stamped under: that of the watchlist's row, else of its symbol. -/
def stampHorizon (watchlistHorizon : Option String) (symbol : String) : String :=
  match watchlistHorizon.filter (· ≠ "") with
  | some hz => hz
  | none => horizonForSymbol symbol []

/-- `stamp_horizon_stop_if_missing`, at the watchlist's horizon and the latest ATR. -/
def stampHorizonStopIfMissing (watchlistHorizon : Option String) (atr : Option ℚ) (m : Monitored) :
    Monitored :=
  if m.stopPrice.isSome then m
  else
    let ref := ((m.averageEntryPrice.filter (· ≠ 0)).orElse fun _ => m.currentPrice).getD 0
    if ref ≤ 0 then m
    else
      let hz := stampHorizon watchlistHorizon m.symbol
      match (policyFor hz).bind fun policy => suggestedLongStop policy ref (atr.filter (0 < ·)) with
      | none => m
      | some stop =>
        { m with stopPrice := some stop, exitPolicy := { m.exitPolicy with horizon := hz } }

/-- `stamp_horizon_take_profit_if_missing`. -/
def stampHorizonTakeProfitIfMissing (watchlistHorizon : Option String) (m : Monitored) : Monitored :=
  if m.takeProfitPrice.isSome then m
  else
    let ref := m.averageEntryPrice.getD 0
    if ref ≤ 0 then m
    else
      let hz := stampHorizon watchlistHorizon m.symbol
      match playbookTakeProfit ref hz true with
      | none => m
      | some tp =>
        { m with takeProfitPrice := some tp, exitPolicy := { m.exitPolicy with horizon := hz } }

end Stamps

end Investor.Intraday
