import Investor.Lib.FloatOrder
import Investor.Intraday.StampedLevels

/-!
# The three stop tests of a pass

For each lifecycle `monitor_all` asks three times whether the stop is reached: in the monitor,
which may move the stop and the mark, in the risk review and in the exit policy. The monitor holds
the first usable price against the stop, on the side of the position. The other two hold what they
are given against it, usable or not, and both ask whether it is at most the stop: the exit policy
does nothing for a short, the risk review takes its stop for a long's.

`stopTests_agree_iff` says when they agree. Prices are what floats can be here; of the monitor
there is what bears on the stop and the mark, and for finite prices that is
`Monitored.stopTriggered` and `observed`.
-/

namespace Investor.Intraday

open Lib Market Execution Universe

namespace Floats

/-! ## The columns and the price -/

inductive StopKind
  | fixedPrice | percentage | atrBased | timeBased
  deriving DecidableEq

inductive StopStatus
  | active | triggered | orderPending | orderSubmitted | partiallyFilled | filled | failed | cancelled
  | superseded
  deriving DecidableEq

/-- `PositionLifecycle`, the columns the stop tests read and write. -/
structure Position where
  symbol : String
  quantity : ℚ
  averageEntryPrice : Option PyFloat
  currentPrice : Option PyFloat
  stopPrice : Option PyFloat
  takeProfitPrice : Option PyFloat
  protectionSubmitted : Bool
  stopStatus : Option StopStatus
  invalidationState : String
  exitPolicy : ExitPolicy
  deriving DecidableEq

/-- The price a symbol is given, and the extremes of the snapshots so far. -/
structure Tick where
  given : Option PyFloat
  histPeak : Option ℚ
  histTrough : Option ℚ

def usable : PyFloat → Option ℚ
  | .fin px => if isSaneEquityPrice px then some px else none
  | .inf | .negInf | .nan => none

/-- `usable_mark`. -/
def usableMark (candidates : List (Option PyFloat)) : Option ℚ :=
  candidates.findSome? fun px => px.bind usable

/-- `round(x, 4)`. -/
def roundPrice : PyFloat → PyFloat := PyFloat.rounded (roundTo 4)

section Levels

variable [Casing]

/-- `playbook_take_profit`. -/
def playbookTakeProfit (entry : PyFloat) (horizon : String) (longSide : Bool) : Option PyFloat :=
  match playbookFor horizon with
  | none => none
  | some book =>
    if entry.le 0 then none
    else some (roundPrice (entry.scale (1 + if longSide then book.targetPct else -book.targetPct)))

/-- `lock_level`. -/
def lockLevel (entry : PyFloat) (takeProfit : Option PyFloat) (horizon : String) (longSide : Bool) :
    Option PyFloat :=
  if entry.le 0 then none
  else
    (takeProfit.orElse fun _ => playbookTakeProfit entry horizon longSide).bind fun tp =>
      if (tp.sub entry).gt 0 ≠ longSide then none
      else some (roundPrice (entry.add ((tp.sub entry).scale (1 / 2))))

/-- `suggested_long_stop`, under a policy. -/
def suggestedLongStop (policy : HorizonPolicy) (reference : PyFloat) (atr : Option ℚ) :
    Option PyFloat :=
  if reference.le 0 then none
  else
    let stop := match atr.filter (0 < ·) with
      | some atr => reference.sub (.fin (policy.stopAtrMult * atr))
      | none => reference.scale (1 - policy.stopPctFallback)
    let stop := stop.least (reference.scale (1 - policy.minStopPct))
    if stop.le 0 ∨ reference.atMost stop then none else some (roundPrice stop)

/-- `stamp_horizon_stop_if_missing`, at the watchlist's horizon and the latest ATR. -/
def stampHorizonStopIfMissing (watchlistHorizon : Option String) (atr : Option ℚ) (m : Position) :
    Position :=
  if m.stopPrice.isSome then m
  else
    let ref := PyFloat.firstTruthy [m.averageEntryPrice, m.currentPrice]
    if ref.le 0 then m
    else
      let hz := stampHorizon watchlistHorizon m.symbol
      match (policyFor hz).bind fun policy => suggestedLongStop policy ref (atr.filter (0 < ·)) with
      | none => m
      | some stop =>
        { m with stopPrice := some stop, exitPolicy := { m.exitPolicy with horizon := hz } }

/-- `stamp_horizon_take_profit_if_missing`. -/
def stampHorizonTakeProfitIfMissing (watchlistHorizon : Option String) (m : Position) : Position :=
  if m.takeProfitPrice.isSome then m
  else
    let ref := PyFloat.firstTruthy [m.averageEntryPrice]
    if ref.le 0 then m
    else
      let hz := stampHorizon watchlistHorizon m.symbol
      match playbookTakeProfit ref hz true with
      | none => m
      | some tp =>
        { m with takeProfitPrice := some tp, exitPolicy := { m.exitPolicy with horizon := hz } }

end Levels

/-! ## The monitor -/

namespace Position

variable (m : Position) (t : Tick)

def entry : PyFloat := PyFloat.firstTruthy [m.averageEntryPrice]

def mark : Option ℚ := usableMark [t.given, m.currentPrice, some m.entry]

def price : ℚ := (m.mark t).getD 0

def longSide : Bool := decide (0 ≤ m.quantity)

def stopTriggered : Bool :=
  decide (0 < m.price t) && decide (m.quantity ≠ 0) && m.stopPrice.any fun stop =>
    if m.longSide then (PyFloat.fin (m.price t)).atMost stop else stop.atMost (.fin (m.price t))

def takeProfitTriggered : Bool := m.takeProfitPrice.any fun tp =>
  decide (m.quantity ≠ 0) &&
    if m.longSide then tp.atMost (.fin (m.price t))
    else decide (0 < m.price t) && (PyFloat.fin (m.price t)).atMost tp

def best : Option ℚ :=
  if m.longSide then rememberPeakPrice m.exitPolicy t.histPeak (m.price t)
  else rememberTroughPrice m.exitPolicy t.histTrough (m.price t)

def lock [Casing] : Option PyFloat :=
  if m.entry.gt 0 then lockLevel m.entry m.takeProfitPrice m.exitPolicy.horizon m.longSide else none

def priced : Bool := (m.mark t).isSome && decide (m.quantity ≠ 0) && m.entry.gt 0

/-- The level lies on the profitable side of the other, or on it. -/
def reaches (price : ℚ) (level : PyFloat) : Bool :=
  if m.longSide then level.atMost (.fin price) else (PyFloat.fin price).atMost level

def gaveBack [Casing] : Bool :=
  m.priced t && (m.best t).any (fun best => m.lock.any fun lock => m.reaches best lock) &&
    (if m.longSide then (PyFloat.fin (m.price t)).below m.entry
      else m.entry.below (.fin (m.price t))) &&
    !m.takeProfitTriggered t

/-- The lock is reached and the stop still lies on the losing side of the entry. -/
def trails [Casing] : Bool :=
  !m.gaveBack t && m.priced t && m.lock.any (fun lock => m.reaches (m.price t) lock) &&
    m.stopPrice.any fun stop =>
      if m.longSide then stop.below m.entry else m.entry.below stop

def laterStop [Casing] : Option PyFloat :=
  if m.trails t then some (roundPrice m.entry) else m.stopPrice

/-- What `PositionMonitor.evaluate` writes to the lifecycle. -/
def observed [Casing] : Position :=
  { m with
    stopPrice := m.laterStop t
    protectionSubmitted := m.protectionSubmitted && !m.trails t
    currentPrice := ((m.mark t).map .fin).orElse fun _ => m.currentPrice
    exitPolicy :=
      { m.exitPolicy with
        peakPrice := (rememberPeakPrice m.exitPolicy t.histPeak (m.price t)).orElse fun _ =>
          m.exitPolicy.peakPrice
        troughPrice := (rememberTroughPrice m.exitPolicy t.histTrough (m.price t)).orElse fun _ =>
          m.exitPolicy.troughPrice } }

end Position

/-! ## The risk review -/

inductive RiskStatus
  | riskOk | riskWarning | reduceRequired | exitRequired | tradingPauseRequired | emergencyStopRequired
  deriving DecidableEq

/-- `Settings`, with the field the review reads beside the monitor's. -/
structure ReviewSettings extends MonitorSettings where
  maxSectorPct : ℚ

/-- The arguments of the review, with the defaults `monitor_all` leaves. -/
structure RiskInput where
  equity : ℚ
  dailyPnlPct : ℚ
  drawdownPct : ℚ
  sectorWeightPct : ℚ := 0
  quoteAgeSeconds : Option ℚ := some 0
  spreadBps : Option ℚ := some 10
  economicEventImminent : Bool := false
  overnightRisk : Bool := false
  brokerDrift : Bool := false
  price : Option PyFloat

/-- What a condition of the review adds: the status after it, and the reason. -/
structure RiskRule where
  fires : Bool
  next : RiskStatus → RiskStatus
  reason : String

structure DynamicRiskResult where
  status : RiskStatus
  reasons : List String
  deriving DecidableEq

section Review

variable (cfg : ReviewSettings)

def orStatus (status : RiskStatus) (known : List RiskStatus) (s : RiskStatus) : RiskStatus :=
  if s ∈ known then status else s

def Position.reviewPrice (m : Position) (given : Option PyFloat) : PyFloat :=
  PyFloat.firstTruthy [given, m.currentPrice, m.averageEntryPrice]

/-- `lifecycle.stop_price and px and px <= float(lifecycle.stop_price)`. -/
def Position.stopBreached (m : Position) (given : Option PyFloat) : Bool :=
  m.stopPrice.any fun stop =>
    stop.truthy && (m.reviewPrice given).truthy && (m.reviewPrice given).atMost stop

def riskRules (m : Position) (i : RiskInput) : List RiskRule :=
  let px := m.reviewPrice i.price
  let weight :=
    if i.equity ≠ 0 ∧ px.truthy then px.scale (|m.quantity| / i.equity * 100) else .fin 0
  [{ fires := i.brokerDrift, next := fun _ => .tradingPauseRequired, reason := "broker_drift" },
   { fires := i.quoteAgeSeconds.any fun age => decide ((cfg.latestQuoteMaxAgeSeconds : ℚ) * 20 < age)
     next := fun _ => .tradingPauseRequired, reason := "data_stale" },
   { fires := decide (i.dailyPnlPct ≤ -cfg.dailyMaxLossPct)
     next := fun _ => .emergencyStopRequired, reason := "daily_loss_limit" },
   { fires := decide (cfg.maxDrawdownPct ≤ i.drawdownPct)
     next := fun _ => .emergencyStopRequired, reason := "drawdown_limit" },
   { fires := weight.gt cfg.maxPositionPct
     next := orStatus .reduceRequired [.riskOk], reason := "symbol_concentration" },
   { fires := decide (cfg.maxSectorPct < i.sectorWeightPct)
     next := orStatus .reduceRequired [.riskOk, .riskWarning], reason := "sector_concentration" },
   { fires := i.spreadBps.any fun spread => decide (cfg.maxOrderSpreadBps < spread)
     next := orStatus .riskWarning [.riskOk], reason := "spread" },
   { fires := i.economicEventImminent || i.overnightRisk
     next := orStatus .riskWarning [.riskOk], reason := "event_or_overnight_risk" },
   { fires := m.stopBreached i.price, next := fun _ => .exitRequired, reason := "stop_breached" },
   { fires := decide (m.invalidationState = "CONFIRMED")
     next := fun _ => .exitRequired, reason := "invalidation_confirmed" }]

/-- `DynamicRiskRevalidator.evaluate`. -/
def DynamicRiskRevalidator.evaluate (m : Position) (i : RiskInput) : DynamicRiskResult :=
  let rules := riskRules cfg m i
  { status := rules.foldl (fun s rule => if rule.fires then rule.next s else s) .riskOk
    reasons := (rules.filter (·.fires)).map (·.reason) }

end Review

/-! ## The exit policy -/

structure StopCheckResult where
  triggered : Bool
  kind : StopKind
  stopPrice : Option PyFloat
  status : StopStatus
  reasons : List String
  deriving DecidableEq

/-- A row of the `stop_events` table. -/
structure StopEvent where
  kind : StopKind
  status : StopStatus
  stopPrice : PyFloat
  triggerPrice : PyFloat
  reasons : List String
  deriving DecidableEq

/-- `check_stop`, with the lifecycle after it and the event it writes. -/
def ExitPolicyEngine.checkStop (m : Position) (price : PyFloat) (quoteStale : Bool) (kind : StopKind) :
    StopCheckResult × Position × Option StopEvent :=
  match m.stopPrice with
  | none => (⟨false, kind, none, .active, ["no_stop"]⟩, m, none)
  | some stop =>
    let reasons := if quoteStale then ["stale_quote_conservative"] else []
    let triggerPrice := if quoteStale then stop.scale (995 / 1000) else stop
    if price.atMost triggerPrice ∧ 0 < m.quantity then
      (⟨true, kind, some stop, .triggered, reasons⟩, { m with stopStatus := some .triggered },
        some ⟨kind, .triggered, stop, price, reasons⟩)
    else (⟨false, kind, some stop, .active, reasons⟩, m, none)

/-! ## One pass -/

/-- The stop tests `monitor_all` runs on a lifecycle. -/
structure StopTests where
  monitor : Bool
  risk : DynamicRiskResult
  stop : StopCheckResult
  event : Option StopEvent
  deriving DecidableEq

/-- The portfolio, the watchlist and the snapshots, where `monitor_all` reads them for a lifecycle. -/
structure PassInput where
  equity : ℚ
  dailyPnlPct : ℚ
  drawdownPct : ℚ
  watchlistHorizon : Option String
  atr : Option ℚ
  histPeak : Option ℚ
  histTrough : Option ℚ

section Pass

variable [Casing]

/-- The price `monitor_all` hands to the exit policy. -/
def Position.checkPrice (m : Position) (given : Option PyFloat) : PyFloat :=
  PyFloat.firstTruthy [given, m.currentPrice]

def stamped (i : PassInput) (m : Position) : Position :=
  stampHorizonTakeProfitIfMissing i.watchlistHorizon
    (stampHorizonStopIfMissing i.watchlistHorizon i.atr m)

def PassInput.tick (i : PassInput) (given : Option PyFloat) : Tick :=
  { given := given, histPeak := i.histPeak, histTrough := i.histTrough }

/-- The body of the loop of `monitor_all`, up to the third test. -/
def stopTests (cfg : ReviewSettings) (prices : Dict PyFloat) (i : PassInput) (m : Position) :
    StopTests :=
  let lc := stamped i m
  let given := Dict.get? prices lc.symbol
  let seen := lc.observed (i.tick given)
  let checked := ExitPolicyEngine.checkStop seen (seen.checkPrice given) false .fixedPrice
  { monitor := lc.stopTriggered (i.tick given)
    risk := DynamicRiskRevalidator.evaluate cfg seen
      { equity := i.equity, dailyPnlPct := i.dailyPnlPct, drawdownPct := i.drawdownPct, price := given }
    stop := checked.1
    event := checked.2.2 }

end Pass

/-! ## Finite prices -/

section Finite

variable (m : Monitored) (o : Observation) (status : Option StopStatus)
  (invalidation : String)

def ofMonitored : Position :=
  { symbol := m.symbol
    quantity := m.quantity
    averageEntryPrice := m.averageEntryPrice.map .fin
    currentPrice := m.currentPrice.map .fin
    stopPrice := m.stopPrice.map .fin
    takeProfitPrice := m.takeProfitPrice.map .fin
    protectionSubmitted := m.protectionSubmitted
    stopStatus := status
    invalidationState := invalidation
    exitPolicy := m.exitPolicy }

def ofObservation : Tick :=
  { given := o.currentPrice.map .fin, histPeak := o.histPeak, histTrough := o.histTrough }

theorem usableMark_fin (candidates : List (Option ℚ)) :
    usableMark (candidates.map (Option.map .fin)) = Intraday.usableMark candidates := by
  induction candidates with
  | nil => rfl
  | cons px candidates ih =>
    unfold usableMark at ih
    unfold usableMark Intraday.usableMark
    rw [List.map_cons, List.findSome?_cons, ih]
    cases px with
    | none => rfl
    | some q =>
      by_cases h : isSaneEquityPrice q
      · simp [usable, h, Option.filter_some]
      · simp [usable, h, Intraday.usableMark, Option.filter_some]

theorem entry_ofMonitored : (ofMonitored m status invalidation).entry = .fin m.entry := by
  unfold Position.entry Monitored.entry ofMonitored
  cases m.averageEntryPrice with
  | none => rfl
  | some e =>
    by_cases h : e = 0
    · simp [PyFloat.firstTruthy, PyFloat.truthy, Option.filter_some, h]
    · simp [PyFloat.firstTruthy, PyFloat.truthy, Option.filter_some, h]

theorem mark_ofMonitored :
    (ofMonitored m status invalidation).mark (ofObservation o) = m.mark o := by
  rw [Position.mark, entry_ofMonitored, Monitored.mark, ← usableMark_fin]
  rfl

theorem price_ofMonitored :
    (ofMonitored m status invalidation).price (ofObservation o) = m.price o := by
  rw [Position.price, mark_ofMonitored]
  rfl

theorem stopTriggered_ofMonitored :
    (ofMonitored m status invalidation).stopTriggered (ofObservation o) = m.stopTriggered o := by
  rw [Position.stopTriggered, price_ofMonitored, Monitored.stopTriggered, Monitored.stopArmed]
  cases hs : m.stopPrice with
  | none => simp [ofMonitored, hs]
  | some s =>
    simp [ofMonitored, hs, Monitored.against, Position.longSide, Monitored.longSide]

theorem playbookTakeProfit_fin [Casing] (e : ℚ) (hz : String) (longSide : Bool) :
    playbookTakeProfit (.fin e) hz longSide =
      (Intraday.playbookTakeProfit e hz longSide).map .fin := by
  unfold playbookTakeProfit Intraday.playbookTakeProfit
  cases playbookFor hz with
  | none => rfl
  | some book =>
    by_cases h : e ≤ 0
    · simp [PyFloat.le, h]
    · simp [PyFloat.le, h, PyFloat.scale, roundPrice, PyFloat.rounded]

theorem lockLevel_fin [Casing] (e : ℚ) (tp : Option ℚ) (hz : String) (longSide : Bool) :
    lockLevel (.fin e) (tp.map .fin) hz longSide =
      (Intraday.lockLevel e tp hz longSide).map .fin := by
  unfold lockLevel Intraday.lockLevel
  rw [playbookTakeProfit_fin]
  by_cases h : e ≤ 0
  · simp [PyFloat.le, h]
  · have htarget : ((tp.map PyFloat.fin).orElse fun _ =>
        (Intraday.playbookTakeProfit e hz longSide).map .fin) =
        (tp.orElse fun _ => Intraday.playbookTakeProfit e hz longSide).map .fin := by
      cases tp with
      | none => rfl
      | some q => rfl
    rw [htarget]
    cases tp.orElse fun _ => Intraday.playbookTakeProfit e hz longSide with
    | none => simp [PyFloat.le, h]
    | some q =>
      simp [PyFloat.le, h, PyFloat.gt, roundPrice, PyFloat.rounded, PyFloat.scale, mul_comm]

theorem lock_ofMonitored [Casing] : (ofMonitored m status invalidation).lock = m.lock.map .fin := by
  unfold Position.lock Monitored.lock
  rw [entry_ofMonitored]
  have hlevel := lockLevel_fin m.entry m.takeProfitPrice m.exitPolicy.horizon m.longSide
  by_cases h : 0 < m.entry
  · rw [if_pos h, if_pos (by simpa [PyFloat.gt] using h), ← hlevel]
    rfl
  · simp [PyFloat.gt, h]

theorem priced_ofMonitored :
    (ofMonitored m status invalidation).priced (ofObservation o) = m.priced o := by
  rw [Position.priced, mark_ofMonitored, entry_ofMonitored]
  rfl

theorem takeProfitTriggered_ofMonitored :
    (ofMonitored m status invalidation).takeProfitTriggered (ofObservation o) =
      m.takeProfitTriggered o := by
  unfold Position.takeProfitTriggered Monitored.takeProfitTriggered
  rw [price_ofMonitored]
  cases htp : m.takeProfitPrice with
  | none => simp [ofMonitored, htp]
  | some tp =>
    simp [ofMonitored, htp, Position.longSide, Monitored.longSide, Bool.decide_and]

theorem best_ofMonitored :
    (ofMonitored m status invalidation).best (ofObservation o) = m.best o := by
  rw [Position.best, price_ofMonitored]
  rfl

theorem gaveBack_ofMonitored [Casing] :
    (ofMonitored m status invalidation).gaveBack (ofObservation o) = m.gaveBack o := by
  unfold Position.gaveBack Monitored.gaveBack
  rw [priced_ofMonitored, best_ofMonitored, lock_ofMonitored, entry_ofMonitored, price_ofMonitored,
    takeProfitTriggered_ofMonitored]
  simp only [PyFloat.fin_below_fin, Option.any_map]
  rfl

theorem trails_ofMonitored [Casing] :
    (ofMonitored m status invalidation).trails (ofObservation o) = m.trails o := by
  unfold Position.trails Monitored.trails
  rw [gaveBack_ofMonitored, priced_ofMonitored, lock_ofMonitored, entry_ofMonitored,
    price_ofMonitored]
  have hstop : (ofMonitored m status invalidation).stopPrice = m.stopPrice.map .fin := rfl
  rw [hstop]
  simp only [PyFloat.fin_below_fin, Option.any_map]
  rfl

theorem observed_ofMonitored [Casing] :
    (ofMonitored m status invalidation).observed (ofObservation o) =
      ofMonitored (Intraday.observed m o) status invalidation := by
  unfold Position.observed Position.laterStop Intraday.observed Monitored.trailed
  rw [trails_ofMonitored, mark_ofMonitored, price_ofMonitored, entry_ofMonitored]
  have hmark : ((m.mark o).map PyFloat.fin).or (m.currentPrice.map .fin) =
      ((m.mark o).or m.currentPrice).map .fin := by
    cases m.mark o with
    | none => rfl
    | some x => rfl
  by_cases h : m.trails o
  · simp [h, ofMonitored, ofObservation, hmark, roundPrice, PyFloat.rounded]
  · simp [h, ofMonitored, ofObservation, hmark]

end Finite

/-! ## What each test asks -/

section Tests

variable {m : Position} {t : Tick} {x : ℚ} {y s : PyFloat}

theorem usable_iff : usable y = some x ↔ y = .fin x ∧ isSaneEquityPrice x := by
  cases y with
  | fin q =>
    by_cases h : isSaneEquityPrice q
    · simp only [usable, if_pos h, Option.some.injEq, PyFloat.fin.injEq]
      exact ⟨fun hq => ⟨hq, hq ▸ h⟩, And.left⟩
    · simp only [usable, if_neg h, PyFloat.fin.injEq, reduceCtorEq, false_iff, not_and]
      intro hq hx
      exact h (hq ▸ hx)
  | inf => simp [usable]
  | negInf => simp [usable]
  | nan => simp [usable]

theorem pos_of_sane (h : isSaneEquityPrice x) : 0 < x := by
  simp only [isSaneEquityPrice, Bool.and_eq_true, decide_eq_true_eq] at h
  exact h.1

theorem truthy_of_sane (h : isSaneEquityPrice x) : (PyFloat.fin x).truthy := by
  have hpos := pos_of_sane h
  simp [PyFloat.truthy, hpos.ne']

theorem mark_sane (h : m.mark t = some x) : isSaneEquityPrice x := by
  obtain ⟨px, -, hpx⟩ := List.exists_of_findSome?_eq_some h
  obtain ⟨y, -, hy⟩ := Option.bind_eq_some_iff.mp hpx
  exact (usable_iff.mp hy).2

theorem price_of_mark (h : m.mark t = some x) : m.price t = x := by
  rw [Position.price, h]
  rfl

theorem mark_of_given (hgiven : t.given = some y) (h : usable y = some x) : m.mark t = some x := by
  simp [Position.mark, usableMark, hgiven, h]

/-- A usable price lies at the stop or through it, against the position. -/
def Position.Hit (m : Position) (t : Tick) : Prop :=
  ∃ x s, m.mark t = some x ∧ isSaneEquityPrice x ∧ m.stopPrice = some s ∧
    (0 < m.quantity ∧ (PyFloat.fin x).atMost s ∨ m.quantity < 0 ∧ s.atMost (.fin x))

theorem stopTriggered_iff : m.stopTriggered t ↔ m.Hit t := by
  unfold Position.stopTriggered Position.Hit
  simp only [Bool.and_eq_true, decide_eq_true_eq, Option.any_eq_true, Position.longSide]
  constructor
  · intro h
    obtain ⟨⟨hpos, hopen⟩, s, hs, hagainst⟩ := h
    cases hmark : m.mark t with
    | none => simp [Position.price, hmark] at hpos
    | some x =>
      rw [price_of_mark hmark] at hagainst
      refine ⟨x, s, rfl, mark_sane hmark, hs, ?_⟩
      rcases lt_or_gt_of_ne hopen with hshort | hlong
      · exact Or.inr ⟨hshort, by simpa [not_le.mpr hshort] using hagainst⟩
      · exact Or.inl ⟨hlong, by simpa [hlong.le] using hagainst⟩
  · intro h
    obtain ⟨x, s, hmark, hsane, hs, hside⟩ := h
    rw [price_of_mark hmark]
    rcases hside with ⟨hlong, hagainst⟩ | ⟨hshort, hagainst⟩
    · exact ⟨⟨pos_of_sane hsane, hlong.ne'⟩, s, hs, by simpa [hlong.le] using hagainst⟩
    · exact ⟨⟨pos_of_sane hsane, hshort.ne⟩, s, hs, by simpa [not_le.mpr hshort] using hagainst⟩

theorem checkStop_triggered_iff {price : PyFloat} {kind : StopKind} :
    (ExitPolicyEngine.checkStop m price false kind).1.triggered ↔
      ∃ s, m.stopPrice = some s ∧ price.atMost s ∧ 0 < m.quantity := by
  unfold ExitPolicyEngine.checkStop
  cases hs : m.stopPrice with
  | none => simp
  | some s =>
    by_cases h : price.atMost s ∧ 0 < m.quantity
    · simp [h]
    · simp [h]

theorem review_reasons_iff {cfg : ReviewSettings} {i : RiskInput} {reason : String} :
    reason ∈ (DynamicRiskRevalidator.evaluate cfg m i).reasons ↔
      ∃ rule ∈ riskRules cfg m i, rule.fires ∧ rule.reason = reason := by
  simp [DynamicRiskRevalidator.evaluate, and_assoc]

theorem stop_breached_iff {cfg : ReviewSettings} {i : RiskInput} :
    "stop_breached" ∈ (DynamicRiskRevalidator.evaluate cfg m i).reasons ↔
      ∃ s, m.stopPrice = some s ∧ s.truthy ∧ (m.reviewPrice i.price).truthy ∧
        (m.reviewPrice i.price).atMost s := by
  have hfires : "stop_breached" ∈ (DynamicRiskRevalidator.evaluate cfg m i).reasons ↔
      m.stopBreached i.price := by
    rw [review_reasons_iff]
    simp [riskRules]
  rw [hfires, Position.stopBreached, Option.any_eq_true]
  simp [and_assoc]

/-! ## What the later tests read -/

/-- The price the later tests read: the mark, or a number they are given that is none. -/
inductive Reading
  | mark (x : ℚ)
  | given (y : PyFloat)
  | nothing
  deriving DecidableEq

/-- The number that is given for a price and is neither usable nor zero. -/
def Tick.unusable (t : Tick) : Option PyFloat :=
  t.given.filter fun y => y.truthy && (usable y).isNone

def Position.reading (m : Position) (t : Tick) : Reading :=
  match t.unusable with
  | some y => .given y
  | none =>
    match m.mark t with
    | some x => .mark x
    | none => .nothing

def Position.later [Casing] (m : Position) (t : Tick) (s : PyFloat) : PyFloat :=
  if m.trails t then roundPrice m.entry else s

theorem laterStop_eq [Casing] : m.laterStop t = m.stopPrice.map (m.later t) := by
  unfold Position.laterStop Position.later
  cases hs : m.stopPrice with
  | none => simp [Position.trails, hs]
  | some s =>
    by_cases h : m.trails t
    · simp [h]
    · simp [h]

theorem not_trails_of_unmarked [Casing] (h : m.mark t = none) : m.trails t = false := by
  simp [Position.trails, Position.priced, h]

theorem given_of_usable (h : t.unusable = none) :
    t.given.filter PyFloat.truthy = none ∨
      ∃ x, t.given = some (.fin x) ∧ m.mark t = some x := by
  unfold Tick.unusable at h
  cases hgiven : t.given with
  | none => exact Or.inl rfl
  | some y =>
    by_cases htrue : y.truthy
    · rw [hgiven] at h
      simp only [Option.filter_some, htrue, Bool.true_and] at h
      cases husable : usable y with
      | none => simp [husable] at h
      | some x =>
        obtain ⟨rfl, -⟩ := usable_iff.mp husable
        exact Or.inr ⟨x, rfl, mark_of_given hgiven husable⟩
    · exact Or.inl (by simp [htrue])

theorem reads_mark [Casing] (h : m.reading t = .mark x) :
    m.mark t = some x ∧ (m.observed t).checkPrice t.given = .fin x ∧
      (m.observed t).reviewPrice t.given = .fin x := by
  unfold Position.reading at h
  split at h
  · cases h
  · rename_i hnone
    split at h
    · rename_i x' hmark
      cases h
      have hseen : (m.observed t).currentPrice = some (.fin x) := by simp [Position.observed, hmark]
      have htrue : (some (PyFloat.fin x)).filter PyFloat.truthy = some (.fin x) := by
        simp [truthy_of_sane (mark_sane hmark)]
      unfold Position.checkPrice Position.reviewPrice
      rw [hseen]
      rcases given_of_usable hnone with hmissing | ⟨q, hgiven, hq⟩
      · rw [PyFloat.firstTruthy_of_none _ hmissing, PyFloat.firstTruthy_of_none _ hmissing]
        exact ⟨hmark, PyFloat.firstTruthy_of_some _ htrue, PyFloat.firstTruthy_of_some _ htrue⟩
      · obtain rfl : x = q := Option.some.inj (hmark.symm.trans hq)
        rw [hgiven]
        exact ⟨hmark, PyFloat.firstTruthy_of_some _ htrue, PyFloat.firstTruthy_of_some _ htrue⟩
    · cases h

theorem reads_given [Casing] (h : m.reading t = .given y) :
    y.truthy ∧ (m.observed t).checkPrice t.given = y ∧ (m.observed t).reviewPrice t.given = y := by
  unfold Position.reading at h
  split at h
  · rename_i y' hgiven
    cases h
    obtain ⟨hgiven, hbad⟩ := Option.filter_eq_some_iff.mp hgiven
    have htrue : y.truthy := ((Bool.and_eq_true _ _).mp hbad).1
    have hfirst : t.given.filter PyFloat.truthy = some y := by simp [hgiven, htrue]
    exact ⟨htrue, PyFloat.firstTruthy_of_some _ hfirst, PyFloat.firstTruthy_of_some _ hfirst⟩
  · split at h
    · cases h
    · cases h

theorem reads_nothing [Casing] (h : m.reading t = .nothing) :
    m.mark t = none ∧
      (m.observed t).checkPrice t.given = PyFloat.firstTruthy [m.currentPrice] ∧
      (m.observed t).reviewPrice t.given =
        PyFloat.firstTruthy [m.currentPrice, m.averageEntryPrice] := by
  unfold Position.reading at h
  split at h
  · cases h
  · rename_i hnone
    split at h
    · cases h
    · rename_i hmark
      have hseen : (m.observed t).currentPrice = m.currentPrice := by
        simp [Position.observed, hmark]
      have hentry : (m.observed t).averageEntryPrice = m.averageEntryPrice := rfl
      unfold Position.checkPrice Position.reviewPrice
      rw [hseen, hentry]
      rcases given_of_usable hnone with hmissing | ⟨q, -, hq⟩
      · rw [PyFloat.firstTruthy_of_none _ hmissing, PyFloat.firstTruthy_of_none _ hmissing]
        exact ⟨hmark, rfl, rfl⟩
      · rw [hmark] at hq
        cases hq

end Tests

/-! ## When the tests agree -/

section Agreement

variable {m : Position} {t : Tick} {x : ℚ} {y s : PyFloat}

def Position.MarkAtMost (m : Position) (t : Tick) (s : PyFloat) : Prop :=
  ∃ x, m.mark t = some x ∧ (PyFloat.fin x).atMost s

def Position.MarkAtLeast (m : Position) (t : Tick) (s : PyFloat) : Prop :=
  ∃ x, m.mark t = some x ∧ s.atMost (.fin x)

/-- The tests agree on a stop. At a mark, a long's tests do unless the trail carries the stop over the
    mark, and a short's only where the stop is no number. A number that is given and is no price has to
    lie where the mark does, as seen from a long's stop, and above a short's. Without a mark, what is
    stored has to lie above the stop. -/
def Position.AgreesOn [Casing] (m : Position) (t : Tick) (s : PyFloat) : Prop :=
  match m.reading t with
  | .mark x =>
    if 0 < m.quantity then
      m.trails t → ((PyFloat.fin x).atMost s ↔ (PyFloat.fin x).atMost (roundPrice m.entry))
    else s = .nan
  | .given y =>
    if 0 < m.quantity then
      (m.MarkAtMost t s ↔ y.atMost (m.later t s)) ∧ (y.atMost (m.later t s) → (m.later t s).truthy)
    else ¬ m.MarkAtLeast t s ∧ ¬ (y.atMost (m.later t s) ∧ (m.later t s).truthy)
  | .nothing =>
    let stored := PyFloat.firstTruthy [m.currentPrice, m.averageEntryPrice]
    ¬ (stored.atMost s ∧ stored.truthy ∧ s.truthy) ∧
      (0 < m.quantity → ¬ (PyFloat.firstTruthy [m.currentPrice]).atMost s)

structure StopTests.Agree (tests : StopTests) (hit : Prop) : Prop where
  monitor : tests.monitor ↔ hit
  stop : tests.stop.triggered ↔ hit
  risk : "stop_breached" ∈ tests.risk.reasons ↔ hit

structure Position.LaterAgree [Casing] (m : Position) (t : Tick) (s : PyFloat) : Prop where
  stop : ((m.observed t).checkPrice t.given).atMost (m.later t s) ∧ 0 < m.quantity ↔ m.Hit t
  risk : (m.later t s).truthy ∧ ((m.observed t).reviewPrice t.given).truthy ∧
    ((m.observed t).reviewPrice t.given).atMost (m.later t s) ↔ m.Hit t

theorem hit_long (hs : m.stopPrice = some s) (hlong : 0 < m.quantity) :
    m.Hit t ↔ m.MarkAtMost t s := by
  constructor
  · intro h
    obtain ⟨x, s', hmark, -, hs', ⟨-, hat⟩ | ⟨hshort, -⟩⟩ := h
    · cases hs.symm.trans hs'
      exact ⟨x, hmark, hat⟩
    · exact absurd hlong hshort.not_gt
  · intro h
    obtain ⟨x, hmark, hat⟩ := h
    exact ⟨x, s, hmark, mark_sane hmark, hs, Or.inl ⟨hlong, hat⟩⟩

theorem hit_short (hs : m.stopPrice = some s) (hshort : m.quantity < 0) :
    m.Hit t ↔ m.MarkAtLeast t s := by
  constructor
  · intro h
    obtain ⟨x, s', hmark, -, hs', ⟨hlong, -⟩ | ⟨-, hat⟩⟩ := h
    · exact absurd hlong hshort.not_gt
    · cases hs.symm.trans hs'
      exact ⟨x, hmark, hat⟩
  · intro h
    obtain ⟨x, hmark, hat⟩ := h
    exact ⟨x, s, hmark, mark_sane hmark, hs, Or.inr ⟨hshort, hat⟩⟩

variable [Casing]

theorem atMost_of_lock {lock : PyFloat} (hshort : m.longSide = false) (hlock : m.lock = some lock)
    (h : (PyFloat.fin x).atMost lock) : (PyFloat.fin x).atMost (roundPrice m.entry) := by
  unfold Position.lock at hlock
  split at hlock
  · rename_i hentry
    unfold lockLevel at hlock
    split at hlock
    · cases hlock
    · obtain ⟨tp, -, hlevel⟩ := Option.bind_eq_some_iff.mp hlock
      split at hlevel
      · cases hlevel
      · rename_i hside
        rw [hshort] at hside
        obtain rfl := Option.some.inj hlevel
        cases hkind : m.entry with
        | fin e =>
          rw [hkind] at h hside
          cases tp with
          | fin q =>
            have hgain : q - e ≤ 0 := by simpa [PyFloat.gt] using hside
            have hle : roundTo 4 (e + (q - e) * (1 / 2)) ≤ roundTo 4 e := roundTo_mono 4 (by linarith)
            have hx : x ≤ roundTo 4 (e + (q - e) * (1 / 2)) := by
              simpa [roundPrice, PyFloat.rounded, PyFloat.scale] using h
            simpa [roundPrice, PyFloat.rounded] using hx.trans hle
          | inf => simp [PyFloat.sub, PyFloat.neg, PyFloat.add, PyFloat.gt] at hside
          | negInf =>
            simp [PyFloat.sub, PyFloat.neg, PyFloat.add, PyFloat.scale, roundPrice, PyFloat.rounded,
              PyFloat.atMost] at h
          | nan =>
            simp [PyFloat.sub, PyFloat.add, PyFloat.scale, roundPrice, PyFloat.rounded] at h
        | inf => rfl
        | negInf =>
          rw [hkind] at hentry
          cases hentry
        | nan =>
          rw [hkind] at hentry
          cases hentry
  · cases hlock

theorem trailed_short (hshort : m.quantity < 0) (hmark : m.mark t = some x) (h : m.trails t) :
    (PyFloat.fin x).atMost (roundPrice m.entry) := by
  have hside : m.longSide = false := by simp [Position.longSide, hshort]
  unfold Position.trails at h
  simp only [Bool.and_eq_true] at h
  obtain ⟨lock, hlock, hreach⟩ := (Option.any_eq_true _ _).mp h.1.2
  rw [Position.reaches, hside, price_of_mark hmark] at hreach
  exact atMost_of_lock hside hlock (by simpa using hreach)

theorem laterAgree_short (hs : m.stopPrice = some s) (hshort : m.quantity < 0)
    (hread : m.reading t = .mark x) : m.LaterAgree t s ↔ s = .nan := by
  obtain ⟨hmark, hcheck, hreview⟩ := reads_mark hread
  have hpos := pos_of_sane (mark_sane hmark)
  constructor
  · intro hagree
    by_contra hnum
    have hquiet : ¬ m.Hit t := fun hhit => hshort.not_gt (hagree.stop.mpr hhit).2
    have hbelow : (PyFloat.fin x).atMost (m.later t s) := by
      unfold Position.later
      split
      · rename_i htrails
        exact trailed_short hshort hmark htrails
      · refine (PyFloat.atMost_total hnum (PyFloat.fin_ne_nan x)).resolve_left fun hat => hquiet ?_
        exact (hit_short hs hshort).mpr ⟨x, hmark, hat⟩
    apply hquiet
    apply hagree.risk.mp
    rw [hreview]
    exact ⟨PyFloat.truthy_of_pos_atMost hpos hbelow, truthy_of_sane (mark_sane hmark), hbelow⟩
  · rintro rfl
    have htrails : m.trails t = false := by
      simp [Position.trails, Position.longSide, hs, PyFloat.below]
    have hlater : m.later t .nan = .nan := by simp [Position.later, htrails]
    have hquiet : ¬ m.Hit t := by
      rw [hit_short hs hshort]
      rintro ⟨q, -, hat⟩
      simp at hat
    refine ⟨iff_of_false (fun h => ?_) hquiet, iff_of_false (fun h => ?_) hquiet⟩
    · exact hshort.not_gt h.2
    · simp [hlater] at h

theorem laterAgree_long (hs : m.stopPrice = some s) (hlong : 0 < m.quantity)
    (hread : m.reading t = .mark x) : m.LaterAgree t s ↔
      (m.trails t → ((PyFloat.fin x).atMost s ↔ (PyFloat.fin x).atMost (roundPrice m.entry))) := by
  obtain ⟨hmark, hcheck, hreview⟩ := reads_mark hread
  have hpos := pos_of_sane (mark_sane hmark)
  have hhit : m.Hit t ↔ (PyFloat.fin x).atMost s := by
    rw [hit_long hs hlong]
    exact ⟨fun ⟨q, hq, hat⟩ => (Option.some.inj (hmark.symm.trans hq)) ▸ hat, fun hat => ⟨x, hmark, hat⟩⟩
  have hsame : m.LaterAgree t s ↔
      ((PyFloat.fin x).atMost (m.later t s) ↔ (PyFloat.fin x).atMost s) := by
    constructor
    · intro hagree
      rw [← hhit, ← hagree.stop, hcheck]
      exact ⟨fun hat => ⟨hat, hlong⟩, And.left⟩
    · intro hiff
      refine ⟨?_, ?_⟩
      · rw [hhit, hcheck, ← hiff]
        exact ⟨And.left, fun hat => ⟨hat, hlong⟩⟩
      · rw [hhit, hreview, ← hiff]
        exact ⟨fun h => h.2.2, fun hat =>
          ⟨PyFloat.truthy_of_pos_atMost hpos hat, truthy_of_sane (mark_sane hmark), hat⟩⟩
  rw [hsame, Position.later]
  by_cases htrails : m.trails t
  · rw [if_pos htrails]
    exact ⟨fun h _ => h.symm, fun h => (h htrails).symm⟩
  · rw [if_neg htrails]
    exact ⟨fun _ h => absurd h htrails, fun _ => Iff.rfl⟩

theorem laterAgree_given (hopen : m.quantity ≠ 0) (hs : m.stopPrice = some s)
    (hread : m.reading t = .given y) : m.LaterAgree t s ↔
      if 0 < m.quantity then
        (m.MarkAtMost t s ↔ y.atMost (m.later t s)) ∧ (y.atMost (m.later t s) → (m.later t s).truthy)
      else ¬ m.MarkAtLeast t s ∧ ¬ (y.atMost (m.later t s) ∧ (m.later t s).truthy) := by
  obtain ⟨htrue, hcheck, hreview⟩ := reads_given hread
  rcases lt_or_gt_of_ne hopen with hshort | hlong
  · rw [if_neg hshort.not_gt, ← hit_short hs hshort]
    constructor
    · intro hagree
      have hquiet : ¬ m.Hit t := fun hhit => hshort.not_gt (hagree.stop.mpr hhit).2
      refine ⟨hquiet, fun hat => hquiet (hagree.risk.mp ?_)⟩
      rw [hreview]
      exact ⟨hat.2, htrue, hat.1⟩
    · intro h
      refine ⟨iff_of_false (fun hat => hshort.not_gt hat.2) h.1, iff_of_false (fun hat => h.2 ?_) h.1⟩
      rw [hreview] at hat
      exact ⟨hat.2.2, hat.1⟩
  · rw [if_pos hlong, ← hit_long hs hlong]
    constructor
    · intro hagree
      have hiff : m.Hit t ↔ y.atMost (m.later t s) := by
        rw [← hagree.stop, hcheck]
        exact ⟨And.left, fun hat => ⟨hat, hlong⟩⟩
      exact ⟨hiff, fun hat => (hagree.risk.mpr (hiff.mpr hat)).1⟩
    · intro h
      refine ⟨?_, ?_⟩
      · rw [h.1, hcheck]
        exact ⟨And.left, fun hat => ⟨hat, hlong⟩⟩
      · rw [h.1, hreview]
        exact ⟨fun hat => hat.2.2, fun hat => ⟨h.2 hat, htrue, hat⟩⟩

theorem laterAgree_nothing (hread : m.reading t = .nothing) : m.LaterAgree t s ↔
    let stored := PyFloat.firstTruthy [m.currentPrice, m.averageEntryPrice]
    ¬ (stored.atMost s ∧ stored.truthy ∧ s.truthy) ∧
      (0 < m.quantity → ¬ (PyFloat.firstTruthy [m.currentPrice]).atMost s) := by
  obtain ⟨hmark, hcheck, hreview⟩ := reads_nothing hread
  have hlater : m.later t s = s := by simp [Position.later, not_trails_of_unmarked hmark]
  have hquiet : ¬ m.Hit t := by
    intro h
    obtain ⟨x, -, hx, -⟩ := h
    rw [hmark] at hx
    cases hx
  constructor
  · intro hagree
    refine ⟨fun h => hquiet (hagree.risk.mp ?_), fun hlong hat => hquiet (hagree.stop.mp ?_)⟩
    · rw [hreview, hlater]
      exact ⟨h.2.2, h.2.1, h.1⟩
    · rw [hcheck, hlater]
      exact ⟨hat, hlong⟩
  · intro h
    refine ⟨iff_of_false (fun hat => ?_) hquiet, iff_of_false (fun hat => ?_) hquiet⟩
    · rw [hcheck, hlater] at hat
      exact h.2 hat.2 hat.1
    · rw [hreview, hlater] at hat
      exact h.1 ⟨hat.2.2, hat.2.1, hat.1⟩

theorem laterAgree_iff (hopen : m.quantity ≠ 0) (hs : m.stopPrice = some s) :
    m.LaterAgree t s ↔ m.AgreesOn t s := by
  unfold Position.AgreesOn
  split
  · rename_i x hread
    by_cases hlong : 0 < m.quantity
    · rw [if_pos hlong]
      exact laterAgree_long hs hlong hread
    · rw [if_neg hlong]
      exact laterAgree_short hs (lt_of_le_of_ne (not_lt.mp hlong) hopen) hread
  · rename_i y hread
    exact laterAgree_given hopen hs hread
  · rename_i hread
    exact laterAgree_nothing hread

theorem quantity_stampStop (hz : Option String) (atr : Option ℚ) (m : Position) :
    (stampHorizonStopIfMissing hz atr m).quantity = m.quantity := by
  unfold stampHorizonStopIfMissing
  dsimp only
  split
  · rfl
  · split
    · rfl
    · split
      · rfl
      · rfl

theorem quantity_stampTakeProfit (hz : Option String) (m : Position) :
    (stampHorizonTakeProfitIfMissing hz m).quantity = m.quantity := by
  unfold stampHorizonTakeProfitIfMissing
  dsimp only
  split
  · rfl
  · split
    · rfl
    · split
      · rfl
      · rfl

theorem quantity_stamped (i : PassInput) (m : Position) : (stamped i m).quantity = m.quantity := by
  rw [stamped, quantity_stampTakeProfit, quantity_stampStop]

/-- **The three tests of a pass agree exactly if they do on the stop of the lifecycle**, the stamped one
    where it had none. -/
theorem stopTests_agree_iff (cfg : ReviewSettings) (prices : Dict PyFloat) (i : PassInput)
    (hopen : m.quantity ≠ 0) :
    let lc := stamped i m
    let t := i.tick (Dict.get? prices lc.symbol)
    (stopTests cfg prices i m).Agree (lc.Hit t) ↔ ∀ s, lc.stopPrice = some s → lc.AgreesOn t s := by
  intro lc t
  have hopen' : lc.quantity ≠ 0 := (quantity_stamped i m).symm ▸ hopen
  have hmonitor : (stopTests cfg prices i m).monitor ↔ lc.Hit t := stopTriggered_iff
  have hstop : (stopTests cfg prices i m).stop.triggered ↔
      ∃ s, lc.laterStop t = some s ∧ ((lc.observed t).checkPrice t.given).atMost s ∧
        0 < lc.quantity := checkStop_triggered_iff
  have hrisk : "stop_breached" ∈ (stopTests cfg prices i m).risk.reasons ↔
      ∃ s, lc.laterStop t = some s ∧ s.truthy ∧ ((lc.observed t).reviewPrice t.given).truthy ∧
        ((lc.observed t).reviewPrice t.given).atMost s := stop_breached_iff
  rw [laterStop_eq] at hstop hrisk
  cases hs : lc.stopPrice with
  | none =>
    have hquiet : ¬ lc.Hit t := by
      intro h
      obtain ⟨x, s, -, -, hsome, -⟩ := h
      rw [hs] at hsome
      cases hsome
    rw [hs] at hstop hrisk
    refine iff_of_true ⟨hmonitor, ?_, ?_⟩ (fun s h => by cases h)
    · rw [hstop]
      exact iff_of_false (fun ⟨s, h, _⟩ => by cases h) hquiet
    · rw [hrisk]
      exact iff_of_false (fun ⟨s, h, _⟩ => by cases h) hquiet
  | some s =>
    rw [hs, Option.map_some] at hstop hrisk
    simp only [Option.some.injEq, exists_eq_left'] at hstop hrisk
    have hlater : (stopTests cfg prices i m).Agree (lc.Hit t) ↔ lc.LaterAgree t s :=
      ⟨fun h => ⟨hstop.symm.trans h.stop, hrisk.symm.trans h.risk⟩,
        fun h => ⟨hmonitor, hstop.trans h.stop, hrisk.trans h.risk⟩⟩
    rw [hlater, laterAgree_iff hopen' hs]
    simp

end Agreement

section Sample

attribute [local instance] asciiCasing

private def reviewSettings : ReviewSettings := { mockMonitorSettings with maxSectorPct := 30 }

private def flatDay : PassInput :=
  { equity := 100000, dailyPnlPct := 0, drawdownPct := 0, watchlistHorizon := none, atr := none
    histPeak := none, histTrough := none }

private def hundredBhp (quantity stop target : ℚ) : Position :=
  { symbol := "BHP", quantity := quantity, averageEntryPrice := some (.fin 100)
    currentPrice := some (.fin 100), stopPrice := some (.fin stop)
    takeProfitPrice := some (.fin target), protectionSubmitted := true, stopStatus := none
    invalidationState := "NOT_TRIGGERED", exitPolicy := ⟨"day", none, none⟩ }

/-- A long at 101 is held against its stop of 98 three times. -/
theorem stopTests_agree_bhp :
    let m := hundredBhp 100 98 103
    (stopTests reviewSettings [("BHP", .fin 101)] flatDay m).Agree
        ((stamped flatDay m).Hit (flatDay.tick (some (.fin 101)))) ↔
      ∀ s, (stamped flatDay m).stopPrice = some s →
        (stamped flatDay m).AgreesOn (flatDay.tick (some (.fin 101))) s :=
  stopTests_agree_iff reviewSettings [("BHP", .fin 101)] flatDay (by decide)

/-- **A short's stop is read as a long's, and an unset price sets off a long's.** At 100 the review closes
    a short whose stop is at 102; where no price is given but -1, a long with its stop at 98 gets a stop
    event and the monitor sees it at 100. -/
theorem stop_tests_apart :
    (let m := hundredBhp (-100) 102 97
     let tests := stopTests reviewSettings [("BHP", .fin 100)] flatDay m
     tests.monitor = false ∧ tests.stop.triggered = false ∧ tests.risk.reasons = ["stop_breached"] ∧
       ¬ tests.Agree ((stamped flatDay m).Hit (flatDay.tick (some (.fin 100))))) ∧
    (let m := hundredBhp 100 98 103
     let tests := stopTests reviewSettings [("BHP", .fin (-1))] flatDay m
     tests.monitor = false ∧ tests.stop.triggered = true ∧ tests.risk.reasons = ["stop_breached"] ∧
       tests.event = some ⟨.fixedPrice, .triggered, .fin 98, .fin (-1), []⟩ ∧
       ¬ tests.Agree ((stamped flatDay m).Hit (flatDay.tick (some (.fin (-1)))))) := by
  have apart : ∀ {tests : StopTests} {hit : Prop}, tests.monitor = false →
      tests.risk.reasons = ["stop_breached"] → ¬ tests.Agree hit := by
    intro tests hit hquiet hbreached hagree
    have hhit := hagree.risk.mp (by simp [hbreached])
    have hmonitor := hagree.monitor.mpr hhit
    rw [hquiet] at hmonitor
    cases hmonitor
  refine ⟨⟨by decide +kernel, by decide +kernel, by decide +kernel, ?_⟩,
    ⟨by decide +kernel, by decide +kernel, by decide +kernel, by decide +kernel, ?_⟩⟩
  · exact apart (by decide +kernel) (by decide +kernel)
  · exact apart (by decide +kernel) (by decide +kernel)

end Sample

end Floats

end Investor.Intraday
