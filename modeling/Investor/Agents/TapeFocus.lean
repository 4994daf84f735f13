import Investor.Agents.QuantStrategist
import Investor.Agents.SetupBudgets

/-!
# Three readers of one tape

A bar is judged three times by the rules of its book: when `tape_focus` picks the names of a
cycle, by the Quant agent, and when `drop_blocked_entries` looks at the agent's view before an
entry stands. The view has no open, no average and no RSI. A fall that bounces off one of these is
an entry to the agent and a falling knife to the gate (`HiddenBounce`), and on no other bar do the
two differ.
-/

namespace Investor.Agents

open Lib Schema Market Universe

/-! ## What the rules of a book come to -/

def tradesIntraday (h : UniverseHorizon) : Bool := h = .scalp || h = .day

section Rules

theorem horizonKey_value [Casing] (h : UniverseHorizon) : horizonKey h.value = h.value := by
  have hne : h.value ≠ "" := by
    cases h <;> decide
  unfold horizonKey
  rw [if_neg hne, lower_value]

theorem structure_isNone_iff [Casing] (h : UniverseHorizon) (t : Tape) :
    structureAllowsEntry h.value t = none ↔
      t.liquidity ≠ .stressed ∧ t.volatility ≠ .extreme ∧
      ¬ (h = .scalp ∧ t.minutesToClose.any fun m => 0 ≤ m ∧ m < 45) ∧
      ¬ (tradesIntraday h ∧ t.rsi.any (85 < ·)) ∧
      ((t.accumulation ∧ h = .short) ∨
        ¬ (tradesIntraday h ∧ t.trend = .sideways) ∧
        classifyTiming t ≠ "falling_knife" ∧ classifyTiming t ≠ "blowoff" ∧
        ¬ (h = .short ∧ classifyTiming t = "bounce") ∧
        ¬ (t.momentum = .exhausted ∧ tradesIntraday h ∧
          classifyTiming t ≠ "bounce" ∧ classifyTiming t ≠ "dip_buy")) := by
  unfold structureAllowsEntry
  rw [playbookFor_value]
  generalize classifyTiming t = timing
  cases h <;>
    simp [playbook, UniverseHorizon.value, isIntraday, tradesIntraday] <;>
    split_ifs <;> simp_all

def plainReasons : List String :=
  ["liquidity_stressed", "vol_extreme", "too_close_to_flatten", "sideways_stand_down",
    "falling_knife", "exhausted", "short_oversold_bounce"]

theorem structure_reason [Casing] (h : UniverseHorizon) (t : Tape) {why : String}
    (hwhy : structureAllowsEntry h.value t = some why) :
    why ∈ plainReasons ∨ (tradesIntraday h ∧ t.rsi.any (85 < ·)) := by
  have hstressed : toString "liquidity_" ++ toString LiquidityState.stressed.value =
      "liquidity_stressed" := by
    decide
  unfold structureAllowsEntry at hwhy
  rw [playbookFor_value] at hwhy
  generalize classifyTiming t = timing at hwhy
  revert hwhy
  cases h <;>
    simp [playbook, UniverseHorizon.value, isIntraday, tradesIntraday, plainReasons] <;>
    split_ifs <;> simp_all

theorem momentumOf_exhausted_iff [Casing] (bar : BarSnapshot) (h : UniverseHorizon) :
    momentumOf bar h.value = .exhausted ↔
      bar.rsi14.any ((if tradesIntraday h then 80 else 70) ≤ ·) := by
  unfold momentumOf
  rw [horizonKey_value]
  cases h <;> simp [UniverseHorizon.value, tradesIntraday]
  case scalp =>
    cases bar.rsi14.any (80 ≤ ·) <;> simp
    split_ifs <;> simp
  case day =>
    cases bar.rsi14.any (80 ≤ ·) <;> simp
    split
    · split_ifs <;> simp
    · simp
  all_goals
    cases bar.rsi14 with
    | none => simp
    | some rsi =>
      simp
      split_ifs <;> simp_all

/-! ## The probability of a fall -/

theorem clampProbability_mono {p q : ℚ} (h : p ≤ q) : clampProbability p ≤ clampProbability q :=
  max_le_max_left _ (min_le_min_left _ (roundTo_mono 2 h))

theorem sum_adjustment (applies : Bool) (delta : ℚ) (note : String) :
    ((adjustment applies delta note).map (·.1)).sum = if applies then delta else 0 := by
  cases applies <;> simp [adjustment]

theorem adjustProbability_value [Casing] (base : ℚ) (h : UniverseHorizon) (liquidity : LiquidityState)
    (volatility : VolatilityState) (rsi volume avgVolume : Option ℚ) :
    (adjustProbability base h.value liquidity volatility rsi volume avgVolume).1 =
      clampProbability (base +
        ((if liquidity = .stressed then -(15 / 100) else 0) +
        (if volatility = .extreme then -(15 / 100) else 0) +
        (if volatility = .elevated ∧ h = .scalp then -(8 / 100) else 0) +
        (if rsi.any ((playbook h).preferRsiMax < ·) then -(5 / 100) else 0))) := by
  unfold adjustProbability
  rw [playbookFor_value]
  simp only [List.map_append, List.sum_append, sum_adjustment]
  cases h <;> simp [playbook, UniverseHorizon.value, add_assoc]

theorem entryProbabilityFloor_value [Casing] (h : UniverseHorizon) :
    entryProbabilityFloor h.value =
      match h with
      | .scalp => 6 / 10
      | .day => 5267 / 10000
      | .short => 5133 / 10000
      | .medium => 52 / 100 := by
  unfold entryProbabilityFloor requiredProbability
  rw [playbookFor_value]
  unfold policyFor
  rw [UniverseHorizon.ofValue_value]
  cases h <;> decide +kernel

theorem probabilityOf_down {trend : TrendState} (hdown : trend.isDown) (momentum : MomentumState) :
    probabilityOf trend momentum =
      match momentum with
      | .accelerating => 55 / 100
      | .steady => 45 / 100
      | .decelerating | .exhausted => 35 / 100 := by
  cases trend <;> simp [TrendState.isDown] at hdown <;> cases momentum <;> decide +kernel

theorem tapeProbability_value [Casing] (horizon : String) (t : Tape) :
    (tapeProbability horizon t).1 = clampProbability
      ((adjustProbability (probabilityOf t.trend t.momentum) horizon t.liquidity t.volatility t.rsi
        t.volume t.avgVolume).1 + (timingDelta (classifyTiming t)).1) := rfl

theorem knife_under_floor [Casing] (h : UniverseHorizon) (t : Tape) (hdown : t.trend.isDown)
    (hknife : classifyTiming t = "falling_knife") :
    (tapeProbability h.value t).1 < entryProbabilityFloor h.value := by
  have hbase : probabilityOf t.trend t.momentum ≤ 55 / 100 := by
    rw [probabilityOf_down hdown]
    cases t.momentum <;> norm_num
  have hadjusted : (adjustProbability (probabilityOf t.trend t.momentum) h.value t.liquidity
      t.volatility t.rsi t.volume t.avgVolume).1 ≤ clampProbability (55 / 100) := by
    rw [adjustProbability_value]
    refine clampProbability_mono ?_
    split_ifs <;> linarith
  have htop : (tapeProbability h.value t).1 ≤ 35 / 100 := by
    rw [tapeProbability_value, hknife]
    calc clampProbability _
        ≤ clampProbability (clampProbability (55 / 100) + (timingDelta "falling_knife").1) :=
          clampProbability_mono (add_le_add_left hadjusted _)
      _ = 35 / 100 := by decide +kernel
  refine htop.trans_lt ?_
  rw [entryProbabilityFloor_value]
  cases h <;> norm_num

/-- The momentum and the penalties under which a fall that bounces reaches the floor. -/
def clearsFloor (h : UniverseHorizon) (momentum : MomentumState) (volatility : VolatilityState)
    (rsi : Option ℚ) : Bool :=
  match momentum with
  | .accelerating => true
  | .steady =>
    h ≠ .scalp || (volatility ≠ .elevated && !rsi.any ((playbook h).preferRsiMax < ·))
  | .decelerating => h ≠ .scalp && !rsi.any ((playbook h).preferRsiMax < ·)
  | .exhausted => false

theorem bounce_clears_iff [Casing] (h : UniverseHorizon) (t : Tape) (hshort : h ≠ .short)
    (hdown : t.trend.isDown) (hbounce : classifyTiming t = "bounce")
    (hmomentum : t.momentum ≠ .exhausted)
    (hliquid : t.liquidity ≠ .stressed) (hcalm : t.volatility ≠ .extreme) :
    entryProbabilityFloor h.value ≤ (tapeProbability h.value t).1 ↔
      clearsFloor h t.momentum t.volatility t.rsi := by
  rw [tapeProbability_value, hbounce, adjustProbability_value, probabilityOf_down hdown,
    entryProbabilityFloor_value, if_neg hliquid, if_neg hcalm]
  unfold clearsFloor
  generalize t.rsi.any ((playbook h).preferRsiMax < ·) = hot
  revert hshort hmomentum hcalm
  generalize t.volatility = volatility
  generalize t.momentum = momentum
  cases h <;> cases momentum <;> cases volatility <;> cases hot <;> decide +kernel

/-! ## The notes of a view -/

/-- What `classify_timing` answers with. -/
def timings : List String :=
  ["accumulation", "blowoff", "bounce", "falling_knife", "dip_buy", "chase", "continuation"]

theorem classifyTiming_mem (t : Tape) : classifyTiming t ∈ timings := by
  unfold classifyTiming timings
  dsimp only
  split_ifs <;> simp

theorem classifyTiming_accumulation_iff (t : Tape) :
    classifyTiming t = "accumulation" ↔ t.accumulation = true := by
  unfold classifyTiming
  dsimp only
  split_ifs <;> simp_all

/-- What `detect_stealth_accumulation` answers with. -/
def stealthReasons : List String :=
  ["insufficient_history", "bad_price", "close_span", "wide_range", "sliding", "single_day_jump",
    "range_break", "no_volume", "news_spike", "volume_faded", "distribution", "stealth_split_buy"]

theorem detectStealth_reason (bars : List SessionBar) (avgVolume : Option ℚ) :
    (detectStealthAccumulation bars avgVolume).reason ∈ stealthReasons := by
  have hvolume : ∀ window reason, volumePersistence window avgVolume = some reason →
      reason ∈ stealthReasons := by
    intro window reason hreason
    unfold volumePersistence at hreason
    dsimp only at hreason
    split_ifs at hreason <;> cases hreason <;> decide
  unfold detectStealthAccumulation
  dsimp only
  split_ifs <;> try decide
  generalize hvol : volumePersistence _ avgVolume = why
  cases why with
  | none => decide
  | some reason => exact hvolume _ _ hvol

/-- A note in which `view_has_accumulation` sees nothing. -/
def Quiet (note : String) : Prop :=
  isAscii (strip note) ∧ hasPrefix (asciiLower (strip note)) "timing=accumulation" = false ∧
    hasPrefix (asciiLower (strip note)) "stealth=" = false

instance (note : String) : Decidable (Quiet note) := inferInstanceAs (Decidable (_ ∧ _ ∧ _))

theorem quiet_adjust [Casing] (base : ℚ) (h : UniverseHorizon) (liquidity : LiquidityState)
    (volatility : VolatilityState) (rsi volume avgVolume : Option ℚ) :
    ∀ note ∈ (adjustProbability base h.value liquidity volatility rsi volume avgVolume).2,
      Quiet note := by
  have hadjustment : ∀ applies delta, ∀ text ∈ ["liq_reject=-0.15", "vol_extreme=-0.15",
      "vol_elev_scalp=-0.08", "rsi_hot=-0.05", "vol_accel=+0.05"],
      ∀ note ∈ (adjustment applies delta text).map (·.2), Quiet note := by
    intro applies delta text htext note hnote
    have hquiet : ∀ text ∈ ["liq_reject=-0.15", "vol_extreme=-0.15", "vol_elev_scalp=-0.08",
        "rsi_hot=-0.05", "vol_accel=+0.05"], Quiet text := by
      decide
    cases applies
    · simp [adjustment] at hnote
    · simp [adjustment] at hnote
      exact hnote ▸ hquiet text htext
  have hbook : Quiet s!"book={h.value}" := by
    cases h <;> decide
  intro note hnote
  unfold adjustProbability at hnote
  rw [playbookFor_value] at hnote
  simp only [List.map_append, List.mem_append, List.mem_singleton] at hnote
  rcases hnote with rfl | (((h₁ | h₂) | h₃) | h₄) | h₅
  · exact hbook
  · exact hadjustment _ _ _ (by simp) note h₁
  · exact hadjustment _ _ _ (by simp) note h₂
  · exact hadjustment _ _ _ (by simp) note h₃
  · exact hadjustment _ _ _ (by simp) note h₄
  · exact hadjustment _ _ _ (by simp) note h₅

theorem quiet_timing : ∀ label ∈ timings.tail, Quiet s!"timing={label}" ∧
    Quiet s!"{label}={(timingDelta label).2}" := by
  decide

theorem quiet_structure : ∀ why ∈ "ok" :: plainReasons, Quiet s!"structure={why}" := by
  decide

theorem quiet_stealth : ∀ reason ∈ stealthReasons, Quiet s!"stealth_no={reason}" := by
  decide

theorem quiet_view [Casing] (x : QuantInput) (raw : BarSnapshot) (h : UniverseHorizon)
    (hhorizon : horizonForSymbol raw.symbol x.watchlist = h.value)
    (hplain : ¬ (tradesIntraday h ∧ (x.tape raw).rsi.any (85 < ·)))
    (hseen : (x.tape raw).accumulation = false) : ∀ note ∈ (x.view raw).notes, Quiet note := by
  have hacc : accumulates (enrichBarIndicators raw) (horizonForSymbol
      (enrichBarIndicators raw).symbol x.watchlist) = false := hseen
  have hlabel : classifyTiming (x.tape raw) ∈ timings.tail := by
    have hmem := classifyTiming_mem (x.tape raw)
    have hne := (not_congr (classifyTiming_accumulation_iff (x.tape raw))).mpr (by simp [hseen])
    exact (List.mem_cons.mp hmem).resolve_left hne
  have hwhy : (structureAllowsEntry h.value (x.tape raw)).getD "ok" ∈ "ok" :: plainReasons := by
    cases hreason : structureAllowsEntry h.value (x.tape raw) with
    | none => exact List.mem_cons_self
    | some why =>
      exact List.mem_cons_of_mem _ ((structure_reason h _ hreason).resolve_right hplain)
  intro note hnote
  unfold QuantInput.view at hnote
  dsimp only at hnote
  rw [hacc, if_neg Bool.false_ne_true, show (enrichBarIndicators raw).symbol = raw.symbol from rfl,
    hhorizon] at hnote
  rcases List.mem_append.mp hnote with hrest | hstealth
  · rcases List.mem_append.mp hrest with hrest | hstructure
    · rcases List.mem_append.mp hrest with horigin | hbook
      · have horigins : ∀ note ∈ ["python-indicators", "fallback-rules"], Quiet note := by
          decide
        refine horigins note ?_
        rw [List.mem_singleton.mp horigin]
        split_ifs <;> simp
      · rcases List.mem_append.mp hbook with hrest | hdelta
        · rcases List.mem_append.mp hrest with hadjusted | htiming
          · exact quiet_adjust _ h _ _ _ _ _ note hadjusted
          · rw [List.mem_singleton.mp htiming]
            exact (quiet_timing _ hlabel).1
        · split_ifs at hdelta
          · cases hdelta
          · rw [List.mem_singleton.mp hdelta]
            exact (quiet_timing _ hlabel).2
    · rw [List.mem_singleton.mp hstructure]
      exact quiet_structure _ hwhy
  · split_ifs at hstealth
    · rw [List.mem_singleton.mp hstealth]
      exact quiet_stealth _ (detectStealth_reason _ _)
    · cases hstealth

theorem view_has_accumulation [Casing] (x : QuantInput) (raw : BarSnapshot) (h : UniverseHorizon)
    (hhorizon : horizonForSymbol raw.symbol x.watchlist = h.value)
    (hplain : ¬ (tradesIntraday h ∧ (x.tape raw).rsi.any (85 < ·))) :
    viewHasAccumulation (x.view raw) = (x.tape raw).accumulation := by
  have htiming : (x.view raw).entryTiming = some (classifyTiming (x.tape raw)) := rfl
  have hlower : ∀ label ∈ timings, Casing.lower (strip label) = label := by
    have hascii : ∀ label ∈ timings, isAscii (strip label) ∧ asciiLower (strip label) = label := by
      decide
    intro label hlabel
    rw [Casing.lower_ascii _ (hascii label hlabel).1, (hascii label hlabel).2]
  unfold viewHasAccumulation
  rw [htiming, Option.getD_some, hlower _ (classifyTiming_mem _)]
  cases hseen : (x.tape raw).accumulation with
  | true => simp [(classifyTiming_accumulation_iff _).mpr hseen]
  | false =>
    have hlabel : classifyTiming (x.tape raw) ≠ "accumulation" := by
      rw [Ne, classifyTiming_accumulation_iff, hseen]
      decide
    simp [hlabel]
    intro note hnote
    obtain ⟨hascii, htiming, hstealth⟩ := quiet_view x raw h hhorizon hplain hseen note hnote
    rw [Casing.lower_ascii _ hascii]
    exact ⟨htiming, hstealth⟩

theorem shouldPropose_iff [Casing] (h : UniverseHorizon) (probability : ℚ) (t : Tape)
    (regime : MarketRegime) :
    shouldProposeEntry h.value probability t regime = true ↔
      entryProbabilityFloor h.value ≤ probability ∧ structureAllowsEntry h.value t = none ∧
        regime ∈ (playbook h).newOnlyRegimes := by
  unfold shouldProposeEntry
  rw [playbookFor_value]
  simp [and_assoc]

end Rules

/-! ## The three readers -/

section Readers

section

variable [Casing]

/-- What `should_propose_entry` says of a bar with all of its columns. -/
def QuantInput.acceptsBar (x : QuantInput) (raw : BarSnapshot) (regime : MarketRegime) : Bool :=
  let horizon := horizonForSymbol raw.symbol x.watchlist
  shouldProposeEntry horizon (tapeProbability horizon (x.tape raw)).1 (x.tape raw) regime

/-- `_bar`: a row as a bar. The history of its sessions is not carried over. -/
def focusBar (raw : BarSnapshot) : Option BarSnapshot :=
  let symbol := strip (Casing.upper raw.symbol)
  if raw.last ≤ 0 ∨ symbol = "" then none else some { raw with symbol, sessionHistory := [] }

/-- `entry_score`. -/
def entryScore (raw : BarSnapshot) (vix : Option ℚ) (horizon : String) (regime : MarketRegime)
    (minutesToClose : Option ℚ) : Bool × ℚ :=
  match focusBar raw with
  | none => (false, 0)
  | some bar =>
    let t := barTape bar horizon vix minutesToClose false
    let probability := (tapeProbability horizon t).1
    (shouldProposeEntry horizon probability t regime, probability)

/-- The entries of the bar's symbol stand behind the gate just when the bar is accepted. The view is
    the one the agent makes of the bar, the closes of the symbol block nothing, and there is a stop. -/
def GateAgrees (x : QuantInput) (raw : BarSnapshot) (regime : MarketRegime) : Prop :=
  ∀ d views ledger, ∀ plan ∈ d.symbolActions,
    plan.action.isBuyEntry = true → Casing.upper plan.symbol = Casing.upper raw.symbol →
    Dict.get? (bySymbol (·.symbol) views) (Casing.upper raw.symbol) = some (x.view raw) →
    entryBlockReason ((Dict.get? ledger (Casing.upper raw.symbol)).getD []) = none →
    (plan.stopLoss.isSome ∨ (x.view raw).stopOrInvalidation.isSome) →
    (plan ∈ (dropBlockedEntries d views x.watchlist regime x.minutesToClose ledger).symbolActions ↔
      x.acceptsBar raw regime = true)

/-- The focus scores the row as a setup just when the bar is accepted. -/
def FocusAgrees (x : QuantInput) (raw : BarSnapshot) (rowVix : Option ℚ) (regime : MarketRegime) :
    Prop :=
  (entryScore raw rowVix (horizonForSymbol raw.symbol x.watchlist) regime x.minutesToClose).1 =
    x.acceptsBar raw regime

def RulesAgree (x : QuantInput) (raw : BarSnapshot) (rowVix : Option ℚ) (regime : MarketRegime) :
    Prop :=
  GateAgrees x raw regime ∧ FocusAgrees x raw rowVix regime

/-- A fall is a bounce to one who sees the RSI, the range and the average. -/
def bouncesOnBar (bar : BarSnapshot) : Bool :=
  bar.rsi14.any (· ≤ 40) || (rangeLoc (some bar.last) bar.high bar.low).any (· ≤ 35 / 100) ||
    bar.sma20.any (· ≤ bar.last)

def zoneNearLow (h : UniverseHorizon) (bar : BarSnapshot) : Bool :=
  let zone := zoneAround bar.last (playbook h).entryZonePct
  (rangeLoc (some ((zone.min + zone.max) / 2)) bar.high bar.low).any (· ≤ 35 / 100)

/-- A fall that bounces for a reason the view does not carry, on a bar the book would enter. -/
structure HiddenBounce (x : QuantInput) (raw : BarSnapshot) (regime : MarketRegime)
    (h : UniverseHorizon) : Prop where
  named : Casing.upper raw.symbol ≠ ""
  horizon : horizonForSymbol raw.symbol x.watchlist = h.value
  notShort : h ≠ .short
  regime : regime ∈ (playbook h).newOnlyRegimes
  liquid : liquidityOf (enrichBarIndicators raw) ≠ .stressed
  calm : volatilityOf (enrichBarIndicators raw) x.vix ≠ .extreme
  inTime : ¬ (h = .scalp ∧ x.minutesToClose.any fun m => 0 ≤ m ∧ m < 45)
  falling : (trendOf (enrichBarIndicators raw) h.value).isDown
  clears : clearsFloor h (momentumOf (enrichBarIndicators raw) h.value)
    (volatilityOf (enrichBarIndicators raw) x.vix) (enrichBarIndicators raw).rsi14
  bounces : bouncesOnBar (enrichBarIndicators raw)
  hidden : zoneNearLow h (enrichBarIndicators raw) = false

/-- The focus can use the row, and the history that it leaves behind adds nothing to it: no RSI, no
    average, no trend and no split buying. -/
structure SameReading (x : QuantInput) (raw : BarSnapshot) (rowVix : Option ℚ) : Prop where
  priced : 0 < raw.last
  named : strip (Casing.upper raw.symbol) ≠ ""
  rsi : (enrichBarIndicators raw).rsi14 = raw.rsi14
  average : (enrichBarIndicators raw).sma20 = raw.sma20
  trend : trendOf { raw with sessionHistory := [] } (horizonForSymbol raw.symbol x.watchlist) =
    trendOf (enrichBarIndicators raw) (horizonForSymbol raw.symbol x.watchlist)
  volatility : volatilityOf raw rowVix = volatilityOf raw x.vix
  alone : accumulates (enrichBarIndicators raw) (horizonForSymbol raw.symbol x.watchlist) = false

end

/-! ## Timing, on the bar and on the view -/

variable {x : QuantInput} {raw : BarSnapshot} {regime : MarketRegime} {h : UniverseHorizon}

theorem tape_eq [Casing] (hhorizon : horizonForSymbol raw.symbol x.watchlist = h.value) :
    x.tape raw = barTape (enrichBarIndicators raw) h.value x.vix x.minutesToClose
      (accumulates (enrichBarIndicators raw) h.value) := by
  rw [← hhorizon]
  rfl

theorem classifyTiming_down {t : Tape} (hacc : t.accumulation = false)
    (hmomentum : t.momentum ≠ .exhausted) (hdown : t.trend.isDown) :
    classifyTiming t =
      if t.rsi.any (· ≤ 40) || (rangeLoc t.last t.high t.low).any (· ≤ 35 / 100) ||
          t.last.any (fun px => t.sma20.any (· ≤ px)) then "bounce"
      else "falling_knife" := by
  unfold classifyTiming
  dsimp only
  rw [if_neg (by simp [hacc]), if_neg (by simp [hmomentum]), if_pos hdown]
  -- a price above the open counts near the low alone
  congr 1
  cases t.last with
  | none => rfl
  | some px =>
    cases (rangeLoc (some px) t.high t.low).any (· ≤ 35 / 100) <;> simp

theorem classifyTiming_rise {t : Tape} (hacc : t.accumulation = false)
    (hmomentum : t.momentum ≠ .exhausted) (hdown : t.trend.isDown = false) :
    classifyTiming t ∈ ["dip_buy", "chase", "continuation"] := by
  unfold classifyTiming
  dsimp only
  rw [if_neg (by simp [hacc]), if_neg (by simp [hmomentum]), if_neg (by simp [hdown])]
  split_ifs <;> simp

theorem classifyTiming_exhausted {t : Tape} (hacc : t.accumulation = false)
    (hmomentum : t.momentum = .exhausted) (hrsi : t.rsi.all (70 ≤ ·)) :
    classifyTiming t = "blowoff" := by
  unfold classifyTiming
  simp [hacc, hmomentum, hrsi]

variable [Casing]

/-- The tape the gate sees: the states, the range, and the middle of the zone. -/
def QuantInput.seen (x : QuantInput) (raw : BarSnapshot) : Tape :=
  tapeFromView (x.view raw) x.minutesToClose

theorem seen_eq : x.seen raw =
    { x.tape raw with
      rsi := none, volume := none, avgVolume := none, opening := none, sma20 := none
      last := (x.view raw).entryZone.map fun zone => (zone.min + zone.max) / 2
      accumulation := viewHasAccumulation (x.view raw) } := rfl

theorem tape_exhausted_iff (hhorizon : horizonForSymbol raw.symbol x.watchlist = h.value) :
    (x.tape raw).momentum = .exhausted ↔
      (x.tape raw).rsi.any ((if tradesIntraday h then 80 else 70) ≤ ·) := by
  rw [tape_eq hhorizon]
  exact momentumOf_exhausted_iff _ h

theorem short_of_accumulation (hhorizon : horizonForSymbol raw.symbol x.watchlist = h.value)
    (hacc : (x.tape raw).accumulation = true) : h = .short := by
  rw [tape_eq hhorizon] at hacc
  unfold barTape accumulates at hacc
  simp only [Bool.and_eq_true, decide_eq_true_eq] at hacc
  cases h
  case short => rfl
  all_goals exact absurd hacc.1 (by decide)

theorem zone_of_refused (hhorizon : horizonForSymbol raw.symbol x.watchlist = h.value)
    (hplain : ¬ (tradesIntraday h ∧ (x.tape raw).rsi.any (85 < ·)))
    (hrefused : structureAllowsEntry h.value (x.tape raw) ≠ none) :
    (x.view raw).entryZone = none := by
  obtain ⟨why, hwhy⟩ := Option.ne_none_iff_exists'.mp hrefused
  have hhard : ∀ why ∈ plainReasons, hardNoZone why = true := by
    decide
  have hmem := (structure_reason h _ hwhy).resolve_right hplain
  unfold QuantInput.view
  dsimp only
  rw [show (enrichBarIndicators raw).symbol = raw.symbol from rfl, hhorizon, hwhy, Option.getD_some,
    if_pos (hhard why hmem)]

theorem zone_of_accepted (hhorizon : horizonForSymbol raw.symbol x.watchlist = h.value)
    (haccepted : structureAllowsEntry h.value (x.tape raw) = none) :
    (x.view raw).entryZone = some (zoneAround raw.last (playbook h).entryZonePct) := by
  unfold QuantInput.view
  dsimp only
  rw [show (enrichBarIndicators raw).symbol = raw.symbol from rfl, hhorizon, haccepted,
    Option.getD_none, if_neg (by decide), playbookFor_value]
  rfl

theorem not_extreme_of_calm (hhorizon : horizonForSymbol raw.symbol x.watchlist = h.value)
    (hmomentum : (x.tape raw).momentum ≠ .exhausted) :
    ¬ (tradesIntraday h ∧ (x.tape raw).rsi.any (85 < ·)) := by
  rw [Ne, tape_exhausted_iff hhorizon] at hmomentum
  rintro ⟨hintraday, hrsi⟩
  rw [if_pos hintraday] at hmomentum
  cases hvalue : (x.tape raw).rsi with
  | none =>
    rw [hvalue] at hrsi
    cases hrsi
  | some rsi =>
    rw [hvalue] at hrsi hmomentum
    simp at hrsi hmomentum
    linarith

theorem seen_accumulation (hhorizon : horizonForSymbol raw.symbol x.watchlist = h.value)
    (hplain : ¬ (tradesIntraday h ∧ (x.tape raw).rsi.any (85 < ·))) :
    (x.seen raw).accumulation = (x.tape raw).accumulation :=
  view_has_accumulation x raw h hhorizon hplain

theorem seen_of_accumulation (hhorizon : horizonForSymbol raw.symbol x.watchlist = h.value)
    (hacc : (x.tape raw).accumulation = true) :
    structureAllowsEntry h.value (x.seen raw) = none ↔
      structureAllowsEntry h.value (x.tape raw) = none := by
  have hshort := short_of_accumulation hhorizon hacc
  have hplain : ¬ (tradesIntraday h ∧ (x.tape raw).rsi.any (85 < ·)) := by
    rw [hshort]
    simp [tradesIntraday]
  have hseen := (seen_accumulation hhorizon hplain).trans hacc
  rw [structure_isNone_iff, structure_isNone_iff, hseen, hacc, seen_eq]
  simp [hshort, tradesIntraday]

theorem refused_of_exhausted (hhorizon : horizonForSymbol raw.symbol x.watchlist = h.value)
    (hacc : (x.tape raw).accumulation = false) (hmomentum : (x.tape raw).momentum = .exhausted) :
    structureAllowsEntry h.value (x.seen raw) ≠ none ∧
      structureAllowsEntry h.value (x.tape raw) ≠ none := by
  have hmomentum' : (x.seen raw).momentum = .exhausted := hmomentum
  constructor
  · rw [Ne, structure_isNone_iff]
    rintro ⟨-, -, -, -, htail⟩
    cases hseen : (x.seen raw).accumulation with
    | true =>
      -- a note may look like accumulation only where the bar is of a session's book
      have hintraday : tradesIntraday h = true := by
        by_contra hnot
        rw [seen_accumulation hhorizon fun hboth => hnot hboth.1, hacc] at hseen
        cases hseen
      have htiming := (classifyTiming_accumulation_iff (x.seen raw)).mpr hseen
      rcases htail with ⟨-, hshort⟩ | ⟨-, -, -, -, hexhausted⟩
      · rw [hshort] at hintraday
        cases hintraday
      · refine hexhausted ⟨hmomentum', hintraday, ?_, ?_⟩ <;> rw [htiming] <;> decide
    | false =>
      have htiming := classifyTiming_exhausted hseen hmomentum' rfl
      rcases htail with ⟨hshort, -⟩ | ⟨-, -, hblowoff, -⟩
      · rw [hseen] at hshort
        cases hshort
      · exact hblowoff htiming
  · have hrsi : (x.tape raw).rsi.all (70 ≤ ·) := by
      rw [tape_exhausted_iff hhorizon] at hmomentum
      cases hvalue : (x.tape raw).rsi with
      | none => rfl
      | some rsi =>
        rw [hvalue] at hmomentum
        simp at hmomentum ⊢
        split_ifs at hmomentum <;> linarith
    have htiming := classifyTiming_exhausted hacc hmomentum hrsi
    rw [Ne, structure_isNone_iff]
    rintro ⟨-, -, -, -, ⟨hshort, -⟩ | ⟨-, -, hblowoff, -⟩⟩
    · rw [hacc] at hshort
      cases hshort
    · exact hblowoff htiming

theorem structure_of_calm {t : Tape} (hacc : t.accumulation = false)
    (hmomentum : t.momentum ≠ .exhausted) (hplain : ¬ (tradesIntraday h ∧ t.rsi.any (85 < ·))) :
    structureAllowsEntry h.value t = none ↔
      (t.liquidity ≠ .stressed ∧ t.volatility ≠ .extreme ∧
        ¬ (h = .scalp ∧ t.minutesToClose.any fun m => 0 ≤ m ∧ m < 45) ∧
        ¬ (tradesIntraday h ∧ t.trend = .sideways)) ∧
      classifyTiming t ≠ "falling_knife" ∧ classifyTiming t ≠ "blowoff" ∧
        ¬ (h = .short ∧ classifyTiming t = "bounce") := by
  rw [structure_isNone_iff]
  constructor
  · rintro ⟨hliquid, hcalm, htime, -, ⟨hshort, -⟩ | ⟨hbox, hknife, hblowoff, hbounce, -⟩⟩
    · rw [hacc] at hshort
      cases hshort
    · exact ⟨⟨hliquid, hcalm, htime, hbox⟩, hknife, hblowoff, hbounce⟩
  · rintro ⟨⟨hliquid, hcalm, htime, hbox⟩, hknife, hblowoff, hbounce⟩
    exact ⟨hliquid, hcalm, htime, hplain, Or.inr ⟨hbox, hknife, hblowoff, hbounce,
      fun hexhausted => hmomentum hexhausted.1⟩⟩

theorem seen_of_calm (hhorizon : horizonForSymbol raw.symbol x.watchlist = h.value)
    (hacc : (x.tape raw).accumulation = false) (hmomentum : (x.tape raw).momentum ≠ .exhausted) :
    structureAllowsEntry h.value (x.seen raw) = none ↔
      ((x.tape raw).liquidity ≠ .stressed ∧ (x.tape raw).volatility ≠ .extreme ∧
        ¬ (h = .scalp ∧ (x.tape raw).minutesToClose.any fun m => 0 ≤ m ∧ m < 45) ∧
        ¬ (tradesIntraday h ∧ (x.tape raw).trend = .sideways)) ∧
      classifyTiming (x.seen raw) ≠ "falling_knife" ∧ classifyTiming (x.seen raw) ≠ "blowoff" ∧
        ¬ (h = .short ∧ classifyTiming (x.seen raw) = "bounce") :=
  structure_of_calm (t := x.seen raw)
    ((seen_accumulation hhorizon (not_extreme_of_calm hhorizon hmomentum)).trans hacc) hmomentum
    fun hextreme => Bool.false_ne_true hextreme.2

theorem seen_of_rise (hhorizon : horizonForSymbol raw.symbol x.watchlist = h.value)
    (hacc : (x.tape raw).accumulation = false) (hmomentum : (x.tape raw).momentum ≠ .exhausted)
    (hdown : (x.tape raw).trend.isDown = false) :
    structureAllowsEntry h.value (x.seen raw) = none ↔
      structureAllowsEntry h.value (x.tape raw) = none := by
  have hplain := not_extreme_of_calm hhorizon hmomentum
  have hseen : (x.seen raw).accumulation = false := (seen_accumulation hhorizon hplain).trans hacc
  have hrise : ∀ label ∈ ["dip_buy", "chase", "continuation"], label ≠ "falling_knife" ∧
      label ≠ "blowoff" ∧ label ≠ "bounce" := by
    decide
  have htiming := hrise _ (classifyTiming_rise hacc hmomentum hdown)
  have htiming' := hrise _ (classifyTiming_rise (t := x.seen raw) hseen hmomentum hdown)
  rw [seen_of_calm hhorizon hacc hmomentum, structure_of_calm hacc hmomentum hplain]
  simp [htiming, htiming']

theorem seen_of_bounce (hhorizon : horizonForSymbol raw.symbol x.watchlist = h.value)
    (hacc : (x.tape raw).accumulation = false) (hmomentum : (x.tape raw).momentum ≠ .exhausted)
    (hdown : (x.tape raw).trend.isDown) (hbounce : classifyTiming (x.tape raw) = "bounce") :
    structureAllowsEntry h.value (x.seen raw) = none ↔
      structureAllowsEntry h.value (x.tape raw) = none ∧
        zoneNearLow h (enrichBarIndicators raw) = true := by
  have hplain := not_extreme_of_calm hhorizon hmomentum
  have hseen : (x.seen raw).accumulation = false := (seen_accumulation hhorizon hplain).trans hacc
  have htiming : classifyTiming (x.seen raw) =
      if (rangeLoc (x.seen raw).last (x.tape raw).high (x.tape raw).low).any (· ≤ 35 / 100) then
        "bounce"
      else "falling_knife" := by
    rw [classifyTiming_down (t := x.seen raw) hseen hmomentum hdown, seen_eq]
    simp
  by_cases haccepted : structureAllowsEntry h.value (x.tape raw) = none
  · have hlast : (x.seen raw).last = some (((zoneAround raw.last (playbook h).entryZonePct).min +
        (zoneAround raw.last (playbook h).entryZonePct).max) / 2) := by
      rw [seen_eq, zone_of_accepted hhorizon haccepted]
      rfl
    have hnear : (rangeLoc (some (((zoneAround raw.last (playbook h).entryZonePct).min +
        (zoneAround raw.last (playbook h).entryZonePct).max) / 2)) (x.tape raw).high
        (x.tape raw).low).any (· ≤ 35 / 100) = zoneNearLow h (enrichBarIndicators raw) := rfl
    obtain ⟨hstates, -, -, hshort⟩ := (structure_of_calm hacc hmomentum hplain).mp haccepted
    rw [hbounce] at hshort
    rw [seen_of_calm hhorizon hacc hmomentum, htiming, hlast, hnear]
    cases zoneNearLow h (enrichBarIndicators raw) with
    | false => simp
    | true =>
      refine iff_of_true ⟨hstates, ?_⟩ ⟨haccepted, rfl⟩
      exact ⟨by decide, by decide, hshort⟩
  · have hlast : (x.seen raw).last = none := by
      rw [seen_eq, zone_of_refused hhorizon hplain haccepted]
      rfl
    rw [seen_of_calm hhorizon hacc hmomentum, htiming, hlast]
    simp [haccepted, rangeLoc]

theorem seen_structure_iff (hhorizon : horizonForSymbol raw.symbol x.watchlist = h.value)
    (hfloor : entryProbabilityFloor h.value ≤ (tapeProbability h.value (x.tape raw)).1) :
    structureAllowsEntry h.value (x.seen raw) = none ↔
      structureAllowsEntry h.value (x.tape raw) = none ∧
        ((x.tape raw).trend.isDown → h ≠ .short →
          zoneNearLow h (enrichBarIndicators raw) = true) := by
  cases hacc : (x.tape raw).accumulation with
  | true =>
    rw [seen_of_accumulation hhorizon hacc]
    simp [short_of_accumulation hhorizon hacc]
  | false =>
    by_cases hmomentum : (x.tape raw).momentum = .exhausted
    · obtain ⟨hseen, hbar⟩ := refused_of_exhausted hhorizon hacc hmomentum
      exact iff_of_false hseen fun hboth => hbar hboth.1
    cases hdown : (x.tape raw).trend.isDown with
    | false =>
      rw [seen_of_rise hhorizon hacc hmomentum hdown]
      simp
    | true =>
      have hbounce : classifyTiming (x.tape raw) = "bounce" := by
        have htiming := classifyTiming_down hacc hmomentum hdown
        split_ifs at htiming
        · exact htiming
        · exact absurd (knife_under_floor h _ hdown htiming) hfloor.not_gt
      rw [seen_of_bounce hhorizon hacc hmomentum hdown hbounce]
      refine and_congr_right fun haccepted => ?_
      have hshort : h ≠ .short := by
        intro hshort
        exact ((structure_of_calm hacc hmomentum (not_extreme_of_calm hhorizon hmomentum)).mp
          haccepted).2.2.2 ⟨hshort, hbounce⟩
      simp [hshort]

theorem seen_enters_iff (hhorizon : horizonForSymbol raw.symbol x.watchlist = h.value) :
    viewMayEnter h.value (x.view raw) regime x.minutesToClose = true ↔
      x.acceptsBar raw regime = true ∧ ((x.tape raw).trend.isDown → h ≠ .short →
        zoneNearLow h (enrichBarIndicators raw) = true) := by
  have hprobability : (x.view raw).probabilityEstimate =
      (tapeProbability h.value (x.tape raw)).1 := by
    rw [← hhorizon]
    rfl
  unfold viewMayEnter QuantInput.acceptsBar
  rw [hhorizon, shouldPropose_iff, shouldPropose_iff, hprobability]
  constructor
  · rintro ⟨hfloor, hseen, hregime⟩
    obtain ⟨hbar, hnear⟩ := (seen_structure_iff hhorizon hfloor).mp hseen
    exact ⟨⟨hfloor, hbar, hregime⟩, hnear⟩
  · rintro ⟨⟨hfloor, hbar, hregime⟩, hnear⟩
    exact ⟨hfloor, (seen_structure_iff hhorizon hfloor).mpr ⟨hbar, hnear⟩, hregime⟩

theorem hiddenBounce_iff (hnamed : Casing.upper raw.symbol ≠ "")
    (hhorizon : horizonForSymbol raw.symbol x.watchlist = h.value) :
    HiddenBounce x raw regime h ↔
      x.acceptsBar raw regime = true ∧ (x.tape raw).trend.isDown ∧ h ≠ .short ∧
        zoneNearLow h (enrichBarIndicators raw) = false := by
  have hfall : ∀ trend : TrendState, trend.isDown → trend ≠ .sideways := by
    rintro _ hdown rfl
    cases hdown
  have htape := tape_eq hhorizon
  have hbounces : (x.tape raw).accumulation = false → (x.tape raw).momentum ≠ .exhausted →
      (x.tape raw).trend.isDown → classifyTiming (x.tape raw) =
        if bouncesOnBar (enrichBarIndicators raw) then "bounce" else "falling_knife" :=
    classifyTiming_down
  unfold QuantInput.acceptsBar
  rw [hhorizon, shouldPropose_iff]
  constructor
  · intro hhidden
    have hacc : (x.tape raw).accumulation = false := by
      by_contra hacc
      exact hhidden.notShort (short_of_accumulation hhorizon (Bool.eq_true_of_not_eq_false hacc))
    have hclears : clearsFloor h (x.tape raw).momentum (x.tape raw).volatility (x.tape raw).rsi := by
      rw [htape]
      exact hhidden.clears
    have hmomentum : (x.tape raw).momentum ≠ .exhausted := by
      intro hexhausted
      rw [hexhausted] at hclears
      cases hclears
    have hdown : (x.tape raw).trend.isDown := by
      rw [htape]
      exact hhidden.falling
    have htiming := hbounces hacc hmomentum hdown
    rw [if_pos hhidden.bounces] at htiming
    have hfloor := (bounce_clears_iff h (x.tape raw) hhidden.notShort hdown htiming hmomentum
      hhidden.liquid hhidden.calm).mpr hclears
    have hstructure : structureAllowsEntry h.value (x.tape raw) = none := by
      rw [structure_of_calm hacc hmomentum (not_extreme_of_calm hhorizon hmomentum), htiming]
      exact ⟨⟨hhidden.liquid, hhidden.calm, hhidden.inTime, fun hbox => hfall _ hdown hbox.2⟩,
        by decide, by decide, fun hshort => hhidden.notShort hshort.1⟩
    exact ⟨⟨hfloor, hstructure, hhidden.regime⟩, hdown, hhidden.notShort, hhidden.hidden⟩
  · rintro ⟨⟨hfloor, hstructure, hregime⟩, hdown, hshort, hnear⟩
    have hacc : (x.tape raw).accumulation = false := by
      by_contra hacc
      exact hshort (short_of_accumulation hhorizon (Bool.eq_true_of_not_eq_false hacc))
    have hmomentum : (x.tape raw).momentum ≠ .exhausted := by
      intro hexhausted
      exact (refused_of_exhausted hhorizon hacc hexhausted).2 hstructure
    have htiming := hbounces hacc hmomentum hdown
    split_ifs at htiming with hbounce
    · obtain ⟨⟨hliquid, hcalm, htime, -⟩, -⟩ := (structure_of_calm hacc hmomentum
        (not_extreme_of_calm hhorizon hmomentum)).mp hstructure
      have hclears := (bounce_clears_iff h (x.tape raw) hshort hdown htiming hmomentum hliquid
        hcalm).mp hfloor
      rw [htape] at hdown hclears
      exact ⟨hnamed, hhorizon, hshort, hregime, hliquid, hcalm, htime, hdown, hclears, hbounce, hnear⟩
    · exact absurd (knife_under_floor h _ hdown htiming) hfloor.not_gt

theorem gate_iff (hnamed : Casing.upper raw.symbol ≠ "")
    (hhorizon : horizonForSymbol raw.symbol x.watchlist = h.value) :
    viewMayEnter h.value (x.view raw) regime x.minutesToClose = true ↔
      x.acceptsBar raw regime = true ∧ ¬ HiddenBounce x raw regime h := by
  rw [seen_enters_iff hhorizon, hiddenBounce_iff hnamed hhorizon]
  refine and_congr_right fun haccepted => ?_
  cases zoneNearLow h (enrichBarIndicators raw) <;> simp [haccepted]

end Readers

/-! ## When the three agree -/

section Agreement

theorem named_of_bySymbol [Casing] {α : Type} {symbolOf : α → String} {xs : List α} {s : String}
    {v : α} (h : Dict.get? (bySymbol symbolOf xs) s = some v) : symbolOf v ≠ "" := by
  obtain ⟨w, hw, heq⟩ := List.mem_map.mp (Dict.mem_of_get?_ofPairs h)
  cases heq
  exact of_decide_eq_true (List.mem_filter.mp hw).2

variable [LowerCasing] {x : QuantInput} {raw : BarSnapshot} {rowVix : Option ℚ} {regime : MarketRegime}

theorem horizonForSymbol_book (symbol : String) (watchlist : List WatchRow) :
    (∃ h : UniverseHorizon, horizonForSymbol symbol watchlist = h.value) ∨
      playbookFor (horizonForSymbol symbol watchlist) = none := by
  have hstrip : Casing.lower (strip (horizonForSymbol symbol watchlist)) =
      horizonForSymbol symbol watchlist := by
    rcases horizonForSymbol_cases symbol watchlist with ⟨row, -, -, htext⟩ | ⟨h, hvalue⟩
    · rw [htext, LowerCasing.strip_lower_strip, Casing.lower_lower]
    · rw [hvalue, strip_value, lower_value]
  unfold playbookFor
  rw [hstrip]
  cases hbook : UniverseHorizon.ofValue (horizonForSymbol symbol watchlist) with
  | none => exact Or.inr rfl
  | some h =>
    left
    unfold UniverseHorizon.ofValue at hbook
    split_ifs at hbook with hscalp hday hshort hmedium
    · exact ⟨.scalp, hscalp⟩
    · exact ⟨.day, hday⟩
    · exact ⟨.short, hshort⟩
    · exact ⟨.medium, hmedium⟩

theorem dropReason_of_view {views : Dict SymbolQuantView} {ledger : Dict (List ℚ)}
    {plan : SymbolActionPlan} {watchlist : List WatchRow} {minutesToClose : Option ℚ}
    {view : SymbolQuantView} (hbuy : plan.action.isBuyEntry = true)
    (hsymbol : Casing.upper plan.symbol = Casing.upper raw.symbol)
    (hview : Dict.get? views (Casing.upper raw.symbol) = some view)
    (hledger : entryBlockReason ((Dict.get? ledger (Casing.upper raw.symbol)).getD []) = none)
    (hstop : plan.stopLoss.isSome ∨ view.stopOrInvalidation.isSome) :
    dropReason views watchlist regime minutesToClose ledger plan = none ↔
      viewMayEnter (horizonForSymbol raw.symbol watchlist) view regime minutesToClose = true := by
  have hstop' : plan.stopLoss.or view.stopOrInvalidation ≠ none := by
    rcases hstop with hstop | hstop
    · obtain ⟨stop, hstop⟩ := Option.isSome_iff_exists.mp hstop
      simp [hstop]
    · obtain ⟨stop, hstop⟩ := Option.isSome_iff_exists.mp hstop
      simp [hstop]
  unfold dropReason
  dsimp only
  rw [if_neg (by simp [hbuy]), hsymbol, hledger, hview, horizonForSymbol_upper, if_neg (by simp)]
  dsimp only
  rw [if_neg hstop']
  cases viewMayEnter (horizonForSymbol raw.symbol watchlist) view regime minutesToClose with
  | true => simp
  | false =>
    simp
    split_ifs <;> simp

theorem viewMayEnter_eq_iff (hnamed : Casing.upper raw.symbol ≠ "") :
    (viewMayEnter (horizonForSymbol raw.symbol x.watchlist) (x.view raw) regime x.minutesToClose =
        true ↔ x.acceptsBar raw regime = true) ↔ ∀ h, ¬ HiddenBounce x raw regime h := by
  rcases horizonForSymbol_book raw.symbol x.watchlist with ⟨h, hhorizon⟩ | hnone
  · rw [hhorizon, gate_iff hnamed hhorizon]
    constructor
    · intro hagree h' hhidden
      have hsame : h' = h := by
        have hvalue := congrArg UniverseHorizon.ofValue (hhidden.horizon.symm.trans hhorizon)
        rw [UniverseHorizon.ofValue_value, UniverseHorizon.ofValue_value] at hvalue
        exact Option.some.inj hvalue
      subst hsame
      exact (hagree.mpr ((hiddenBounce_iff hnamed hhorizon).mp hhidden).1).2 hhidden
    · intro hnot
      exact and_iff_left (hnot h)
  · refine iff_of_true ?_ fun h hhidden => ?_
    · unfold viewMayEnter QuantInput.acceptsBar shouldProposeEntry
      dsimp only
      rw [hnone]
    · rw [hhidden.horizon, playbookFor_value] at hnone
      cases hnone

/-- The gate agrees with the bar's rule exactly if no bounce is hidden. -/
theorem gateAgrees_iff : GateAgrees x raw regime ↔ ∀ h, ¬ HiddenBounce x raw regime h := by
  by_cases hnamed : Casing.upper raw.symbol = ""
  · refine iff_of_true ?_ fun h hhidden => hhidden.named hnamed
    intro d views ledger plan _ _ _ hview
    exact (named_of_bySymbol hview hnamed).elim
  · rw [← viewMayEnter_eq_iff hnamed]
    constructor
    · intro hagree
      have hbuy : (planOf raw.symbol .buy).action.isBuyEntry = true := rfl
      have hview : Dict.get? (bySymbol (·.symbol) [x.view raw]) (Casing.upper raw.symbol) =
          some (x.view raw) := by
        have hkey : (x.view raw).symbol = Casing.upper raw.symbol := rfl
        unfold bySymbol
        rw [Dict.get?_ofPairs]
        simp [hkey, hnamed]
      have hone := hagree (decisionOf .buy [planOf raw.symbol .buy]) [x.view raw] []
        (planOf raw.symbol .buy) (List.mem_singleton_self _) hbuy rfl hview rfl (Or.inl rfl)
      rw [dropBlocked_plans, List.mem_filter, Option.isNone_iff_eq_none,
        dropReason_of_view hbuy rfl hview rfl (Or.inl rfl)] at hone
      rw [← hone]
      exact (and_iff_right (List.mem_singleton_self _)).symm
    · intro hagree d views ledger plan hplan hbuy hsymbol hview hledger hstop
      rw [dropBlocked_plans, List.mem_filter, Option.isNone_iff_eq_none,
        dropReason_of_view hbuy hsymbol hview hledger hstop, hagree]
      exact and_iff_right hplan

theorem focusTape_eq (hsame : SameReading x raw rowVix) :
    ∃ bar, focusBar raw = some bar ∧ barTape bar (horizonForSymbol raw.symbol x.watchlist) rowVix
      x.minutesToClose false = x.tape raw := by
  refine ⟨{ raw with symbol := strip (Casing.upper raw.symbol), sessionHistory := [] }, ?_, ?_⟩
  · unfold focusBar
    dsimp only
    rw [if_neg (by simp [hsame.priced, hsame.named])]
  · have hmomentum : momentumOf (enrichBarIndicators raw) (horizonForSymbol raw.symbol x.watchlist) =
        momentumOf raw (horizonForSymbol raw.symbol x.watchlist) := by
      unfold momentumOf
      rw [hsame.rsi, hsame.average]
      rfl
    have htape : x.tape raw =
        { barTape (enrichBarIndicators raw) (horizonForSymbol raw.symbol x.watchlist) x.vix
            x.minutesToClose false with
          accumulation := accumulates (enrichBarIndicators raw)
            (horizonForSymbol raw.symbol x.watchlist) } := rfl
    rw [htape, hsame.alone]
    unfold barTape
    dsimp only
    rw [hmomentum, ← hsame.trend, hsame.rsi, hsame.average]
    have hvolatility : volatilityOf { raw with
        symbol := strip (Casing.upper raw.symbol), sessionHistory := [] } rowVix =
        volatilityOf (enrichBarIndicators raw) x.vix := hsame.volatility
    rw [hvolatility]
    rfl

theorem focusAgrees_of_sameReading (hsame : SameReading x raw rowVix) :
    FocusAgrees x raw rowVix regime := by
  obtain ⟨bar, hbar, htape⟩ := focusTape_eq hsame
  unfold FocusAgrees entryScore QuantInput.acceptsBar
  rw [hbar]
  dsimp only
  rw [htape]

/-- The focus, the agent and the gate agree on every bar that is no hidden bounce, where the focus
    reads the tape of the agent; on a hidden bounce they never do. -/
theorem rulesAgree_iff (x : QuantInput) (raw : BarSnapshot) (rowVix : Option ℚ)
    (regime : MarketRegime) :
    (RulesAgree x raw rowVix regime → ∀ h, ¬ HiddenBounce x raw regime h) ∧
      (SameReading x raw rowVix →
        (RulesAgree x raw rowVix regime ↔ ∀ h, ¬ HiddenBounce x raw regime h)) := by
  refine ⟨fun hagree => gateAgrees_iff.mp hagree.1, fun hsame => ?_⟩
  exact ⟨fun hagree => gateAgrees_iff.mp hagree.1,
    fun hnot => ⟨gateAgrees_iff.mpr hnot, focusAgrees_of_sameReading hsame⟩⟩

end Agreement

section SampleBounce

attribute [local instance] asciiLowerCasing

def metaBar : BarSnapshot :=
  { symbol := "META", last := 104, opening := some 105, high := some 110, low := some 100,
    volume := none, avgVolume20d := none, atr14 := none, rsi14 := none, sma20 := some 103,
    sma50 := none, sma200 := none, bid := none, ask := none, sessionHistory := [] }

def quietInput : QuantInput :=
  { watchlist := [], vix := none, minutesToClose := none, localPython := true }

/-- The bar is accepted, and the focus takes it, while the gate drops the entry. -/
theorem bounce_off_average_dropped :
    quietInput.acceptsBar metaBar .neutral = true ∧
    (entryScore metaBar none "day" .neutral none).1 = true ∧
    (dropBlockedEntries (decisionOf .buy [planOf "META" .buy]) [quietInput.view metaBar] [] .neutral
      none []).symbolActions = [] ∧
    ¬ RulesAgree quietInput metaBar none .neutral := by
  have haccepts : quietInput.acceptsBar metaBar .neutral = true := by
    decide +kernel
  have hdropped : (dropBlockedEntries (decisionOf .buy [planOf "META" .buy])
      [quietInput.view metaBar] [] .neutral none []).symbolActions = [] := by
    decide +kernel
  refine ⟨haccepts, by decide +kernel, hdropped, fun hagree => ?_⟩
  have hkept := (hagree.1 (decisionOf .buy [planOf "META" .buy]) [quietInput.view metaBar] []
    (planOf "META" .buy) (List.mem_singleton_self _) rfl rfl (by decide +kernel) rfl
    (Or.inl rfl)).mpr haccepts
  have hempty : (dropBlockedEntries (decisionOf .buy [planOf "META" .buy])
      [quietInput.view metaBar] quietInput.watchlist .neutral quietInput.minutesToClose
      []).symbolActions = [] := hdropped
  rw [hempty] at hkept
  cases hkept

/-- The same bar above its open is no fall, and the three agree on it. -/
theorem rising_bar_agreed :
    RulesAgree quietInput { metaBar with opening := some 103, last := 108 } none .neutral := by
  have hsame : SameReading quietInput { metaBar with opening := some 103, last := 108 } none :=
    { priced := by decide +kernel, named := by decide +kernel, rsi := by decide +kernel
      average := by decide +kernel, trend := by decide +kernel, volatility := by decide +kernel
      alone := by decide +kernel }
  refine ((rulesAgree_iff quietInput { metaBar with opening := some 103, last := 108 } none
    .neutral).2 hsame).mpr fun h hhidden => ?_
  have hfalling := hhidden.falling
  revert hfalling
  cases h <;> decide +kernel

end SampleBounce

end Investor.Agents
