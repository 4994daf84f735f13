import Investor.Execution.ExitBatch
import Investor.Execution.FirmExecution
import Investor.Risk.Sizing
import Mathlib.Data.Finset.Order

/-!
# Entries of symbols that keep losing

`materialize_cio_decision` drops the entries of symbols whose closed trades say no before it
validates a decision. Its set of entry actions is its own and has no `HEDGE`, which the validator
sizes and buys like any other entry: a hedge of a blocked symbol passes the filter.

Whether it can come to an order is a matter of the decision. It does not where the risk was not
approved or the decision takes no new risk, nor where some entry of it has no numeric stop or is
there twice, as the validator then withholds every entry. In every other case
there are an account and prices with which it does (`ledgerHonoured_iff`).
-/

namespace Investor.Execution

open Lib Schema Market Risk Universe Core

section Ledger

def ledgerBlocks (pnls : Dict (List ℚ)) (symbol : String) : Bool :=
  (entryBlockReason ((Dict.get? pnls symbol).getD [])).isSome

variable {pnls : Dict (List ℚ)} {p : SymbolActionPlan} {plans : List SymbolActionPlan}

section

variable [Casing]

/-- A validation the bridge comes to, at some time and with some settings, account and prices,
    when the closed trades are these. -/
def ComesTo (pnls : Dict (List ℚ)) (decision : CIODecision) (r : ExecutionValidationResult) :
    Prop :=
  ∃ (cfg : Settings) (feed : FirmFeed) (tick : Nat) (a : MaterializeArgs) (prices : Dict ℚ)
    (seen : List String) (now : Int), (∀ m, (feed.closePnls m).reply = .ok pnls) ∧
      validate (feed.validator cfg tick) (closedTradeFilter pnls decision)
        (a.validateArgs prices seen now) = .ok r

def LedgerHonoured (pnls : Dict (List ℚ)) (decision : CIODecision) : Prop :=
  ∀ r, ComesTo pnls decision r → ∀ i ∈ r.intents, i.isEntryIntent → ¬ ledgerBlocks pnls i.symbol

def entriesOf (plans : List SymbolActionPlan) : List (String × SymbolAction) :=
  (plans.filter (·.action.isEntry)).map fun p => (Casing.upper p.symbol, p.action)

/-- A hedge of a blocked symbol that may be bought: the decision takes risk, and each of its
    entries that the filter leaves has a numeric stop and is there once. -/
structure HedgeGoesThrough (pnls : Dict (List ℚ)) (decision : CIODecision) : Prop where
  approved : decision.riskApproval
  acts : ¬ (closedTradeFilter pnls decision).portfolioAction.isAnalysisOnly
  stopped : ∀ p ∈ (closedTradeFilter pnls decision).symbolActions, p.action.isEntry →
    p.stopLoss.isSome
  distinct : (entriesOf (closedTradeFilter pnls decision).symbolActions).Nodup
  hedge : ∃ p ∈ decision.symbolActions, p.action = .hedge ∧
    ledgerBlocks pnls (Casing.upper p.symbol)

/-! ## What the filter leaves -/

theorem mem_closedTradeFilter {d : CIODecision} :
    p ∈ (closedTradeFilter pnls d).symbolActions ↔
      p ∈ d.symbolActions ∧ ¬ closedTradeBlocks pnls p := by
  unfold closedTradeFilter
  split
  · simp
  · rename_i hnone
    simp only [List.any_eq_true, not_exists, not_and] at hnone
    exact ⟨fun hp => ⟨hp, hnone p hp⟩, fun h => h.1⟩

theorem hedge_of_blocked {d : CIODecision} (hp : p ∈ (closedTradeFilter pnls d).symbolActions)
    (hentry : p.action.isEntry) (hblocked : ledgerBlocks pnls (Casing.upper p.symbol)) :
    p.action = .hedge := by
  have hnot := (mem_closedTradeFilter.mp hp).2
  have hbuy : ¬ p.action.isBuyEntry := by
    intro hbuy
    exact hnot (Bool.and_eq_true_iff.mpr ⟨hbuy, hblocked⟩)
  cases hact : p.action <;> simp [hact, SymbolAction.isEntry, SymbolAction.isBuyEntry] at hentry hbuy ⊢

theorem hedge_passes_filter {d : CIODecision} (hp : p ∈ d.symbolActions)
    (hhedge : p.action = .hedge) : p ∈ (closedTradeFilter pnls d).symbolActions := by
  refine mem_closedTradeFilter.mpr ⟨hp, ?_⟩
  simp [closedTradeBlocks, hhedge, SymbolAction.isBuyEntry]

/-! ## What an entry that comes through says of the decision -/

section Through

variable {v : ExecutionValidator} {d : CIODecision} {a : ValidateArgs} {plan : SymbolActionPlan}
  {s : PlanScope} {seen : List String}

theorem nodup_entryKeys_iff : (entryKeys d a plans).Nodup ↔ (entriesOf plans).Nodup := by
  have hkeys : entryKeys d a plans =
      (entriesOf plans).map fun k => intentKey (keyScope d a) k.1 .buy k.2 := by
    rw [entriesOf, List.map_map]
    rfl
  rw [hkeys, List.nodup_map_iff]
  rintro ⟨sym, act⟩ ⟨sym', act'⟩ h
  obtain ⟨hsym, -, hact⟩ := intentKey_inj h
  exact Prod.ext hsym hact

theorem entryGate_eq_none_iff (hentry : plan.action.isEntry) : entryGate d plan a s = none ↔
    Casing.upper plan.symbol ∈ s.allowlist ∧ s.skipEntries = false ∧ d.riskApproval ∧
      (plan.stopLoss.isSome ∨ strip plan.invalidation ≠ "") ∧
      horizonCapViolation (Casing.upper plan.symbol) a.horizonBySymbol s.heldSymbols = none := by
  unfold entryGate
  dsimp only
  split_ifs with hexit hallowed hskip hrisk hstop
  · simp [hentry] at hexit
  · exact iff_of_false (by simp) fun h => by simp [hskip] at h
  · exact iff_of_false (by simp) fun h => by simp [h.2.2.1] at hrisk
  · refine iff_of_false (by simp) fun h => ?_
    obtain ⟨hnone, hempty⟩ := Bool.and_eq_true_iff.mp hstop
    rcases h.2.2.2.1 with h | h
    · simp [Option.isNone_iff_eq_none.mp hnone] at h
    · exact h (by simpa using hempty)
  · have hstop' : plan.stopLoss.isSome ∨ strip plan.invalidation ≠ "" := by
      cases hs : plan.stopLoss with
      | none => exact Or.inr (by simpa [hs] using hstop)
      | some stop => exact Or.inl rfl
    rw [Option.map_eq_none_iff]
    simp only [Bool.not_eq_true, Bool.not_eq_false'] at hallowed hskip hrisk
    simp only [hallowed, hskip, hrisk, hstop', true_and]
  · exact iff_of_false (by simp) fun h => hallowed h.1

theorem stop_of_not_refused (hentry : plan.action.isEntry) (hskip : s.skipEntries = false)
    (h : ¬ refuses (validatePlan v d plan a s seen)) : plan.stopLoss.isSome := by
  rcases validatePlan_entry (v := v) (d := d) (a := a) (s := s) seen hentry with
    hrefused | ⟨hskipped, -⟩ | ⟨-, -, i, hval, -⟩
  · exact absurd hrefused h
  · rw [hskip] at hskipped
    cases hskipped
  · obtain ⟨price, -, hsize⟩ := (issued_of_validatePlan hval).sized
    obtain ⟨stop, req, inp, pre, hstop, -⟩ := entrySize_ok (planSize_entry hentry hsize).2
    simp [hstop]

end Through

theorem hedgeGoesThrough_of_intent {decision : CIODecision} {v : ExecutionValidator}
    {a : ValidateArgs} {r : ExecutionValidationResult}
    (h : validate v (closedTradeFilter pnls decision) a = .ok r) {i : ValidatedOrderIntent}
    (hi : i ∈ r.intents) (hentry : i.isEntryIntent) (hblocked : ledgerBlocks pnls i.symbol) :
    HedgeGoesThrough pnls decision := by
  have hreleased : BatchReleased v (closedTradeFilter pnls decision) a := by
    by_contra hwithheld
    rw [validate_withheld hwithheld h] at hi
    cases hi
  obtain ⟨p, hp, -, seen, -, hissued⟩ := issued_of_validate h hi
  have hact := hissued.isEntryIntent_iff.mp hentry
  obtain ⟨-, hskip, happroved, -⟩ := (entryGate_eq_none_iff hact).mp hissued.gate
  have hskips : skipEntries (closedTradeFilter pnls decision) a = false := hskip
  obtain ⟨-, hacts⟩ := Bool.or_eq_false_iff.mp hskips
  rw [hissued.symbol] at hblocked
  refine ⟨riskApproval_closedTradeFilter ▸ happroved, by simp [hacts], ?_,
    nodup_entryKeys_iff.mp (hreleased.keys hskips),
    p, (mem_closedTradeFilter.mp hp).1, hedge_of_blocked hp hact hblocked, hblocked⟩
  intro q hq hqentry
  exact stop_of_not_refused hqentry hskips (hreleased.entries q hq hqentry)

end

/-! ## An account with room -/

def wideLimits : RiskLimits :=
  { defaultLimits with
    maxPositionPct := 100, maxSectorPct := 100, maxGrossExposurePct := 100, maxVenueGrossPct := 100,
    minCashPct := 0, riskPerTradePct := 100, pennyStockMaxPrice := 0 }

def cashOnly (equity : ℚ) : PortfolioRiskView :=
  { equity, cash := equity, grossExposurePct := 0, positions := [], dailyPnlPct := 0,
    drawdownPct := 0, consecutiveLosses := 0, tradingHalted := false, cooldownUntil := none,
    peakEquity := none, baseCurrency := "USD" }

theorem wide_sizing {equity price stop : ℚ} (hprice : 0 < price) (hstop : stop < price)
    (hroom : price ≤ equity) (hrisk : price - stop ≤ equity) :
    ∃ sizing, positionSize wideLimits equity price stop none 0 1 = .ok sizing ∧
      1 ≤ sizing.shares ∧ sizing.shares * price ≤ equity := by
  have hequity : 0 < equity := hprice.trans_le hroom
  have hgap : 0 < price - stop := sub_pos.mpr hstop
  have hdistance : stopDistance price stop = .ok (price - stop) := by
    unfold stopDistance
    rw [if_neg (not_le.mpr hprice), abs_of_pos hgap, if_neg (not_le.mpr hgap)]
  have hshares : (positionSize wideLimits equity price stop none 0 1).map (·.shares) =
      .ok (min ⌊equity / (price - stop)⌋ ⌊equity / price⌋) := by
    unfold positionSize
    rw [if_neg (not_or.mpr ⟨not_le.mpr hequity, not_le.mpr hprice⟩), hdistance]
    simp [bind, Except.bind, pure, Except.pure, Except.map, wideLimits, hgap, hequity.le]
  cases hsize : positionSize wideLimits equity price stop none 0 1 with
  | error e =>
    rw [hsize] at hshares
    cases hshares
  | ok sizing =>
    rw [hsize] at hshares
    have hmin : sizing.shares = min ⌊equity / (price - stop)⌋ ⌊equity / price⌋ :=
      Except.ok.inj hshares
    refine ⟨sizing, rfl, ?_, ?_⟩
    · rw [hmin]
      refine le_min (Int.le_floor.mpr ?_) (Int.le_floor.mpr ?_)
      · rwa [Int.cast_one, one_le_div hgap]
      · rwa [Int.cast_one, one_le_div hprice]
    · rw [← le_div_iff₀ hprice, hmin]
      exact (Int.cast_le.mpr (min_le_right _ _)).trans (Int.floor_le _)

def wideEngine : DeterministicRiskEngine := { limits := wideLimits, fxRates := [] }

section

variable [Casing]

theorem wide_projection {equity notional : ℚ} (symbol venue sector : String) (hequity : 0 < equity)
    (hnotional : notional ≤ equity) :
    ∀ c ∈ projectionChecks wideLimits (cashOnly equity) symbol venue sector 0 notional,
      c.passed := by
  have hpct : notional / equity * 100 ≤ 100 := by
    have hle : notional / equity ≤ 1 := (div_le_one hequity).mpr hnotional
    linarith
  have hcash : 0 ≤ (equity - notional) / equity * 100 :=
    mul_nonneg (div_nonneg (sub_nonneg.mpr hnotional) hequity.le) (by norm_num)
  have hslack : (0 : ℚ) ≤ 1 / 1000000000 := by norm_num
  have hwithin : notional / equity * 100 ≤ 100 + 1 / 1000000000 := by linarith
  have hfloor : (0 : ℚ) - 1 / 1000000000 ≤ (equity - notional) / equity * 100 := by linarith
  simp only [projectionChecks, check, pctOfEquity, sectorExposurePct, venueExposurePct, openCount,
    cashOnly, wideLimits, defaultLimits, hequity.ne', not_le.mpr hequity,
    List.filter_nil, List.map_nil, List.sum_nil, List.any_nil, List.length_nil, zero_add,
    List.forall_mem_cons, decide_eq_true_eq, Bool.false_eq_true, if_false, List.not_mem_nil,
    false_implies, implies_true, and_true]
  exact ⟨hwithin, hwithin, hwithin, hwithin, hfloor, by norm_num⟩

/-- What an entry is validated with, beside its keys: the account, clear data and the list. -/
structure Clear (a : ValidateArgs) (s : PlanScope) (symbol : String) (equity : ℚ) : Prop where
  portfolio : a.portfolio = cashOnly equity
  quality : a.dataQualityScore = 1
  session : a.marketSessionClear = true
  broker : a.brokerDataConsistent = true
  venue : s.venue = .us
  allowed : Casing.upper symbol ∈ s.allowlist

section Trades

variable {cfg : Settings} {d : CIODecision} {plan : SymbolActionPlan} {a : ValidateArgs}
  {s : PlanScope} {equity price stop qty : ℚ}

theorem Clear.currency (h : Clear a s plan.symbol equity) :
    (entryTradeIntent d plan a s price stop qty).currencyOf cfg = a.portfolio.baseCcy := by
  rw [entryTradeIntent_currency, h.venue, h.portfolio]
  exact (Casing.upper_ascii "USD" (by decide)).symm.trans rfl

theorem Clear.gates (h : Clear a s plan.symbol equity) (hprice : 0 < price) :
    ∀ c ∈ pretradeGates cfg wideEngine a.portfolio (entryTradeIntent d plan a s price stop qty)
      (entryInputs a s []), c.passed := by
  have hlisted : Casing.upper plan.symbol ∈ s.allowlist.map Casing.upper :=
    List.mem_map.mpr ⟨_, h.allowed, Casing.upper_upper _⟩
  intro c hc
  simp only [pretradeGates, currencyChecks, h.currency, ne_eq, not_true_eq_false, and_false,
    if_false, List.append_nil] at hc
  simp only [portfolioChecks, tradeChecks, lossStreakCheck, dailyLossHit, drawdownOf,
    entryTradeIntent, entryInputs, TradeIntent.hasStop, h.portfolio, cashOnly, wideEngine,
    wideLimits, defaultLimits, h.quality, h.session, h.broker, Casing.upper_upper] at hc
  simp only [check, Bool.false_eq_true, if_false, List.nil_append, List.append_nil, List.mem_cons,
    List.mem_append, List.not_mem_nil, or_false, and_false] at hc
  rcases hc with (rfl | rfl | rfl | rfl | rfl | rfl) | rfl | rfl | rfl | rfl
  all_goals norm_num [hlisted, hprice.le]

theorem Clear.sizeBuy (h : Clear a s plan.symbol equity) {sizing : SizingResult}
    (hsizing : positionSize wideLimits equity price stop none 0 1 = .ok sizing) :
    Risk.sizeBuy wideEngine a.portfolio (entryTradeIntent d plan a s price stop qty)
      s.venue.value stop 1 = .ok (sizing, min qty sizing.shares, check .riskPerTrade
        (0 < sizing.shares) :: projectionChecks wideLimits (cashOnly equity)
          (Casing.upper (Casing.upper plan.symbol)) s.venue.value "Unknown" 0
          (min qty sizing.shares * (price * 1))) := by
  have hsize : positionSize wideEngine.limits a.portfolio.equity (price * 1) (stop * 1)
      ((none : Option ℚ).map (· * 1)) 0 1 = .ok sizing := by
    rw [h.portfolio, mul_one, mul_one]
    exact hsizing
  unfold Risk.sizeBuy
  simp only [entryTradeIntent, h.portfolio, cashOnly, existingValue, existingPosition,
    List.find?_nil, Option.map_none, Option.getD_none] at hsize ⊢
  rw [hsize]
  rfl

theorem Clear.pretrade (h : Clear a s plan.symbol equity) (cfg : Settings) (d : CIODecision)
    (qty : ℚ) (hprice : 0 < price) (hstop : stop < price) (hroom : price ≤ equity)
    (hrisk : price - stop ≤ equity) :
    ∃ r, evaluatePretrade cfg wideEngine a.portfolio (entryTradeIntent d plan a s price stop qty)
      (entryInputs a s []) = .ok r ∧ r.approved := by
  have hhalt : haltDay wideLimits a.portfolio = false := by
    rw [h.portfolio]
    simp [haltDay, dailyLossHit, drawdownOf, cashOnly, wideLimits, defaultLimits]
  obtain ⟨sizing, hsizing, hshares, hpaid⟩ := wide_sizing hprice hstop hroom hrisk
  have hfactor : baseFactor cfg wideEngine a.portfolio (entryTradeIntent d plan a s price stop qty) =
      1 := if_pos h.currency
  have hpart : sizedPart cfg wideEngine a.portfolio (entryTradeIntent d plan a s price stop qty) =
      (Risk.sizeBuy wideEngine a.portfolio (entryTradeIntent d plan a s price stop qty)
        ((entryTradeIntent d plan a s price stop qty).venueTextOf cfg) stop _).map some :=
    sizedPart_of_stop rfl rfl (Or.inl h.currency)
  rw [hfactor, entryTradeIntent_venue, h.sizeBuy hsizing] at hpart
  unfold evaluatePretrade
  rw [hpart]
  refine ⟨_, rfl, judge_approved_iff.mpr ⟨hhalt, fun c hc _ => ?_⟩⟩
  rcases List.mem_append.mp hc with hc | hc
  · exact h.gates hprice c hc
  · rcases List.mem_cons.mp hc with rfl | hc
    · simp only [check, decide_eq_true_eq]
      omega
    · refine wide_projection _ _ _ (hprice.trans_le hroom) ?_ c hc
      rw [mul_one]
      exact (mul_le_mul_of_nonneg_right (min_le_right _ _) hprice.le).trans hpaid

end Trades

/-! ## Entries the account has room for -/

/-- The mock broker's settings, with a limit price as far from the last as it may be. -/
def roomSettings (drift : ℚ) : Settings := { mockSettings with maxEntryLimitDriftBps := drift }

theorem requiresLive_room (drift : ℚ) : requiresLiveMarketPrices (roomSettings drift) = false := by
  have hmock : Casing.lower (roomSettings drift).brokerProvider = "mock" :=
    (Casing.lower_ascii "mock" (by decide)).trans (by decide)
  unfold requiresLiveMarketPrices
  rw [hmock]
  rfl

end

/-- The price, the equity and the drift leave room for an entry. -/
structure RoomFor (plan : SymbolActionPlan) (price equity drift : ℚ) : Prop where
  stopped : ∃ stop, plan.stopLoss = some stop ∧ stop < price ∧ price - stop ≤ equity
  target : 0 < plan.targetPositionPct → 1 ≤ equity * plan.targetPositionPct / 100 / price
  limit : ∀ zone, plan.entryZone = some zone →
    |(zone.min + zone.max) / 2 - price| / price * 10000 ≤ drift

section Plans

variable {d : CIODecision} {plan : SymbolActionPlan} {a : ValidateArgs} {s : PlanScope}
  {price equity drift : ℚ} {v : ExecutionValidator}

theorem horizonCap_free [Casing] (symbol : String) : horizonCapViolation symbol [] [] = none := by
  have hshort : horizonText [] (Casing.upper symbol) = "short" :=
    (Casing.lower_ascii "short" (by decide)).trans (by decide)
  unfold horizonCapViolation
  simp only [hshort]
  rfl

theorem RoomFor.requested (h : RoomFor plan price equity drift) {shares : ℤ} (hshares : 1 ≤ shares) :
    0 < requestedQty shares plan.targetPositionPct price equity := by
  have hpos : (0 : ℚ) < shares := by exact_mod_cast hshares
  unfold requestedQty
  split
  · rename_i htarget
    refine lt_min hpos ?_
    have hfloor : 1 ≤ ⌊equity * plan.targetPositionPct / 100 / price⌋ :=
      Int.le_floor.mpr (by exact_mod_cast h.target htarget.1)
    exact_mod_cast hfloor
  · exact hpos

theorem RoomFor.entrySize [Casing] (h : RoomFor plan price equity drift)
    (hclear : Clear a s plan.symbol equity) (hengine : v.engine = wideEngine)
    (hhorizon : a.horizonBySymbol = []) (hprice : 0 < price) (hroom : price ≤ equity) :
    ∃ qty, Execution.entrySize v d plan a s [] price = .ok (.ok qty) := by
  obtain ⟨stop, hstop, hless, hrisk⟩ := h.stopped
  obtain ⟨sizing, hsizing, hshares, -⟩ := wide_sizing hprice hless hroom hrisk
  have hmult : entryRiskMult v.settings a (Casing.upper plan.symbol) = 1 := by
    unfold entryRiskMult
    rw [hhorizon]
    rfl
  have hsize : positionSize wideEngine.limits a.portfolio.equity price stop none 0 1 =
      .ok sizing := by
    rw [hclear.portfolio]
    exact hsizing
  have hqty : ¬ requestedQty sizing.shares plan.targetPositionPct price a.portfolio.equity ≤ 0 := by
    rw [hclear.portfolio]
    exact not_le.mpr (h.requested hshares)
  obtain ⟨pre, hpre, happroved⟩ := hclear.pretrade v.settings d
    (requestedQty sizing.shares plan.targetPositionPct price a.portfolio.equity) hprice hless hroom
    hrisk
  refine ⟨pre.adjustedQuantity.getD 0, ?_⟩
  unfold Execution.entrySize
  simp only [hstop, hmult, hsize, hqty, bind, Except.bind, if_false, hengine, hpre, happroved,
    Bool.not_true, Bool.false_eq_true, pure, Except.pure]

theorem RoomFor.orderTerms [Casing] (h : RoomFor plan price equity drift) :
    ∃ terms, Execution.orderTerms (roomSettings drift) plan price = .ok terms := by
  unfold Execution.orderTerms
  dsimp only
  split
  · exact ⟨_, rfl⟩
  · cases hzone : plan.entryZone with
    | none =>
      dsimp only
      split <;> exact ⟨_, rfl⟩
    | some zone =>
      dsimp only
      have hnear : ¬ (roomSettings drift).maxEntryLimitDriftBps <
          |(zone.min + zone.max) / 2 - price| / price * 10000 := not_lt.mpr (h.limit zone hzone)
      rw [if_neg hnear]
      exact ⟨_, rfl⟩

theorem RoomFor.not_refused [Casing] (h : RoomFor plan price equity drift)
    (hclear : Clear a s plan.symbol equity) (hsettings : v.settings = roomSettings drift)
    (hengine : v.engine = wideEngine) (hentry : plan.action.isEntry)
    (hhorizon : a.horizonBySymbol = []) (hskip : s.skipEntries = false) (happroved : d.riskApproval)
    (hheld : s.heldSymbols = [])
    (hquote : Dict.get? a.latestPrices (Casing.upper plan.symbol) = some price) (hprice : 0 < price)
    (hroom : price ≤ equity) : ¬ refuses (validatePlan v d plan a s []) := by
  have hstop : plan.stopLoss.isSome := by
    obtain ⟨stop, hstop, -⟩ := h.stopped
    simp [hstop]
  have hcap : horizonCapViolation (Casing.upper plan.symbol) a.horizonBySymbol s.heldSymbols =
      none := by
    rw [hhorizon, hheld]
    exact horizonCap_free _
  have hgate : entryGate d plan a s = none :=
    (entryGate_eq_none_iff hentry).mpr ⟨hclear.allowed, hskip, happroved, Or.inl hstop, hcap⟩
  have husable : usablePrice v.settings a (Casing.upper plan.symbol) = .ok price := by
    unfold usablePrice
    rw [hquote, hsettings, requiresLive_room]
    simp [Option.filter, hprice]
  obtain ⟨qty, hqty⟩ := h.entrySize (d := d) hclear hengine hhorizon hprice hroom
  obtain ⟨terms, hterms⟩ := h.orderTerms
  unfold validatePlan
  simp only [hgate, husable, planSize, hentry, if_true, hqty, Except.map, finishPlan]
  rw [hsettings, hterms]
  simp [refuses]

end Plans

/-! ## A bridge with room -/

theorem exists_bound {α : Type} (f : α → ℚ) (xs : List α) : ∃ b, ∀ x ∈ xs, f x ≤ b := by
  obtain ⟨b, hb⟩ := (xs.map f).toFinset.exists_le
  exact ⟨b, fun x hx => hb _ (List.mem_toFinset.mpr (List.mem_map_of_mem hx))⟩

theorem exists_room (plans : List SymbolActionPlan) : ∃ price equity drift : ℚ, 0 < price ∧
    price ≤ equity ∧ ∀ p ∈ plans, p.stopLoss.isSome → RoomFor p price equity drift := by
  obtain ⟨top, htop⟩ := exists_bound (fun p : SymbolActionPlan => p.stopLoss.getD 0) plans
  obtain ⟨gap, hgap⟩ := exists_bound
    (fun p : SymbolActionPlan => (max top 0 + 1) - p.stopLoss.getD 0) plans
  obtain ⟨want, hwant⟩ := exists_bound
    (fun p : SymbolActionPlan => (max top 0 + 1) * 100 / p.targetPositionPct) plans
  obtain ⟨drift, hdrift⟩ := exists_bound (fun p : SymbolActionPlan =>
    (p.entryZone.map fun zone =>
      |(zone.min + zone.max) / 2 - (max top 0 + 1)| / (max top 0 + 1) * 10000).getD 0) plans
  have hprice : 0 < max top 0 + 1 := by positivity
  refine ⟨max top 0 + 1, max (max top 0 + 1) (max gap want), drift, hprice, le_max_left _ _, ?_⟩
  intro p hp hstopped
  obtain ⟨stop, hstop⟩ := Option.isSome_iff_exists.mp hstopped
  have hless := htop p hp
  have hrisk := hgap p hp
  simp only [hstop, Option.getD_some] at hless hrisk
  refine ⟨⟨stop, hstop, ?_, hrisk.trans ((le_max_left _ _).trans (le_max_right _ _))⟩, ?_, ?_⟩
  · exact (hless.trans (le_max_left top 0)).trans_lt (lt_add_one _)
  · intro htarget
    rw [one_le_div hprice, le_div_iff₀ (by norm_num : (0 : ℚ) < 100), ← div_le_iff₀ htarget]
    exact (hwant p hp).trans ((le_max_right gap want).trans (le_max_right _ _))
  · intro zone hzone
    have h := hdrift p hp
    simpa [hzone] using h

def roomFeed (pnls : Dict (List ℚ)) : FirmFeed :=
  { controls := fun _ => freshWorld.controls
    engine := wideEngine
    closePnls := fun _ => answers pnls
    quotes := fun _ _ => answers []
    positionSync := fun _ => answers () }

variable [Casing]

def roomArgs (plans : List SymbolActionPlan) (equity : ℚ) : MaterializeArgs :=
  { portfolio := cashOnly equity, latestPrices := [], dataQualityScore := 1, workflowId := none,
    createIntents := true, allowSubmit := false,
    entryUniverse := some (plans.map fun p => Casing.upper p.symbol), horizonBySymbol := [],
    blockNewEntries := false, marketSessionClear := true }

def roomPrices (plans : List SymbolActionPlan) (price : ℚ) : Dict ℚ :=
  plans.map fun p => (Casing.upper p.symbol, price)

theorem get?_roomPrices {price : ℚ} (hp : p ∈ plans) :
    Dict.get? (roomPrices plans price) (Casing.upper p.symbol) = some price := by
  induction plans with
  | nil => cases hp
  | cons q plans ih =>
    show Dict.get? ((Casing.upper q.symbol, price) :: roomPrices plans price) _ = _
    rw [Dict.get?_cons]
    by_cases hq : Casing.upper q.symbol = Casing.upper p.symbol
    · simp [hq]
    · rcases List.mem_cons.mp hp with rfl | hp
      · exact absurd rfl hq
      · simpa [hq] using ih hp

theorem venue_room (symbol : String) (drift : ℚ) :
    venueForSymbol symbol (roomSettings drift) none = .us := by
  have hnone : Casing.upper "" ≠ "AUD" := by
    rw [Casing.upper_ascii "" (by decide)]
    decide
  unfold venueForSymbol
  rw [Option.getD_none, if_neg hnone]
  simp [roomSettings, mockSettings, resolveVenue]

theorem outcome_of_mem {v : ExecutionValidator} {d : CIODecision} {a : ValidateArgs}
    {seen : List String} {outs : List (SymbolActionPlan × PlanOutcome)}
    (h : planOutcomes v d a seen plans = .ok outs) (hp : p ∈ plans)
    (hinf : ¬ p.action.isInformational) : ∃ outcome, (p, outcome) ∈ outs := by
  induction plans generalizing seen outs with
  | nil => cases hp
  | cons q plans ih =>
    by_cases hq : q.action.isInformational
    · rw [planOutcomes, if_pos hq] at h
      rcases List.mem_cons.mp hp with rfl | hp
      · exact absurd hq hinf
      · exact ih h hp
    · obtain ⟨outcome, rest, -, hrest, rfl⟩ := planOutcomes_cons hq h
      rcases List.mem_cons.mp hp with rfl | hp
      · exact ⟨outcome, List.mem_cons_self⟩
      · obtain ⟨o, ho⟩ := ih hrest hp
        exact ⟨o, List.mem_cons_of_mem _ ho⟩

/-- A hedge that goes through buys a symbol the ledger blocks. -/
theorem HedgeGoesThrough.bought {decision : CIODecision} (h : HedgeGoesThrough pnls decision) :
    ∃ r, ComesTo pnls decision r ∧
      ∃ i ∈ r.intents, i.isEntryIntent ∧ ledgerBlocks pnls i.symbol := by
  obtain ⟨p, hp, hhedge, hblocked⟩ := h.hedge
  have hkept : p ∈ (closedTradeFilter pnls decision).symbolActions := hedge_passes_filter hp hhedge
  have hentry : p.action.isEntry := by rw [hhedge]; rfl
  generalize hd : closedTradeFilter pnls decision = d at hkept
  have hstopped : ∀ q ∈ d.symbolActions, q.action.isEntry → q.stopLoss.isSome := hd ▸ h.stopped
  have happroved : d.riskApproval := by
    rw [← hd, riskApproval_closedTradeFilter]
    exact h.approved
  have hacts : d.portfolioAction.isAnalysisOnly = false := by
    rw [← hd]
    simpa using h.acts
  obtain ⟨price, equity, drift, hprice, hroom, hall⟩ := exists_room d.symbolActions
  have hskip : skipEntries d ((roomArgs d.symbolActions equity).validateArgs
      (roomPrices d.symbolActions price) [] 0) = false := by
    unfold skipEntries
    rw [hacts]
    rfl
  have hreleased : BatchReleased ((roomFeed pnls).validator (roomSettings drift) 0) d
      ((roomArgs d.symbolActions equity).validateArgs (roomPrices d.symbolActions price) [] 0) := by
    refine ⟨rfl, by simp [happroved], ?_, fun _ => ?_⟩
    · intro q hq hqentry
      refine (hall q hq (hstopped q hq hqentry)).not_refused ⟨rfl, rfl, rfl, rfl, ?_, ?_⟩ rfl rfl
        hqentry rfl hskip happroved rfl (get?_roomPrices hq) hprice hroom
      · exact venue_room q.symbol drift
      · exact List.mem_map_of_mem (f := fun p : SymbolActionPlan => Casing.upper p.symbol) hq
    · exact nodup_entryKeys_iff.mpr (hd ▸ h.distinct)
  obtain ⟨r, outs, hvalid, houts, hintents⟩ := validate_released hreleased
  obtain ⟨outcome, hmem⟩ := outcome_of_mem houts hkept (by rw [hhedge]; decide)
  obtain ⟨-, -, seen, -, hval⟩ := planOutcomes_mem houts hmem
  have hnotRejected : ∀ reason, outcome ≠ .rejected reason := by
    rintro reason rfl
    obtain ⟨-, -, outs', houts', hnone⟩ := batchReleased_iff.mp hreleased
    obtain rfl := Except.ok.inj (houts.symm.trans houts')
    have hreason : reason ∈ rejectionsOf false outs :=
      List.mem_filterMap.mpr ⟨_, hmem, by simp [hhedge, SymbolAction.isExit]⟩
    rw [hnone] at hreason
    cases hreason
  rcases validatePlan_entry (v := (roomFeed pnls).validator (roomSettings drift) 0) (d := d) seen
    hentry with hrefused | ⟨hskipped, -⟩ | ⟨-, -, i, hi, -⟩
  · rw [hval] at hrefused
    cases outcome with
    | rejected reason => exact absurd rfl (hnotRejected reason)
    | intent i => cases hrefused
    | skipped => cases hrefused
  · exact absurd (hskip.symm.trans hskipped) (by decide)
  · rw [hval] at hi
    cases hi
    have hissued := issued_of_validatePlan hval
    refine ⟨r, ?_, i, ?_, hissued.isEntryIntent_iff.mpr hentry, hissued.symbol ▸ hblocked⟩
    · exact ⟨roomSettings drift, roomFeed pnls, 0, roomArgs d.symbolActions equity,
        roomPrices d.symbolActions price, [], 0, fun _ => rfl, hd ▸ hvalid⟩
    · rw [hintents]
      exact mem_intentsOf.mpr ⟨p, hmem⟩

/-- **When the closed trades are honoured.** Whatever the settings, the account and the prices, no
    entry of a blocked symbol comes out of the bridge, exactly where no hedge goes through. -/
theorem ledgerHonoured_iff (pnls : Dict (List ℚ)) (decision : CIODecision) :
    LedgerHonoured pnls decision ↔ ¬ HedgeGoesThrough pnls decision := by
  constructor
  · intro hhonoured hhedge
    obtain ⟨r, hcomes, i, hi, hentry, hblocked⟩ := hhedge.bought
    exact hhonoured r hcomes i hi hentry hblocked
  · rintro hnone r ⟨cfg, feed, tick, a, prices, seen, now, -, hvalid⟩ i hi hentry hblocked
    exact hnone (hedgeGoesThrough_of_intent hvalid hi hentry hblocked)

end Ledger

/-! ## A hedge in a losing symbol -/

section LosingHedge

attribute [local instance] asciiCasing

def fiveLosses : Dict (List ℚ) := [("AAPL", [-1, -1, -1, -1, -1])]

/-- **The hedge is bought.** The five closes forbid an AAPL entry, and the validator issues the
    entry intent of the hedge. -/
theorem hedge_bought : ¬ LedgerHonoured fiveLosses (decisionOf .hedge [planOf "AAPL" .hedge]) := by
  intro hhonoured
  have hbought : (validate ((roomFeed fiveLosses).validator mockSettings 0)
      (closedTradeFilter fiveLosses (decisionOf .hedge [planOf "AAPL" .hedge]))
      ((roomArgs [planOf "AAPL" .hedge] 10000).validateArgs [("AAPL", 100)] [] 0)).toOption.any
        (fun r => r.intents.any fun i => i.isEntryIntent && ledgerBlocks fiveLosses i.symbol) =
          true := by decide +kernel
  generalize hvalid : validate _ _ _ = outcome at hbought
  cases outcome with
  | error e => cases hbought
  | ok r =>
    obtain ⟨i, hi, hboth⟩ := List.any_eq_true.mp hbought
    obtain ⟨hentry, hblocked⟩ := Bool.and_eq_true_iff.mp hboth
    exact hhonoured r ⟨mockSettings, roomFeed fiveLosses, 0, roomArgs [planOf "AAPL" .hedge] 10000,
      [("AAPL", 100)], [], 0, fun _ => rfl, hvalid⟩ i hi hentry hblocked

end LosingHedge

end Investor.Execution
