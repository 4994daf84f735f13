import Investor.Execution.Validation

/-!
# Batches of validated intents

The limits of the engine and the intents one call of `validate` returns together. Every
entry was projected onto the portfolio view alone, so each entry intent keeps the limits
taken by itself (`entry_intent_within_limits`). The batch may not: two entries are
projected onto the same cash, and buy-to-cover intents are exits, which the limits never
see.
-/

namespace Investor.Execution

open Lib Schema Market Risk Universe

def ValidatedOrderIntent.hasAction (i : ValidatedOrderIntent) (act : SymbolAction) : Bool :=
  endsWithPart i.idempotencyKey act.value

def ENTRY_ACTIONS : List SymbolAction := [.strongBuy, .buy, .scaleIn, .hedge]

def EXIT_ACTIONS : List SymbolAction := [.sell, .partialSell, .reduce]

def ValidatedOrderIntent.isEntryIntent (i : ValidatedOrderIntent) : Bool :=
  ENTRY_ACTIONS.any i.hasAction

def ValidatedOrderIntent.isExitIntent (i : ValidatedOrderIntent) : Bool :=
  EXIT_ACTIONS.any i.hasAction

variable {act : SymbolAction}

theorem mem_ENTRY_ACTIONS : act ∈ ENTRY_ACTIONS ↔ act.isEntry := by
  cases act <;> decide

theorem mem_EXIT_ACTIONS : act ∈ EXIT_ACTIONS ↔ act.isExit := by
  cases act <;> decide

theorem Side.colon_not_mem_value (side : Side) : ':' ∉ side.value.toList := by
  cases side <;> decide

theorem intentKey_inj {scope sym sym' : String} {side side' : Side} {act' : SymbolAction}
    (h : intentKey scope sym side act = intentKey scope sym' side' act') :
    sym = sym' ∧ side = side' ∧ act = act' := by
  obtain ⟨hfront, hact⟩ := append_sep_inj act.colon_not_mem_value act'.colon_not_mem_value h
  obtain ⟨hsym, hside⟩ := append_sep_inj (Side.colon_not_mem_value side)
    (Side.colon_not_mem_value side') hfront
  refine ⟨?_, ?_, SymbolAction.value_injective hact⟩
  · have := congrArg String.toList hsym
    simp only [String.toList_append, List.append_assoc] at this
    exact String.toList_inj.mp (List.append_cancel_left (List.append_cancel_left this))
  · revert hside
    cases side <;> cases side' <;> decide

theorem endsWithPart_intentKey {scope sym : String} {side : Side} {act' : SymbolAction} :
    endsWithPart (intentKey scope sym side act) act'.value ↔ act = act' := by
  rw [intentKey, endsWithPart_iff act.colon_not_mem_value act'.colon_not_mem_value]
  exact SymbolAction.value_injective.eq_iff

section Batch

variable [Casing]

section Issued

variable {v : ExecutionValidator} {d : CIODecision} {plan : SymbolActionPlan} {a : ValidateArgs}
  {s : PlanScope} {seen : List String} {i : ValidatedOrderIntent}

theorem Issued.hasAction_iff (h : Issued v d plan a s seen i) :
    i.hasAction act ↔ plan.action = act := by
  rw [ValidatedOrderIntent.hasAction, h.key]
  exact endsWithPart_intentKey

theorem Issued.isEntryIntent_iff (h : Issued v d plan a s seen i) :
    i.isEntryIntent ↔ plan.action.isEntry := by
  simp only [ValidatedOrderIntent.isEntryIntent, List.any_eq_true, h.hasAction_iff]
  rw [← mem_ENTRY_ACTIONS]
  exact ⟨fun ⟨act, hact, heq⟩ => heq ▸ hact, fun hact => ⟨_, hact, rfl⟩⟩

theorem Issued.isExitIntent_iff (h : Issued v d plan a s seen i) :
    i.isExitIntent ↔ plan.action.isExit := by
  simp only [ValidatedOrderIntent.isExitIntent, List.any_eq_true, h.hasAction_iff]
  rw [← mem_EXIT_ACTIONS]
  exact ⟨fun ⟨act, hact, heq⟩ => heq ▸ hact, fun hact => ⟨_, hact, rfl⟩⟩

end Issued

/-! ## Limits -/

def OneCurrency (v : ExecutionValidator) (d : CIODecision) (a : ValidateArgs) : Prop :=
  ∀ plan ∈ d.symbolActions,
    (venueSpec (venueForSymbol plan.symbol v.settings none)).currency = a.portfolio.baseCcy

theorem upper_venue_currency (venue : Venue) :
    Casing.upper (venueSpec venue).currency = (venueSpec venue).currency := by
  cases venue
  · exact Casing.upper_ascii _ (by decide)
  · exact Casing.upper_ascii _ (by decide)

variable {cfg : Settings} {price : ℚ}

theorem usablePrice_ok {a : ValidateArgs} {symbol : String}
    (h : usablePrice cfg a symbol = .ok price) :
    Dict.get? a.latestPrices symbol = some price ∧ 0 < price := by
  unfold usablePrice at h
  split at h
  · cases h
  · rename_i p hp
    split at h
    · cases h
    · cases h
      obtain ⟨hget, hpos⟩ := Option.filter_eq_some_iff.mp hp
      exact ⟨hget, by simpa using hpos⟩

theorem entryTradeIntent_venue {d : CIODecision} {plan : SymbolActionPlan} {a : ValidateArgs}
    {s : PlanScope} {stop qty : ℚ} :
    (entryTradeIntent d plan a s price stop qty).venueTextOf cfg = s.venue.value := by
  have hne : s.venue.value ≠ "" := by cases s.venue <;> decide
  simp [TradeIntent.venueTextOf, entryTradeIntent, Venue.upper_value, hne]

theorem entryTradeIntent_currency {d : CIODecision} {plan : SymbolActionPlan} {a : ValidateArgs}
    {s : PlanScope} {stop qty : ℚ} :
    (entryTradeIntent d plan a s price stop qty).currencyOf cfg = (venueSpec s.venue).currency := by
  have hne : (venueSpec s.venue).currency ≠ "" := by cases s.venue <;> decide
  simp [TradeIntent.currencyOf, entryTradeIntent, upper_venue_currency, hne]

/-- **Every entry intent keeps the limits, taken alone.** For every portfolio, price map and
    decision in one currency, each returned intent of an entry plan, at the latest price of
    its symbol, leaves the projected portfolio within the engine's limits. -/
theorem entry_intent_within_limits (v : ExecutionValidator) (d : CIODecision) (a : ValidateArgs)
    (r : ExecutionValidationResult) (hccy : OneCurrency v d a) (h : validate v d a = .ok r)
    (i : ValidatedOrderIntent) (hi : i ∈ r.intents) (hentry : i.isEntryIntent) :
    i.side = .buy ∧ ∃ price venue, Dict.get? a.latestPrices i.symbol = some price ∧ 0 < price ∧
      i.venue = some venue ∧
      WithinLimits v.engine.limits a.portfolio i.symbol venue (i.quantity * price) := by
  obtain ⟨plan, hplan, _, seen, _, hissued⟩ := issued_of_validate h hi
  have hact := hissued.isEntryIntent_iff.mp hentry
  obtain ⟨price, hprice, hsize⟩ := hissued.sized
  obtain ⟨hside, hentrySize⟩ := planSize_entry hact hsize
  obtain ⟨hget, hpos⟩ := usablePrice_ok hprice
  obtain ⟨stop, req, inp, pre, _, _, hpre, happroved, hqty⟩ := entrySize_ok hentrySize
  refine ⟨hside, price, _, by rw [hissued.symbol]; exact hget, hpos, hissued.venue, ?_⟩
  obtain ⟨q, hq, _, hlimits⟩ := evaluatePretrade_approved hpre happroved rfl rfl
    (entryTradeIntent_currency.trans (hccy plan hplan))
  have hsym : Casing.upper (entryTradeIntent d plan a (planScope v d a plan) price stop req).symbol
      = i.symbol := by
    rw [hissued.symbol]
    exact Casing.upper_upper _
  rw [hsym, entryTradeIntent_venue] at hlimits
  rw [hqty, hq]
  exact hlimits

end Batch

/-! ## Batches over the limits -/

section LimitExamples

attribute [local instance] asciiCasing

def mockValidator : ExecutionValidator :=
  { settings := mockSettings, engine := { limits := defaultLimits, fxRates := [] },
    controls := freshWorld.controls }

def bookOf (cash : ℚ) (positions : List PositionRiskView) : PortfolioRiskView :=
  { equity := 10000, cash, grossExposurePct := 0, positions, dailyPnlPct := 0, drawdownPct := 0,
    consecutiveLosses := 0, tradingHalted := false, cooldownUntil := none, peakEquity := none,
    baseCurrency := "USD" }

def argsOf (portfolio : PortfolioRiskView) : ValidateArgs :=
  { portfolio, latestPrices := [("AAPL", 100), ("MSFT", 100)], dataQualityScore := 1,
    marketSessionClear := true, brokerDataConsistent := true, seenIdempotencyKeys := [],
    workflowId := some "wf", entryUniverse := none, horizonBySymbol := [],
    blockNewEntries := false, now := 0 }

def rowOf (symbol : String) (quantity : ℚ) (venue : String) : PositionRiskView :=
  { symbol, quantity, marketValue := quantity * 100, sector := "Tech", venue, currency := none,
    conId := none }

def aaplIntent : ValidatedOrderIntent :=
  { symbol := "AAPL", side := .buy, quantity := 10, orderType := "market", limitPrice := none,
    stopPrice := some 95, idempotencyKey := "wf:AAPL:buy:BUY", decisionId := "d1",
    thesis := "thesis", venue := some "US", conId := none, timeInForce := none,
    attribution := none }

end LimitExamples

end Investor.Execution
