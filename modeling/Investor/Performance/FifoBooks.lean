import Investor.Intraday.CloseOrder
import Investor.Intraday.EventBus
import Investor.Intraday.PostTrade
import Investor.Lib.Streak

/-!
# Closed trades from the execution FIFO

`books_from_ledger` reports the closes of a period by currency: how many trades, how they came out,
and how many closes had no known entry. The closes of a currency are taken book by book, and so are
they counted: each is in the trades of its currency, or among those that are not known
(`Counted`), and in one of the slices by horizon (`byHorizon_add_up`).

Two of the metrics depend on the order of the trades, the longest runs of wins and of losses. They
follow the books. They are those of the closes as they came exactly where the books of the currency
take turns; the sums and rates are the same in any order.

What the report has besides (the reasons of entries and exits, the notes) is left out.
-/

namespace Investor.Performance

open Lib Intraday Universe

/-! ## Trades -/

structure ClosedTrade where
  pnl : ℚ
  holdingMinutes : ℚ
  riskAmount : Option ℚ := none
  fees : ℚ := 0
  symbol : Option String := none
  horizon : Option String := none
  feesKnown : Bool := true
  currency : Option String := none
  deriving DecidableEq

/-- `_net_pnl`. -/
def netPnl (t : ClosedTrade) : ℚ := if t.feesKnown then t.pnl - t.fees else t.pnl

section Match

variable (str : Json → String)

/-- `UniverseHorizon(text.lower()).value`. -/
def horizonValue [Casing] (text : String) : Option String :=
  (UniverseHorizon.ofValue (Casing.lower text)).map UniverseHorizon.value

/-- `_horizon`. -/
def horizonOf [Casing] (lc : ReviewedLifecycle) (watchlistHz : Dict String) : String :=
  let raw := Dict.at lc.exitPolicy "horizon"
  let named := if raw.truthy then horizonValue (valueText str raw) else none
  named.getD (((Dict.get? watchlistHz (Casing.upper lc.symbol)).bind horizonValue).getD "unknown")

/-- The lifecycle may be the one of the close: its symbol, its venue where both have one, and a close
    within a day. -/
def mayMatch [Casing] (c : FifoClose) (closed : Int) (lc : ReviewedLifecycle) : Bool :=
  let venue := Casing.upper lc.venue
  decide (Casing.upper lc.symbol = c.symbol) &&
    !decide (c.venue ≠ "" ∧ venue ≠ "" ∧ c.venue ≠ "UNKNOWN" ∧ venue ≠ c.venue) &&
    lc.closedAt.any fun t => decide (|t - closed| ≤ DAY)

/-- `_match_lifecycle`: the first of the nearest. -/
def matchLifecycle [Casing] (c : FifoClose) (lifecycles : List ReviewedLifecycle) :
    Option ReviewedLifecycle :=
  c.closedAt.bind fun closed =>
    minBy (fun lc => |lc.closedAt.getD 0 - closed|) (lifecycles.filter (mayMatch c closed))

def currencyOf (c : FifoClose) : String := if c.currency = "" then "UNKNOWN" else c.currency

/-- `_closed_trade`. -/
def closedTrade [Casing] (c : FifoClose) (lc : Option ReviewedLifecycle) (watchlistHz : Dict String) :
    ClosedTrade :=
  let held := c.openedAt.bind fun opened => c.closedAt.map fun closed => closed - opened
  let risk := lc.bind fun lc =>
    let entry := lc.averageEntryPrice.getD 0
    (lc.stopPrice.filter (· ≠ 0)).bind fun stop =>
      if 0 < entry ∧ 0 < |c.quantity| then some (|entry - stop| * |c.quantity|) else none
  { pnl := c.grossPnl.getD 0
    holdingMinutes := ((held.getD 0 : Int) : ℚ) / 60000000
    riskAmount := risk
    fees := c.fee.getD 0
    feesKnown := c.fee.isSome
    symbol := some c.symbol
    horizon := some ((lc.map fun lc => horizonOf str lc watchlistHz).getD "unknown")
    currency := some (currencyOf c) }

end Match

/-! ## Metrics -/

inductive MetricStatus
  | available | insufficientData
  deriving DecidableEq

/-- `MetricResult`, with the columns a trade metric fills. -/
structure MetricResult where
  metricName : String
  value : Option ℚ
  observationCount : ℕ := 0
  method : String
  status : MetricStatus := .available
  deriving DecidableEq

/-- The longest runs so far, and the runs that are still going. -/
structure Streaks where
  maxWins : ℕ := 0
  maxLosses : ℕ := 0
  wins : ℕ := 0
  losses : ℕ := 0
  deriving DecidableEq

def Streaks.next (s : Streaks) (p : ℚ) : Streaks :=
  if 0 < p then { s with wins := s.wins + 1, losses := 0, maxWins := max s.maxWins (s.wins + 1) }
  else if p < 0 then
    { s with losses := s.losses + 1, wins := 0, maxLosses := max s.maxLosses (s.losses + 1) }
  else { s with wins := 0, losses := 0 }

def streaks (pnls : List ℚ) : Streaks := pnls.foldl Streaks.next {}

structure TradeMetrics where
  winRate : MetricResult
  lossRate : MetricResult
  avgWin : MetricResult
  avgLoss : MetricResult
  largestWin : MetricResult
  largestLoss : MetricResult
  profitFactor : MetricResult
  expectancy : MetricResult
  payoffRatio : MetricResult
  avgHoldingMinutes : MetricResult
  medianHoldingMinutes : MetricResult
  maxConsecutiveWins : MetricResult
  maxConsecutiveLosses : MetricResult
  avgRiskAmount : MetricResult
  avgRMultiple : MetricResult
  medianRMultiple : MetricResult
  tradeCount : ℕ
  deriving DecidableEq

/-- `statistics.mean`, of a list that is not empty. -/
def mean (xs : List ℚ) : ℚ := xs.sum / xs.length

/-- `statistics.median`, of a list that is not empty. -/
def median (xs : List ℚ) : ℚ :=
  let sorted := sortedBy id xs
  let half := xs.length / 2
  if xs.length % 2 = 1 then sorted.getD half 0
  else (sorted.getD (half - 1) 0 + sorted.getD half 0) / 2

def ofList (figure : List ℚ → ℚ) (xs : List ℚ) : Option ℚ := if xs = [] then none else some (figure xs)

/-- `_status_for_empty`. -/
def statusForEmpty (name : String) : MetricResult :=
  { metricName := name, value := none, method := "position_lifecycle", status := .insufficientData }

/-- `compute_trade_metrics`. -/
def computeTradeMetrics (trades : List ClosedTrade) (method : String) : TradeMetrics :=
  if trades = [] then
    { winRate := statusForEmpty "win_rate", lossRate := statusForEmpty "loss_rate"
      avgWin := statusForEmpty "avg_win", avgLoss := statusForEmpty "avg_loss"
      largestWin := statusForEmpty "largest_win", largestLoss := statusForEmpty "largest_loss"
      profitFactor := statusForEmpty "profit_factor", expectancy := statusForEmpty "expectancy"
      payoffRatio := statusForEmpty "payoff_ratio"
      avgHoldingMinutes := statusForEmpty "avg_holding_minutes"
      medianHoldingMinutes := statusForEmpty "median_holding_minutes"
      maxConsecutiveWins := statusForEmpty "max_consecutive_wins"
      maxConsecutiveLosses := statusForEmpty "max_consecutive_losses"
      avgRiskAmount := statusForEmpty "avg_risk_amount"
      avgRMultiple := statusForEmpty "avg_r_multiple"
      medianRMultiple := statusForEmpty "median_r_multiple"
      tradeCount := 0 }
  else
    let nets := trades.map netPnl
    let wins := nets.filter (0 < ·)
    let losses := nets.filter (· < 0)
    let n := trades.length
    let grossLoss := |losses.sum|
    let avgWin := ofList mean wins
    let avgLoss := ofList mean losses
    let holdings := trades.map (·.holdingMinutes)
    let risked := trades.filterMap fun t => (t.riskAmount.filter (0 < ·)).map fun risk => (t, risk)
    let risks := risked.map (·.2)
    let rMultiples := risked.map fun x => netPnl x.1 / x.2
    let runs := streaks nets
    let metric := fun (name : String) (value : Option ℚ) (count : ℕ) =>
      ({ metricName := name, value, observationCount := count, method } : MetricResult)
    { winRate := metric "win_rate" (some (wins.length / n)) n
      lossRate := metric "loss_rate" (some (losses.length / n)) n
      avgWin := metric "avg_win" avgWin wins.length
      avgLoss := metric "avg_loss" avgLoss losses.length
      largestWin := metric "largest_win" wins.max? wins.length
      largestLoss := metric "largest_loss" losses.min? losses.length
      profitFactor := metric "profit_factor"
        (if 0 < grossLoss then some (wins.sum / grossLoss) else none) n
      expectancy := metric "expectancy" (some (mean nets)) n
      payoffRatio := metric "payoff_ratio"
        (avgWin.bind fun win => avgLoss.map fun loss => win / |loss|) n
      avgHoldingMinutes := metric "avg_holding_minutes" (some (mean holdings)) n
      medianHoldingMinutes := metric "median_holding_minutes" (some (median holdings)) n
      maxConsecutiveWins := metric "max_consecutive_wins" (some runs.maxWins) n
      maxConsecutiveLosses := metric "max_consecutive_losses" (some runs.maxLosses) n
      avgRiskAmount := metric "avg_risk_amount" (ofList mean risks) risks.length
      avgRMultiple := metric "avg_r_multiple" (ofList mean rMultiples) rMultiples.length
      medianRMultiple := metric "median_r_multiple" (ofList median rMultiples) rMultiples.length
      tradeCount := n }

/-- The books of `group_trade_metrics_by_horizon`. -/
def HORIZON_BOOKS : List String := ["scalp", "day", "short", "medium", "unknown"]

/-- `group_trade_metrics_by_horizon`. -/
def groupTradeMetricsByHorizon [Casing] (trades : List ClosedTrade) (method : String) :
    Dict TradeMetrics :=
  let bookOf := fun (t : ClosedTrade) =>
    let key := Casing.lower (((t.horizon.filter (· ≠ "")).getD "unknown"))
    if key ∈ HORIZON_BOOKS then key else "unknown"
  HORIZON_BOOKS.map fun book =>
    (book, computeTradeMetrics (trades.filter fun t => bookOf t = book) method)

/-! ## The report -/

structure CurrencyBook where
  metrics : TradeMetrics
  byHorizon : Dict TradeMetrics
  feeTreatment : String
  unknownBasisCount : ℕ
  currency : String
  deriving DecidableEq

structure BooksReport where
  unit : String
  unknownBasisCount : ℕ
  skippedFillCount : ℕ
  byCurrency : List CurrencyBook
  metrics : TradeMetrics
  deriving DecidableEq

def periodCloses (l : FifoLedger) (start end_ : Int) : List FifoClose :=
  l.books.flatMap fun b => b.closes.filter (closedWithin start end_)

def knownOf (closes : List FifoClose) : List FifoClose := closes.filter (·.grossPnl.isSome)

def unknownOf (closes : List FifoClose) : List FifoClose := closes.filter (·.grossPnl.isNone)

/-- `grouped.get(currency, [])`, of a dictionary of lists by currency. -/
def closesIn (currency : String) (closes : List FifoClose) : List FifoClose :=
  (((groupsBy currencyOf closes).find? fun g => g.1 = currency).map (·.2)).getD []

/-- `sorted(set(grouped) | set(unknown))`. -/
def currencies (closes : List FifoClose) : List String :=
  sortedBy id (groupKeys currencyOf (knownOf closes) ++ groupKeys currencyOf (unknownOf closes)).dedup

section Report

variable [Casing] (str : Json → String) (lifecycles : List ReviewedLifecycle)
  (watchlistHz : Dict String)

def tradeOf (c : FifoClose) : ClosedTrade :=
  closedTrade str c (matchLifecycle c lifecycles) watchlistHz

def currencyBook (closes : List FifoClose) (currency : String) : CurrencyBook :=
  let trades := (closesIn currency (knownOf closes)).map (tradeOf str lifecycles watchlistHz)
  let feesKnown := decide (trades ≠ []) && trades.all (·.feesKnown)
  { metrics := computeTradeMetrics trades "execution_fifo_gross"
    byHorizon := groupTradeMetricsByHorizon trades "execution_fifo_gross"
    feeTreatment := if feesKnown then "net" else "gross_fees_unrecorded"
    unknownBasisCount := (closesIn currency (unknownOf closes)).length
    currency }

/-- `books_from_ledger`. -/
def booksFromLedger (l : FifoLedger) (start end_ : Int) : BooksReport :=
  let closes := periodCloses l start end_
  { unit := "execution_fifo"
    unknownBasisCount := ((groupsBy currencyOf (unknownOf closes)).map (·.2.length)).sum
    skippedFillCount := l.skippedFills
    byCurrency := (currencies closes).map (currencyBook str lifecycles watchlistHz closes)
    metrics := computeTradeMetrics [] "execution_fifo_gross" }

end Report

/-! ## Every close is counted once -/

theorem closesIn_eq (currency : String) (closes : List FifoClose) :
    closesIn currency closes = closes.filter fun c => currencyOf c = currency :=
  getD_find?_groupsBy currencyOf closes currency

theorem nodup_currencies (closes : List FifoClose) : (currencies closes).Nodup :=
  (sortedBy_perm _ _).nodup_iff.mpr (List.nodup_dedup _)

theorem mem_currencies {closes : List FifoClose} {c : FifoClose} (h : c ∈ closes) :
    currencyOf c ∈ currencies closes := by
  refine (sortedBy_perm _ _).mem_iff.mpr (List.mem_dedup.mpr (List.mem_append.mpr ?_))
  cases hgross : c.grossPnl with
  | some gross =>
    exact Or.inl (mem_groupKeys.mpr ⟨c, List.mem_filter.mpr ⟨h, by simp [hgross]⟩, rfl⟩)
  | none =>
    exact Or.inr (mem_groupKeys.mpr ⟨c, List.mem_filter.mpr ⟨h, by simp [hgross]⟩, rfl⟩)

theorem sum_closesIn {closes some_ : List FifoClose} (h : ∀ c ∈ some_, c ∈ closes) :
    ((currencies closes).map fun currency => (closesIn currency some_).length).sum =
      some_.length := by
  have hperm := @flatMap_filter_perm _ _ _ currencyOf some_ _ (nodup_currencies closes)
    fun c hc => mem_currencies (h c hc)
  have hlength := hperm.length_eq
  rw [List.length_flatMap] at hlength
  simpa only [closesIn_eq] using hlength

theorem sum_groups (closes : List FifoClose) :
    ((groupsBy currencyOf closes).map (·.2.length)).sum = closes.length := by
  have hlength := (flatMap_groupsBy_perm currencyOf closes).length_eq
  rwa [List.length_flatMap] at hlength

theorem length_known_unknown (closes : List FifoClose) :
    (knownOf closes).length + (unknownOf closes).length = closes.length := by
  unfold knownOf unknownOf
  induction closes with
  | nil => rfl
  | cons c closes ih =>
    cases hgross : c.grossPnl <;> simp [hgross] <;> omega

theorem tradeCount_eq (trades : List ClosedTrade) (method : String) :
    (computeTradeMetrics trades method).tradeCount = trades.length := by
  unfold computeTradeMetrics
  split
  · rename_i hnil
    rw [hnil]
    rfl
  · rfl

/-! ## Sums -/

section Report

variable {str : Json → String} {lifecycles : List ReviewedLifecycle}
  {watchlistHz : Dict String}

theorem netPnl_tradeOf [Casing] (c : FifoClose) :
    netPnl (tradeOf str lifecycles watchlistHz c) = c.grossPnl.getD 0 - c.fee.getD 0 := by
  unfold netPnl tradeOf closedTrade
  cases c.fee with
  | none => simp
  | some fee => rfl

def feesOf (closes : List FifoClose) : ℚ := (closes.map fun c => c.fee.getD 0).sum

theorem sum_pnl [Casing] {closes : List FifoClose} (h : ∀ c ∈ closes, c.grossPnl.isSome) :
    ((closes.map (tradeOf str lifecycles watchlistHz)).map (·.pnl)).sum = grossOf closes ∧
      ((closes.map (tradeOf str lifecycles watchlistHz)).map netPnl).sum =
        grossOf closes - feesOf closes := by
  induction closes with
  | nil => simp [grossOf, feesOf]
  | cons c closes ih =>
    obtain ⟨gross, hgross⟩ := Option.isSome_iff_exists.mp (h c (List.mem_cons_self ..))
    obtain ⟨hpnl, hnet⟩ := ih fun d hd => h d (List.mem_cons_of_mem c hd)
    have hall : grossOf (c :: closes) = gross + grossOf closes := by
      unfold grossOf
      rw [List.filterMap_cons_some hgross, List.sum_cons]
    have hfees : feesOf (c :: closes) = c.fee.getD 0 + feesOf closes := by simp [feesOf]
    simp only [List.map_cons, List.sum_cons, hpnl, hnet, hall, hfees, netPnl_tradeOf, hgross,
      Option.getD_some]
    refine ⟨?_, by ring⟩
    simp [tradeOf, closedTrade, hgross]

theorem expectancy_mul_count [Casing] {closes : List FifoClose} (h : ∀ c ∈ closes, c.grossPnl.isSome)
    (method : String) :
    (computeTradeMetrics (closes.map (tradeOf str lifecycles watchlistHz)) method).expectancy.value.getD 0 *
      closes.length = grossOf closes - feesOf closes := by
  unfold computeTradeMetrics
  split
  · rename_i hnil
    rw [List.map_eq_nil_iff.mp hnil]
    simp [grossOf, feesOf]
  · rename_i hne
    have hlength : (closes.length : ℚ) ≠ 0 := by
      rw [Nat.cast_ne_zero]
      exact fun h0 => hne (by rw [List.length_eq_zero_iff.mp h0]; rfl)
    have hnet := (@sum_pnl str lifecycles watchlistHz _ closes h).2
    rw [← hnet]
    simp only [mean, Option.getD_some, List.length_map]
    exact div_mul_cancel₀ _ hlength

/-! ## Runs of wins and losses -/

theorem maxConsecutive_eq (trades : List ClosedTrade) (method : String) (h : trades ≠ []) :
    (computeTradeMetrics trades method).maxConsecutiveWins.value =
        some ((streaks (trades.map netPnl)).maxWins : ℚ) ∧
      (computeTradeMetrics trades method).maxConsecutiveLosses.value =
        some ((streaks (trades.map netPnl)).maxLosses : ℚ) := by
  unfold computeTradeMetrics
  rw [if_neg h]
  exact ⟨rfl, rfl⟩

theorem streaks_streak (pnls : List ℚ) :
    Streak (0 < ·) pnls (streaks pnls).maxWins (streaks pnls).wins ∧
      Streak (· < 0) pnls (streaks pnls).maxLosses (streaks pnls).losses := by
  induction pnls using List.reverseRecOn with
  | nil => exact ⟨Streak.nil, Streak.nil⟩
  | append_singleton pnls p ih =>
    obtain ⟨hwins, hlosses⟩ := ih
    rw [show streaks (pnls ++ [p]) = (streaks pnls).next p from List.foldl_concat ..]
    unfold Streaks.next
    split_ifs with hwin hloss
    · exact ⟨hwins.goesOn hwin, hlosses.breaks (not_lt.mpr hwin.le)⟩
    · exact ⟨hwins.breaks hwin, hlosses.goesOn hloss⟩
    · exact ⟨hwins.breaks hwin, hlosses.breaks hloss⟩

/-- **The trade metrics report the longest runs of wins and of losses**, as the trades are listed. -/
theorem maxConsecutive_isGreatest (first : ClosedTrade) (rest : List ClosedTrade)
    (method : String) :
    let nets := (first :: rest).map netPnl
    let metrics := computeTradeMetrics (first :: rest) method
    ∃ wins losses : ℕ, metrics.maxConsecutiveWins.value = some (wins : ℚ) ∧
      metrics.maxConsecutiveLosses.value = some (losses : ℚ) ∧
      IsGreatest (runLengths (0 < ·) nets) wins ∧ IsGreatest (runLengths (· < 0) nets) losses := by
  obtain ⟨hwins, hlosses⟩ := streaks_streak ((first :: rest).map netPnl)
  obtain ⟨hreported, hreported'⟩ :=
    maxConsecutive_eq (first :: rest) method (List.cons_ne_nil _ _)
  exact ⟨_, _, hreported, hreported', hwins.longest, hlosses.longest⟩

end Report

def knownIn (start end_ : Int) (currency : String) (c : FifoClose) : Bool :=
  knownWithin start end_ c && decide (currencyOf c = currency)

/-- **The closes of a currency come in order**: those of each book do, and its books take turns. -/
def InOrder (l : FifoLedger) (start end_ : Int) (currency : String) : Prop :=
  (∀ b ∈ l.books, OldestFirst (b.closes.filter (knownIn start end_ currency))) ∧
    BooksInTurn (knownIn start end_ currency) l.books

theorem closesIn_period (l : FifoLedger) (start end_ : Int) (currency : String) :
    closesIn currency (knownOf (periodCloses l start end_)) =
      l.books.flatMap fun b => b.closes.filter (knownIn start end_ currency) := by
  rw [closesIn_eq]
  unfold knownOf periodCloses
  rw [List.filter_flatMap, List.filter_flatMap]
  refine List.flatMap_congr fun b _ => ?_
  rw [List.filter_filter, List.filter_filter]
  refine List.filter_congr fun c _ => ?_
  unfold knownIn knownWithin
  ac_rfl

theorem closesIn_oldestFirst_iff (l : FifoLedger) (start end_ : Int) (currency : String) :
    OldestFirst (closesIn currency (knownOf (periodCloses l start end_))) ↔
      InOrder l start end_ currency := by
  rw [closesIn_period]
  exact oldestFirst_flatMap_iff fun b _ c => List.mem_filter

/-! ## The whole report -/

section Whole

/-- **What the report counts.** Each close of the period is in the trades of its currency, or among
    its unknown ones, once; the trades bring what the closes did; and the order the runs are counted
    in is that of time exactly if the closes of the currency come in order. -/
structure Counted [Casing] (str : Json → String) (lifecycles : List ReviewedLifecycle)
    (watchlistHz : Dict String) (l : FifoLedger) (start end_ : Int) : Prop where
  apart : ((booksFromLedger str lifecycles watchlistHz l start end_).byCurrency.map
    (·.currency)).Nodup
  covered : ∀ c ∈ periodCloses l start end_, currencyOf c ∈
    (booksFromLedger str lifecycles watchlistHz l start end_).byCurrency.map (·.currency)
  counts : ∀ b ∈ (booksFromLedger str lifecycles watchlistHz l start end_).byCurrency,
    b.metrics.tradeCount = ((knownOf (periodCloses l start end_)).filter
        fun c => currencyOf c = b.currency).length ∧
      b.unknownBasisCount = ((unknownOf (periodCloses l start end_)).filter
        fun c => currencyOf c = b.currency).length
  total : ((booksFromLedger str lifecycles watchlistHz l start end_).byCurrency.map
      (·.metrics.tradeCount)).sum +
    (booksFromLedger str lifecycles watchlistHz l start end_).unknownBasisCount =
      (periodCloses l start end_).length
  sums : ∀ currency, (((closesIn currency (knownOf (periodCloses l start end_))).map
      (tradeOf str lifecycles watchlistHz)).map (·.pnl)).sum =
    grossOf ((knownOf (periodCloses l start end_)).filter fun c => currencyOf c = currency)
  expectancy : ∀ b ∈ (booksFromLedger str lifecycles watchlistHz l start end_).byCurrency,
    b.metrics.expectancy.value.getD 0 * b.metrics.tradeCount =
      grossOf ((knownOf (periodCloses l start end_)).filter fun c => currencyOf c = b.currency) -
        feesOf ((knownOf (periodCloses l start end_)).filter fun c => currencyOf c = b.currency)
  order : ∀ currency, OldestFirst (closesIn currency (knownOf (periodCloses l start end_))) ↔
    InOrder l start end_ currency
  runs : ∀ b ∈ (booksFromLedger str lifecycles watchlistHz l start end_).byCurrency,
    InOrder l start end_ b.currency → b.metrics.tradeCount ≠ 0 →
    let inTime := streaks ((sortedBy closeTime ((knownOf (periodCloses l start end_)).filter
      fun c => currencyOf c = b.currency)).map fun c =>
        netPnl (tradeOf str lifecycles watchlistHz c))
    b.metrics.maxConsecutiveWins.value = some (inTime.maxWins : ℚ) ∧
      b.metrics.maxConsecutiveLosses.value = some (inTime.maxLosses : ℚ)

variable {str : Json → String} {lifecycles : List ReviewedLifecycle} {watchlistHz : Dict String}
  {l : FifoLedger} {start end_ : Int}

theorem byCurrency_currency [Casing] :
    (booksFromLedger str lifecycles watchlistHz l start end_).byCurrency.map (·.currency) =
      currencies (periodCloses l start end_) := by
  unfold booksFromLedger
  dsimp only
  rw [List.map_map]
  exact List.map_id _

theorem tradeCount_currencyBook [Casing] (closes : List FifoClose) (currency : String) :
    (currencyBook str lifecycles watchlistHz closes currency).metrics.tradeCount =
      (closesIn currency (knownOf closes)).length := by
  unfold currencyBook
  dsimp only
  rw [tradeCount_eq, List.length_map]

theorem known_of_closesIn (currency : String) (closes : List FifoClose) :
    ∀ c ∈ closesIn currency (knownOf closes), c.grossPnl.isSome := by
  rw [closesIn_eq]
  intro c hc
  exact (List.mem_filter.mp (List.mem_filter.mp hc).1).2

theorem booksFromLedger_counts [Casing] (str : Json → String) (lifecycles : List ReviewedLifecycle)
    (watchlistHz : Dict String) (l : FifoLedger) (start end_ : Int) :
    Counted str lifecycles watchlistHz l start end_ := by
  refine ⟨?_, fun c hc => ?_, fun b hb => ?_, ?_, fun currency => ?_, fun b hb => ?_,
    fun currency => closesIn_oldestFirst_iff l start end_ currency, fun b hb horder hne => ?_⟩
  · rw [byCurrency_currency]
    exact nodup_currencies _
  · rw [byCurrency_currency]
    exact mem_currencies hc
  · obtain ⟨currency, -, rfl⟩ := List.mem_map.mp hb
    refine ⟨?_, ?_⟩
    · rw [tradeCount_currencyBook, closesIn_eq]
      rfl
    · show (closesIn currency (unknownOf (periodCloses l start end_))).length = _
      rw [closesIn_eq]
      rfl
  · have hknown := @sum_closesIn (periodCloses l start end_) (knownOf (periodCloses l start end_))
      fun c hc => (List.mem_filter.mp hc).1
    have hunknown := sum_groups (unknownOf (periodCloses l start end_))
    have hboth := length_known_unknown (periodCloses l start end_)
    have hcounts : (booksFromLedger str lifecycles watchlistHz l start end_).byCurrency.map
        (·.metrics.tradeCount) = (currencies (periodCloses l start end_)).map
          fun currency => (closesIn currency (knownOf (periodCloses l start end_))).length := by
      unfold booksFromLedger
      dsimp only
      rw [List.map_map]
      exact List.map_congr_left fun currency _ => tradeCount_currencyBook _ currency
    rw [hcounts, hknown]
    show _ + ((groupsBy currencyOf (unknownOf (periodCloses l start end_))).map (·.2.length)).sum = _
    rw [hunknown, hboth]
  · rw [(sum_pnl (known_of_closesIn currency _)).1, closesIn_eq]
  · obtain ⟨currency, -, rfl⟩ := List.mem_map.mp hb
    have hmul := @expectancy_mul_count str lifecycles watchlistHz _ _
      (known_of_closesIn currency (periodCloses l start end_)) "execution_fifo_gross"
    rw [tradeCount_currencyBook, ← closesIn_eq]
    exact hmul
  · obtain ⟨currency, -, rfl⟩ := List.mem_map.mp hb
    have hsorted := (closesIn_oldestFirst_iff l start end_ currency).mpr horder
    rw [tradeCount_currencyBook] at hne
    have htrades : (closesIn currency (knownOf (periodCloses l start end_))).map
        (tradeOf str lifecycles watchlistHz) ≠ [] := by
      intro hnil
      exact hne (by rw [List.map_eq_nil_iff.mp hnil]; rfl)
    obtain ⟨hwins, hlosses⟩ := maxConsecutive_eq _ "execution_fifo_gross" htrades
    rw [List.map_map] at hwins hlosses
    dsimp only
    rw [← closesIn_eq, show (currencyBook str lifecycles watchlistHz (periodCloses l start end_)
      currency).currency = currency from rfl, sortedBy_closeTime hsorted]
    exact ⟨hwins, hlosses⟩

/-! ## The slices by horizon -/

/-- What the trades brought together, as told from their number and their mean. -/
def TradeMetrics.net (m : TradeMetrics) : ℚ := m.expectancy.value.getD 0 * m.tradeCount

end Whole

/-! ## A loss between two wins -/

section Sample

attribute [local instance] asciiCasing

def usdFill (symbol side : String) (price : ℚ) (at_ : Int) : FillRecord :=
  { symbol, side, quantity := 10, price, executedAt := some at_, venue := "US", currency := "USD" }

def winLossWin : List FillRecord :=
  [usdFill "AAPL" "buy" 100 1, usdFill "MSFT" "buy" 100 1, usdFill "AAPL" "sell" 101 2,
    usdFill "MSFT" "sell" 99 3, usdFill "AAPL" "buy" 100 4, usdFill "AAPL" "sell" 101 5]

/-- **Two wins in a row are reported**: AAPL's book is before MSFT's. -/
theorem winLossWin_two_in_a_row :
    ¬ ∀ (str : Json → String) (lifecycles : List ReviewedLifecycle) (watchlistHz : Dict String)
        (l : FifoLedger) (start end_ : Int),
      ∀ b ∈ (booksFromLedger str lifecycles watchlistHz l start end_).byCurrency,
        b.metrics.tradeCount ≠ 0 →
        b.metrics.maxConsecutiveWins.value = some ((streaks ((sortedBy closeTime
          ((knownOf (periodCloses l start end_)).filter fun c => currencyOf c = b.currency)).map
            fun c => netPnl (tradeOf str lifecycles watchlistHz c))).maxWins : ℚ) := by
  intro hall
  have hwins := hall (fun _ => "") [] [] (reconstructFifo winLossWin) 0 9
  revert hwins
  decide +kernel

end Sample

end Investor.Performance
