import Mathlib.Data.List.Sort
import Investor.Universe.BookStrategy

/-!
# The passes behind the CIO

The pipeline rewrites the CIO's decision eight times before it hands it on: horizons,
playbook exits, missing exits, entry stops, setups, blocked entries, attribution, and a
book action without a name. A pass that rewrites no plan returns the decision it was
given; one that does may also recompute the portfolio action from the plans it leaves.

Each pass is written as what it does to one plan, and the decision it makes of that. The
lookups by symbol are dictionaries in which the last row of a symbol wins.
-/

namespace Investor.Agents

open Lib Schema Market Universe

section Passes

variable [Casing]

/-! ## Horizons -/

/-- `policy_by_symbol`: rows with an unknown horizon are passed over. -/
def policyBySymbol (rows : List WatchRow) : Dict HorizonPolicy :=
  Dict.ofPairs (rows.filterMap fun row =>
    if row.symbol = "" ∨ row.horizon = "" then none
    else (policyFor row.horizon).map fun policy => (Casing.upper row.symbol, policy))

def alignHorizon (policies : Dict HorizonPolicy) (plan : SymbolActionPlan) : SymbolActionPlan :=
  match Dict.get? policies (Casing.upper plan.symbol) with
  | none => plan
  | some policy =>
    { plan with
      timeHorizon := policy.cioTimeHorizon
      maxHoldingTimeMinutes := plan.maxHoldingTimeMinutes.or
        (policy.maxHoldingMinutes.filter (· ≠ 0)) }

/-- `align_cio_horizons`. -/
def alignCioHorizons (d : CIODecision) (watchlist : List WatchRow) : CIODecision :=
  { d with symbolActions := d.symbolActions.map (alignHorizon (policyBySymbol watchlist)) }

/-! ## Playbook exits -/

/-- The plan an exit is rewritten to, when the book does not agree with it. -/
def alignExit (views : Dict SymbolQuantView) (watchlist : List WatchRow) (held : List String)
    (plan : SymbolActionPlan) : Option SymbolActionPlan :=
  let sym := Casing.upper plan.symbol
  if ¬ plan.action.isExit ∨ (held ≠ [] ∧ sym ∉ held) then none
  else
    let hz := horizonForSymbol sym watchlist
    let trims : Bool := plan.action = .reduce || plan.action = .partialSell
    match Dict.get? views sym with
    | none =>
      if hz = "short" ∧ trims then
        some { plan with action := .hold, thesis := s!"{hz}: hold — no tape to break swing" }
      else if isIntraday hz ∧ trims then
        some { plan with action := .sell, thesis := s!"{hz}: flatten leftover" }
      else none
    | some view =>
      let allowed := exitAction hz view none none none
      let want := symbolActionForExit allowed
      -- a trim of a quiet swing is noise; a full sale is honoured
      if want = .hold ∧ trims ∧ hz = "short" then
        some { plan with action := .hold, thesis := s!"{hz}: {allowed.value} — keep swing" }
      else if want = .reduce ∧ plan.action = .sell then some { plan with action := .reduce }
      else if want = .sell ∧ trims ∧ isIntraday hz then some { plan with action := .sell }
      else none

/-- `align_cio_playbook_exits`. -/
def alignCioPlaybookExits (d : CIODecision) (views : List SymbolQuantView)
    (watchlist : List WatchRow) (heldSymbols : List String) : CIODecision :=
  let held := (heldSymbols.filter (· ≠ "")).map Casing.upper
  let rewrite := alignExit (bySymbol (·.symbol) views) watchlist held
  let updated := d.symbolActions.map fun plan => (rewrite plan).getD plan
  if d.symbolActions.any fun plan => (rewrite plan).isSome then
    { d with symbolActions := updated, portfolioAction := portfolioActionFromSymbolActions updated }
  else d

/-- `_position_entry_last`: the average entry and the last price of a position. -/
def positionEntryLast (pos : PositionSnapshot) : Option ℚ × Option ℚ :=
  let qty := |pos.quantity|
  if qty < 1 / 10 ^ 9 then (none, none)
  else (if pos.costBasis = 0 then none else some (pos.costBasis / qty),
    if pos.marketValue = 0 then none else some (pos.marketValue / qty))

/-- `position_age_seconds`. -/
def positionAgeSeconds (pos : PositionSnapshot) (now : Int) : Option ℚ :=
  pos.openedAt.map fun opened => max 0 ((now : ℚ) - opened)

def bookExitOf (views : Dict SymbolQuantView) (watchlist : List WatchRow) (now : Int)
    (pos : PositionSnapshot) : BookExit :=
  let sym := Casing.upper pos.symbol
  match Dict.get? views sym with
  | none => .hold
  | some view =>
    exitAction (horizonForSymbol sym watchlist) view (positionEntryLast pos).2
      (positionEntryLast pos).1 (positionAgeSeconds pos now)

def playbookExitTarget (pos : PositionSnapshot) (allowed : BookExit) : ℚ :=
  if allowed = .sell then 0 else |pos.weightPct| * (1 / 2)

/-- The plan put in for a position the book gives up; `none` where its target is out of the
    range the schema allows. -/
def playbookExitPlan (watchlist : List WatchRow) (pos : PositionSnapshot) (allowed : BookExit) :
    Option SymbolActionPlan :=
  let sym := Casing.upper pos.symbol
  let hz := horizonForSymbol sym watchlist
  if 100 < playbookExitTarget pos allowed then none
  else some
    { symbol := sym, action := symbolActionForExit allowed, confidence := 70,
      targetPositionPct := playbookExitTarget pos allowed, orderType := .market, entryZone := none, stopLoss := none,
      takeProfit := [], timeHorizon := policyTimeHorizon hz,
      thesis := s!"{hz}: {allowed.value} — do not wait for a reversal", invalidation := "n/a",
      maxHoldingTimeMinutes := none, entryTiming := none, entrySource := none,
      trendAtEntry := none }

structure ExitScan where
  updated : List SymbolActionPlan
  existing : Dict SymbolActionPlan
  changed : Bool

def startScan (plans : List SymbolActionPlan) : ExitScan :=
  { updated := plans, existing := bySymbol (·.symbol) plans, changed := false }

def ensureExit (views : Dict SymbolQuantView) (watchlist : List WatchRow) (now : Int)
    (scan : ExitScan) (pos : PositionSnapshot) : Option ExitScan :=
  let sym := Casing.upper pos.symbol
  let allowed := bookExitOf views watchlist now pos
  let cur := Dict.get? scan.existing sym
  if |pos.quantity| < 1 / 10 ^ 9 ∨ allowed = .hold ∨ cur.any (·.action.isExit) then some scan
  else do
    let plan ← playbookExitPlan watchlist pos allowed
    return {
      updated :=
        match cur with
        | none => scan.updated ++ [plan]
        | some _ => scan.updated.map fun p => if Casing.upper p.symbol = sym then plan else p
      existing := Dict.set scan.existing sym plan
      changed := true }

/-- `ensure_playbook_exits`; `none` for the schema's `ValidationError`. -/
def ensurePlaybookExits (d : CIODecision) (views : List SymbolQuantView)
    (watchlist : List WatchRow) (positions : List PositionSnapshot) (now : Int) :
    Option CIODecision := do
  let scan ← positions.foldlM (ensureExit (bySymbol (·.symbol) views) watchlist now)
    (startScan d.symbolActions)
  return if scan.changed then
    { d with symbolActions := scan.updated,
             portfolioAction := portfolioActionFromSymbolActions scan.updated }
  else d

/-! ## Entry stops -/

/-- `suggested_long_stop`. -/
def suggestedLongStop (reference : ℚ) (atr : Option ℚ) (policy : Option HorizonPolicy) :
    Option ℚ :=
  if reference ≤ 0 then none
  else
    let stop :=
      match atr.filter (0 < ·), policy with
      | some atr, some pol => reference - pol.stopAtrMult * atr
      | some atr, none => reference - 3 / 2 * atr
      | none, some pol => reference * (1 - pol.stopPctFallback)
      | none, none => reference * (98 / 100)
    let stop := match policy with
      | some pol => min stop (reference * (1 - pol.minStopPct))
      | none => stop
    if stop ≤ 0 ∨ reference ≤ stop then none else some (roundTo 4 stop)

/-- `widen_long_stop_if_too_tight`. -/
def widenLongStopIfTooTight (stop reference : ℚ) (policy : HorizonPolicy) : ℚ :=
  if reference ≤ 0 ∨ stop ≤ 0 then stop
  else
    let floor := reference * (1 - policy.minStopPct)
    if floor < stop then roundTo 4 floor else stop

structure MarketRow where
  symbol : String
  last : ℚ
  atr14 : Option ℚ
  deriving DecidableEq

def latestPrices (markets : List MarketRow) : Dict ℚ :=
  Dict.ofPairs ((markets.filter (·.last ≠ 0)).map fun m => (Casing.upper m.symbol, m.last))

def atrBySymbol (markets : List MarketRow) : Dict ℚ :=
  Dict.ofPairs (markets.filterMap fun m =>
    (m.atr14.filter (0 < ·)).map fun atr => (Casing.upper m.symbol, atr))

def blankInvalidation (text : String) : Bool := strip text = "" || strip text = "n/a"

/-- An entry with the zone and the stop it lacks, and no stop tighter than its book's. -/
def enrichEntry (showRat : ℚ → String) (views : Dict SymbolQuantView) (prices atrs : Dict ℚ)
    (policies : Dict HorizonPolicy) (plan : SymbolActionPlan) : SymbolActionPlan :=
  if ¬ plan.action.isBuyEntry then plan
  else
    let sym := Casing.upper plan.symbol
    let view := Dict.get? views sym
    let pol := Dict.get? policies sym
    let zone := plan.entryZone.or (view.bind (·.entryZone))
    let ref := (zone.map (·.min)).or (Dict.get? prices sym)
    let given := plan.stopLoss.or (view.bind fun v => v.stopOrInvalidation.filter (· ≠ 0))
    let found := given.or (ref.bind fun r => suggestedLongStop r (Dict.get? atrs sym) pol)
    let stop := found.map fun s =>
      match ref, pol with
      | some r, some p => widenLongStopIfTooTight s r p
      | _, _ => s
    { plan with
      entryZone := zone
      stopLoss := stop
      invalidation :=
        match plan.stopLoss, stop with
        | none, some s =>
          if blankInvalidation plan.invalidation then
            let book := (pol.map (·.horizon.value)).getD "default"
            s!"Stop {showRat s} ({book} book)"
          else plan.invalidation
        | _, _ => plan.invalidation }

/-- `enrich_cio_entry_stops`. -/
def enrichCioEntryStops (showRat : ℚ → String) (d : CIODecision) (views : List SymbolQuantView)
    (markets : List MarketRow) (watchlist : List WatchRow) : CIODecision :=
  { d with
    symbolActions := d.symbolActions.map
      (enrichEntry showRat (bySymbol (·.symbol) views) (latestPrices markets) (atrBySymbol markets)
        (policyBySymbol watchlist)) }

/-! ## Attribution -/

def SOURCE_CIO : String := "cio"

def SOURCE_INJECTED : String := "aggressive_injected"

/-- `_timing_from_notes`: the first note with a timing decides. -/
def timingFromNotes (notes : List String) : Option String :=
  match notes.find? (hasPrefix · "timing=") with
  | none => none
  | some text =>
    let label := Casing.lower (strip (String.ofList (text.toList.drop 7)))
    if label = "" then none else some label

/-- `timing_from_view`. -/
def timingFromView (view : SymbolQuantView) : Option String :=
  match timingFromNotes view.notes with
  | some stamped => some stamped
  | none =>
    match view.entryTiming.filter (· ≠ "") with
    | some text =>
      let label := Casing.lower (strip text)
      if label = "" then none else some label
    | none => some (classifyTiming { tapeFromView view none with accumulation := false })

def keepText (current fill : Option String) : Option String :=
  (current.filter (· ≠ "")).or fill

/-- `stamp_plan`. -/
def stampPlan (plan : SymbolActionPlan) (view : Option SymbolQuantView) (source : String) :
    SymbolActionPlan :=
  let stamped := { plan with entrySource := keepText plan.entrySource (some source) }
  match view with
  | none => stamped
  | some view =>
    { stamped with
      entryTiming := (keepText plan.entryTiming (timingFromView view)).or plan.entryTiming
      trendAtEntry := keepText plan.trendAtEntry (some view.trendState.value) }

/-- `stamp_cio_entry_attribution`. -/
def stampCioEntryAttribution (d : CIODecision) (views : List SymbolQuantView) : CIODecision :=
  { d with
    symbolActions := d.symbolActions.map fun plan =>
      if plan.action.isBuyEntry then
        stampPlan plan (Dict.get? (bySymbol (·.symbol) views) (Casing.upper plan.symbol)) SOURCE_CIO
      else plan }

/-! ## Setups -/

/-- What is left for new names while the ranked views are walked through. -/
structure SetupRoom where
  held : List String
  horizonOf : Dict String
  newCounts : Dict ℕ
  used : Dict ℚ
  cashLeft : ℚ
  plans : List SymbolActionPlan

structure SetupScope where
  watchlist : List WatchRow
  allowlist : List String
  regime : MarketRegime
  maxPositionPct : ℚ
  minutesToClose : Option ℚ

def setupPlan (sym : String) (view : SymbolQuantView) (book : BookPlaybook) (zone : PriceZone)
    (stop size : ℚ) : SymbolActionPlan :=
  stampPlan
    { symbol := sym, action := .scaleIn, confidence := ⌊view.probabilityEstimate * 100⌋,
      targetPositionPct := size, orderType := .limit, entryZone := some zone, stopLoss := some stop,
      takeProfit := [], timeHorizon := book.cioTimeHorizon,
      thesis := takeChars 80 s!"{book.labelKo}: {book.summary}",
      invalidation := "Break below stop_or_invalidation", maxHoldingTimeMinutes := none,
      entryTiming := none, entrySource := none, trendAtEntry := none }
    (some view) SOURCE_INJECTED

/-- The turn of one view in `quant_entry_plans`. -/
def takeSetup (scope : SetupScope) (room : SetupRoom) (view : SymbolQuantView) : SetupRoom :=
  let sym := Casing.upper view.symbol
  let allow := (scope.allowlist.filter (· ≠ "")).map Casing.upper
  let hz := horizonForSymbol sym scope.watchlist
  match playbookFor hz, view.entryZone, view.stopOrInvalidation with
  | some book, some zone, some stop =>
    let used := (Dict.get? room.used hz).getD 0
    let count := (Dict.get? room.newCounts hz).getD 0
    let size := roundTo 2 (min (entryNotionalPct hz used scope.maxPositionPct book.targetSizePct)
      room.cashLeft)
    if sym = "" ∨ sym ∈ room.held ∨ (allow ≠ [] ∧ sym ∉ allow) then room
    else if view.trendState = .sideways ∧ ¬ viewHasAccumulation view then room
    else if ¬ viewMayEnter hz view scope.regime scope.minutesToClose then room
    else if book.maxNewPerCycle ≤ count then room
    else if (horizonCapViolation sym (Dict.set room.horizonOf sym hz) room.held).isSome then room
    else if size < 1 then room
    else
      { held := room.held ++ [sym]
        horizonOf := Dict.set room.horizonOf sym hz
        newCounts := Dict.set room.newCounts hz (count + 1)
        used := Dict.set room.used hz (used + size)
        cashLeft := roundTo 2 (room.cashLeft - size)
        plans := room.plans ++ [setupPlan sym view book zone stop size] }
  | _, _, _ => room

/-- `quant_entry_plans`: the views by probability, the likeliest first. -/
def quantEntryPlans (scope : SetupScope) (views : List SymbolQuantView) (heldSymbols : List String)
    (newCounts : Dict ℕ) (sleeveUsed : Dict ℚ) (cashRoomPct : ℚ) : List SymbolActionPlan :=
  let held := heldSymbols.map Casing.upper
  let ranked := views.insertionSort fun v w => w.probabilityEstimate ≤ v.probabilityEstimate
  (ranked.foldl (takeSetup scope)
    { held, horizonOf := Dict.ofPairs (held.map fun s => (s, horizonForSymbol s scope.watchlist)),
      newCounts, used := sleeveUsed, cashLeft := cashRoomPct, plans := [] }).plans

/-- `cash_target_after_plans`. -/
def cashTargetAfterPlans (currentCashPct minCashPct : ℚ) (plans : List SymbolActionPlan) : ℚ :=
  let deployed := ((plans.filter (·.action.isBuyEntry)).map (·.targetPositionPct)).sum
  roundTo 2 (max minCashPct (min 100 (currentCashPct - deployed)))

def bump (d : Dict ℚ) (k : String) (x : ℚ) : Dict ℚ := Dict.set d k ((Dict.get? d k).getD 0 + x)

/-- The plans `ensure_cio_takes_setups` adds to a decision. -/
def extraSetups (scope : SetupScope) (d : CIODecision) (views : List SymbolQuantView)
    (positions : List PositionSnapshot) (cashPct minCashPct : ℚ) : List SymbolActionPlan :=
  let entering := d.symbolActions.filter (·.action.isBuyEntry)
  let deployed := (entering.map (·.targetPositionPct)).sum
  let cashLeft := roundTo 2 (deployableCashPct cashPct minCashPct - deployed)
  if cashLeft < 1 then []
  else
    let heldRows := positions.filter (·.isHeld)
    let held := heldRows.map fun p => Casing.upper p.symbol
    let already := entering.map fun p => Casing.upper p.symbol
    let usedByHeld := heldRows.foldl (fun used p =>
      let weight := if |p.weightPct| ≤ 0 then scope.maxPositionPct else |p.weightPct|
      bump used (horizonForSymbol p.symbol scope.watchlist) weight) []
    let used := entering.foldl (fun used p =>
      bump used (horizonForSymbol p.symbol scope.watchlist) p.targetPositionPct) usedByHeld
    let newCounts := entering.foldl (fun counts p =>
      let hz := horizonForSymbol p.symbol scope.watchlist
      Dict.set counts hz ((Dict.get? counts hz).getD 0 + 1)) []
    quantEntryPlans scope views (held ++ already) newCounts used cashLeft

/-- `ensure_cio_takes_setups`. -/
def ensureCioTakesSetups (scope : SetupScope) (d : CIODecision) (views : List SymbolQuantView)
    (positions : List PositionSnapshot) (riskOk enabled : Bool) (cashPct minCashPct : ℚ) :
    CIODecision :=
  if !enabled || !riskOk || !d.riskApproval then d
  else
    let extras := extraSetups scope d views positions cashPct minCashPct
    if extras = [] then d
    else
      let taken := extras.map fun p => Casing.upper p.symbol
      let merged := (d.symbolActions.filter fun p => Casing.upper p.symbol ∉ taken) ++ extras
      { d with
        symbolActions := merged
        portfolioAction := portfolioActionFromSymbolActions merged
        reasonNotToTrade := none
        cashTargetPct := cashTargetAfterPlans cashPct minCashPct merged }

/-! ## Blocked entries -/

/-- Why `drop_blocked_entries` takes an entry out. -/
inductive Drop
  | record | sideways | other
  deriving DecidableEq

/-- Whether an entry is dropped, by the symbol's own closes or by its tape. -/
def dropReason (views : Dict SymbolQuantView) (watchlist : List WatchRow) (regime : MarketRegime)
    (minutesToClose : Option ℚ) (ledger : Dict (List ℚ)) (plan : SymbolActionPlan) : Option Drop :=
  let sym := Casing.upper plan.symbol
  if ¬ plan.action.isBuyEntry then none
  else if (entryBlockReason ((Dict.get? ledger sym).getD [])).isSome then some .record
  else
    let hz := horizonForSymbol sym watchlist
    match Dict.get? views sym with
    | none => if isIntraday hz ∨ plan.stopLoss = none then some .other else none
    | some view =>
      if ¬ viewMayEnter hz view regime minutesToClose then
        if isIntraday hz ∧ view.trendState = .sideways then some .sideways else some .other
      else if plan.stopLoss.or view.stopOrInvalidation = none then some .other
      else none

def standsDown : PortfolioAction → Bool
  | .noTrade | .hold | .stayCash => true
  | _ => false

/-- `drop_blocked_entries`. -/
def dropBlockedEntries (d : CIODecision) (views : List SymbolQuantView) (watchlist : List WatchRow)
    (regime : MarketRegime) (minutesToClose : Option ℚ) (ledger : Dict (List ℚ)) : CIODecision :=
  let reason := dropReason (bySymbol (·.symbol) views) watchlist regime minutesToClose ledger
  let updated := d.symbolActions.filter fun plan => (reason plan).isNone
  if d.symbolActions.all fun plan => (reason plan).isNone then d
  else
    let portfolio := portfolioActionFromSymbolActions updated
    { d with
      symbolActions := updated
      portfolioAction := portfolio
      reasonNotToTrade :=
        if d.symbolActions.any (reason · = some .record) ∧ standsDown portfolio then
          some "closed_trade_block"
        else if d.symbolActions.any (reason · = some .sideways) ∧ standsDown portfolio then
          some "sideways_stand_down"
        else d.reasonNotToTrade }

/-- `reconcile_nameless_entry`. -/
def reconcileNamelessEntry (d : CIODecision) (hasPositions : Bool) : CIODecision :=
  if d.symbolActions.any (·.action.isBuyEntry) then d
  else
    match d.portfolioAction with
    | .scaleIn | .buy | .strongBuy =>
      { d with
        portfolioAction := if hasPositions then .hold else .noTrade
        reasonNotToTrade := keepText d.reasonNotToTrade (some "no named entry after setups") }
    | _ => d

/-! ## The chain -/

/-- What a run of the pipeline has at hand when the CIO has answered. -/
structure PassInputs where
  views : List SymbolQuantView
  watchlist : List WatchRow
  markets : List MarketRow
  positions : List PositionSnapshot
  allowlist : List String
  risk : RiskManagerOutput
  regime : MarketRegime
  maxPositionPct : ℚ
  minCashPct : ℚ
  cashPct : ℚ
  paperAggressiveEntries : Bool
  minutesToClose : Option ℚ
  outcomePnls : Dict (List ℚ)
  now : Int
  showRat : ℚ → String

def PassInputs.heldPositions (x : PassInputs) : List PositionSnapshot :=
  x.positions.filter (·.isHeld)

def PassInputs.scope (x : PassInputs) : SetupScope :=
  { watchlist := x.watchlist, allowlist := x.allowlist, regime := x.regime,
    maxPositionPct := x.maxPositionPct, minutesToClose := x.minutesToClose }

def PassInputs.alignExits (x : PassInputs) (d : CIODecision) : CIODecision :=
  alignCioPlaybookExits (alignCioHorizons d x.watchlist) x.views x.watchlist
    (x.heldPositions.map (·.symbol))

def PassInputs.settleEntries (x : PassInputs) (d : CIODecision) : CIODecision :=
  let d := enrichCioEntryStops x.showRat d x.views x.markets x.watchlist
  let d := ensureCioTakesSetups x.scope d x.views x.positions x.risk.riskOk x.paperAggressiveEntries
    x.cashPct x.minCashPct
  let d := dropBlockedEntries d x.views x.watchlist x.regime x.minutesToClose x.outcomePnls
  let d := stampCioEntryAttribution d x.views
  reconcileNamelessEntry d (x.positions.any (·.isHeld))

/-- The tail of `run_from_collection`: what becomes of the CIO's answer. -/
def PassInputs.passes (x : PassInputs) (d : CIODecision) : Option CIODecision :=
  (ensurePlaybookExits (x.alignExits d) x.views x.watchlist x.heldPositions x.now).map
    x.settleEntries

end Passes

/-! ## A sample run -/

/-- A run on the given views, watchlist and positions, under the default limits. -/
def sampleInputs (views : List SymbolQuantView) (watchlist : List WatchRow)
    (positions : List PositionSnapshot) : PassInputs :=
  { views, watchlist, markets := [], positions, allowlist := ["AAPL", "MSFT"],
    risk := { overallVerdict := .approved, hardVetoes := [], haltNewTrades := false },
    regime := .neutral, maxPositionPct := 10, minCashPct := 10, cashPct := 50,
    paperAggressiveEntries := false, minutesToClose := none, outcomePnls := [], now := 0,
    showRat := fun _ => "" }

def risingView (symbol : String) : SymbolQuantView :=
  { symbol, trendState := .up, momentumState := .steady, volatilityState := .normal,
    liquidityState := .normal, support := some 95, resistance := some 106,
    entryZone := some { min := 100, max := 101 }, stopOrInvalidation := some 95,
    probabilityEstimate := 7 / 10, notes := [], entryTiming := none }

def sharesOf (symbol : String) (quantity : ℚ) : PositionSnapshot :=
  { symbol, quantity, marketValue := quantity * 100, costBasis := quantity * 100, weightPct := 10,
    openedAt := none }

end Investor.Agents
