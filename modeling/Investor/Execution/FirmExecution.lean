import Investor.Execution.Service
import Investor.Execution.Submission
import Investor.Market.LivePrices
import Investor.Universe.BookStrategy

/-!
# From a decision to orders

`materialize_cio_decision` is the one way from a CIO decision to the broker. Entries of symbols
whose closed trades say no are dropped, prices are resolved, the decision is validated against
the keys of the orders on file, order intents are written, and where the paper automation is
unlocked the validated intents are submitted and the positions synced. An exception of the
intent builder or of the submission is swallowed; a cancellation is not.

The closed trades, the quotes and the position sync come from services that are not modelled
here, collected in `FirmFeed` with the process-wide trading controls. The notes of the result
are left out.
-/

namespace Investor.Execution

open Lib Schema Market Risk Universe Core

/-- What the bridge hears from other services, and the process-wide controls. -/
structure FirmFeed where
  controls : Nat → TradingControlState
  engine : DeterministicRiskEngine
  /-- `symbol_close_pnls`. -/
  closePnls : Nat → ServiceAnswer (Dict (List ℚ))
  /-- `fetch_quotes` of the market-data provider. -/
  quotes : List String → Nat → ServiceAnswer (List LiveQuote)
  /-- `PositionManager.sync_from_broker`. -/
  positionSync : Nat → ServiceAnswer Unit

/-- The keyword arguments of `materialize_cio_decision`. -/
structure MaterializeArgs where
  portfolio : PortfolioRiskView
  latestPrices : Dict ℚ
  dataQualityScore : ℚ
  workflowId : Option String
  createIntents : Bool
  allowSubmit : Bool
  entryUniverse : Option (List String)
  horizonBySymbol : Dict String
  blockNewEntries : Bool
  marketSessionClear : Bool
  deriving DecidableEq

structure MaterializeResult where
  validationApproved : Bool
  validationRejections : List String
  intentIds : List Nat
  ordersSubmitted : Nat
  paperAutoSubmitAllowed : Bool
  liveTradingBlocked : Bool
  positionSyncFailed : Bool
  deriving DecidableEq

def MaterializeResult.brokerOrdersSubmitted (r : MaterializeResult) : Bool :=
  decide (0 < r.ordersSubmitted)

section Firm

variable [Casing]

/-- `paper_auto_submit_allowed`. -/
def paperAutoSubmitAllowed (cfg : Settings) : Bool :=
  if cfg.enableLiveTrading then false
  else if Casing.lower cfg.brokerEnvironment = "live" then false
  -- whatever `is_live_trading_allowed` says: live mode never auto-submits from this bridge
  else if cfg.tradingMode = .live then false
  else cfg.enableBrokerOrders && cfg.enableAutomatedExecution && !cfg.requireManualOrderApproval

/-! ## The closed-trade filter -/

def closedTradeBlocks (pnls : Dict (List ℚ)) (plan : SymbolActionPlan) : Bool :=
  plan.action.isBuyEntry &&
    (entryBlockReason ((Dict.get? pnls (Casing.upper plan.symbol)).getD [])).isSome

def closedTradeFilter (pnls : Dict (List ℚ)) (d : CIODecision) : CIODecision :=
  if d.symbolActions.any (closedTradeBlocks pnls) then
    let kept := d.symbolActions.filter fun p => !closedTradeBlocks pnls p
    { d with
      symbolActions := kept
      portfolioAction := portfolioActionFromSymbolActions kept
      reasonNotToTrade := if kept.any (·.action.isBuyEntry) then d.reasonNotToTrade
        else some "closed_trade_block" }
  else d

/-- `{str(a.symbol).upper() for a in decision.symbol_actions if a.symbol}`. -/
def neededSymbols (d : CIODecision) : List String :=
  (((d.symbolActions.map (·.symbol)).filter (· ≠ "")).map Casing.upper).dedup

/-! ## The bridge -/

variable (env : Env) (cfg : Settings) (feed : FirmFeed)

def FirmFeed.validator (tick : Nat) : ExecutionValidator :=
  { settings := cfg, engine := feed.engine, controls := feed.controls tick }

def MaterializeArgs.validateArgs (a : MaterializeArgs) (prices : Dict ℚ) (seen : List String)
    (now : Int) : ValidateArgs :=
  { portfolio := a.portfolio, latestPrices := prices, dataQualityScore := a.dataQualityScore,
    marketSessionClear := a.marketSessionClear, brokerDataConsistent := true,
    seenIdempotencyKeys := seen, workflowId := a.workflowId, entryUniverse := a.entryUniverse,
    horizonBySymbol := a.horizonBySymbol, blockNewEntries := a.blockNewEntries, now }

def executionPrices (needed : List String) (candidates : Dict ℚ) : Prog (Dict ℚ) := do
  if missingPrices cfg needed candidates = [] then
    return resolveExecutionPrices cfg needed candidates []
  else do
    let quotes ← callService env (feed.quotes (missingPrices cfg needed candidates))
    return resolveExecutionPrices cfg needed candidates quotes

/-- The intents of a validated decision; a failure to build them is swallowed. -/
def createIntents (d : CIODecision) (a : MaterializeArgs) (args : ValidateArgs)
    (validation : ExecutionValidationResult) : Prog (List Nat) :=
  if a.createIntents && !validation.intents.isEmpty then do
    let w ← Eff.read
    exceptException (buildIntentsFromDecision env (feed.validator cfg w.ticks) d args)
      fun _ => pure []
  else return []

/-- The submission and the position sync after it: how many orders were made, and whether the
    sync failed. -/
def submitAndSync (d : CIODecision) (validation : ExecutionValidationResult) :
    Prog (Nat × Bool) := do
  let w ← Eff.read
  let made ← submitValidatedIntents env cfg (feed.controls w.ticks) validation (some d.decisionId)
  exceptException (do
    callService env feed.positionSync
    return (made, false)) fun _ => pure (made, true)

def autoSubmit (d : CIODecision) (a : MaterializeArgs) (validation : ExecutionValidationResult) :
    Prog (Nat × Bool) :=
  if a.allowSubmit && paperAutoSubmitAllowed cfg && validation.approved &&
      !validation.intents.isEmpty then
    exceptException (submitAndSync env cfg feed d validation) fun _ => pure (0, false)
  else return (0, false)

/-- The result of a decision with nothing to do, or with no price to do it at. -/
def emptyResult (approved : Bool) (rejections : List String) (blocked : Bool) :
    MaterializeResult :=
  { validationApproved := approved, validationRejections := rejections, intentIds := [],
    ordersSubmitted := 0, paperAutoSubmitAllowed := paperAutoSubmitAllowed cfg,
    liveTradingBlocked := blocked, positionSyncFailed := false }

def materializeAt (d : CIODecision) (a : MaterializeArgs) (prices : Dict ℚ) :
    Prog MaterializeResult := do
  let seen ← query env fun t => t.orders.rows.map (·.idempotencyKey)
  let w ← Eff.read
  let args := a.validateArgs prices seen (env.now w.ticks)
  let validation ← raiseRisk (validate (feed.validator cfg w.ticks) d args)
  let intentIds ← createIntents env cfg feed d a args validation
  let sent ← autoSubmit env cfg feed d a validation
  -- a submission is only tried with broker orders enabled, so a failed sync is always armed
  return { validationApproved := validation.approved
           validationRejections := if sent.2 then validation.rejections ++ ["position_sync_failed"]
             else validation.rejections
           intentIds, ordersSubmitted := sent.1
           paperAutoSubmitAllowed := paperAutoSubmitAllowed cfg, liveTradingBlocked := true
           positionSyncFailed := sent.2 }

/-- `materialize_cio_decision`. -/
def materializeCioDecision (decision : CIODecision) (a : MaterializeArgs) :
    Prog MaterializeResult := do
  let pnls ← callService env feed.closePnls
  let d := closedTradeFilter pnls decision
  if neededSymbols d = [] then return emptyResult cfg true [] false
  else do
    let prices ← executionPrices env cfg feed (neededSymbols d) a.latestPrices
    if requiresLiveMarketPrices cfg && prices.isEmpty then
      return emptyResult cfg false ["live_prices_unavailable"] true
    else materializeAt env cfg feed d a prices

end Firm

variable {d : CIODecision}

theorem riskApproval_closedTradeFilter [Casing] {pnls : Dict (List ℚ)} :
    (closedTradeFilter pnls d).riskApproval = d.riskApproval := by
  unfold closedTradeFilter
  split <;> rfl

/-! ## What the bridge leaves alone -/

section Keeps

variable [Casing] {env : Env} {cfg : Settings} {feed : FirmFeed} {I : World → Prop}

theorem keeps_executionPrices {needed : List String} {candidates : Dict ℚ} (hI : Calm I) :
    Eff.Keeps I (executionPrices env cfg feed needed candidates) :=
  Eff.Keeps.ite Eff.keeps_pure
    (Eff.Keeps.bind (keeps_callService hI) fun _ => Eff.keeps_pure)

variable {a : MaterializeArgs} {validation : ExecutionValidationResult}

theorem keeps_createIntents {args : ValidateArgs} (hI : Calm I) (hfree : IntentsFree I) :
    Eff.Keeps I (createIntents env cfg feed d a args validation) := by
  refine Eff.Keeps.ite (Eff.Keeps.bind Eff.keeps_read fun w => ?_) Eff.keeps_pure
  exact Keeps.exceptException (keeps_buildIntents hI hfree) fun _ => Eff.keeps_pure

theorem submitAndSync_spec {J : World → Prop} (hJ : Calm J)
    (hsubmit : ∀ controls decisionId, Eff.Spec I
      (submitValidatedIntents env cfg controls validation decisionId) (fun _ => J) (fun _ => J)) :
    Eff.Spec I (submitAndSync env cfg feed d validation) (fun _ => J) (fun _ => J) := by
  refine Eff.Spec.bind (M := fun _ => I) (Eff.Spec.read fun _ hw => hw) fun w => ?_
  refine Eff.Spec.bind (hsubmit _ _) fun made => ?_
  refine Keeps.exceptException ?_ fun _ => Eff.keeps_pure
  exact Eff.Keeps.bind (keeps_callService hJ) fun _ => Eff.keeps_pure

theorem keeps_submitAndSync (hI : Calm I) (hsubmit : ∀ controls decisionId,
      Eff.Keeps I (submitValidatedIntents env cfg controls validation decisionId)) :
    Eff.Keeps I (submitAndSync env cfg feed d validation) :=
  submitAndSync_spec hI hsubmit

/-- A batch the bridge may submit: what the validator answers for the decision without the
    entries its closed trades forbid. -/
structure Bridged (cfg : Settings) (feed : FirmFeed) (decision : CIODecision)
    (a : MaterializeArgs) (validation : ExecutionValidationResult) : Prop where
  allowed : a.allowSubmit && paperAutoSubmitAllowed cfg
  validated : ∃ m pnls n args, (feed.closePnls m).reply = .ok pnls ∧
    validate (feed.validator cfg n) (closedTradeFilter pnls decision) args = .ok validation

variable {decision : CIODecision}

theorem materialize_spec_of {J : World → Prop} (hI : Calm I) (hfree : IntentsFree I) (hJ : Calm J)
    (hIJ : ∀ w, I w → J w)
    (hsubmit : ∀ controls validation decisionId, Bridged cfg feed decision a validation →
      Eff.Spec I (submitValidatedIntents env cfg controls validation decisionId)
        (fun _ => J) (fun _ => J)) :
    Eff.Spec I (materializeCioDecision env cfg feed decision a) (fun _ => J) (fun _ => J) := by
  have hends : ∀ {α : Type} {p : Prog α}, Eff.Keeps I p → Eff.Spec I p (fun _ => I) (fun _ => J) :=
    fun h => h.weaken (fun _ hw => hw) (fun _ _ hw => hw) fun _ => hIJ
  have hpure : ∀ {α : Type} {x : α},
      Eff.Spec I (pure x : Prog α) (fun _ => J) (fun _ => J) := Eff.Spec.pure hIJ
  refine Eff.Spec.bind ((callService_spec hI).weaken (fun _ hw => hw) (fun _ _ hw => hw)
    fun _ => hIJ) fun pnls => Eff.Spec.assume fun hpnls => ?_
  obtain ⟨m, hpnls⟩ := hpnls
  refine Eff.Spec.ite (fun _ => hpure) fun _ => ?_
  refine Eff.Spec.bind (hends (keeps_executionPrices hI)) fun prices =>
    Eff.Spec.ite (fun _ => hpure) fun _ => ?_
  refine Eff.Spec.bind (hends (keeps_query hI)) fun seen =>
    Eff.Spec.bind (hends Eff.keeps_read) fun w => ?_
  refine Eff.Spec.bind (raiseRisk_spec.weaken (fun _ h => h) (fun _ _ h => h)
    fun _ w h => hIJ w h.1) fun validation => Eff.Spec.assume fun hvalid => ?_
  refine Eff.Spec.bind (hends (keeps_createIntents hI hfree)) fun ids => ?_
  refine Eff.Spec.bind (M := fun _ => J) ?_ fun sent => Eff.keeps_pure
  refine Eff.Spec.ite (fun hgo => ?_) fun _ => hpure
  simp only [Bool.and_eq_true] at hgo
  have hbridged : Bridged cfg feed decision a validation :=
    ⟨Bool.and_eq_true _ _ ▸ hgo.1.1, m, pnls, _, _, hpnls, hvalid⟩
  exact Eff.Spec.tryCatch (submitAndSync_spec hJ fun controls decisionId =>
    hsubmit controls validation decisionId hbridged) fun e =>
      Eff.Keeps.ite Eff.keeps_pure Eff.keeps_throw

theorem keeps_materialize_of (hI : Calm I) (hfree : IntentsFree I)
    (hsubmit : ∀ controls validation decisionId, Bridged cfg feed decision a validation →
      Eff.Keeps I (submitValidatedIntents env cfg controls validation decisionId)) :
    Eff.Keeps I (materializeCioDecision env cfg feed decision a) :=
  materialize_spec_of hI hfree hI (fun _ hw => hw) hsubmit

theorem keeps_materialize (hI : Calm I) (hfree : IntentsFree I)
    (hsubmit : ∀ controls validation decisionId,
      Eff.Keeps I (submitValidatedIntents env cfg controls validation decisionId)) :
    Eff.Keeps I (materializeCioDecision env cfg feed decision a) :=
  keeps_materialize_of hI hfree fun controls validation decisionId _ =>
    hsubmit controls validation decisionId

end Keeps

end Investor.Execution
