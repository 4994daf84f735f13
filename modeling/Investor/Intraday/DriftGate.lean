import Investor.Execution.BridgedIntents
import Investor.Execution.IntentKeys
import Investor.Intraday.ClosingStatus
import Mathlib.Order.Interval.Set.UnorderedInterval

/-!
# The gate for broker drift

While the latest reconciliation shows a broker that drifted, cannot be reached or is not believed,
`submit_intent` refuses every intent that is no exit. Whether it is one is read off its type, or off
a thesis that starts as those of the closing service do; what the account holds is not asked.

Intents are built in three places. The closing service and the intraday service give an exit a type
of an exit. `build_intents_from_decision` goes by the side of the order: a buy is `OPEN_LONG`,
whether it enters or covers a short, and its thesis is the free text of the plan.

So an exit by the type is never refused, and opens exposure if it takes more than is held. The buy
of a decision is refused unless its thesis imitates the closing service, and is judged rightly
exactly if that thesis is there for a cover of what is short, and for nothing else
(`driftRefusal_iff`).
-/

namespace Investor
namespace Execution

open Lib Schema Market Core

/-! ## Exposure -/

/-- The position does not end between nothing and what it was. -/
def OpensOrAdds (held delta : ℚ) : Prop := held + delta ∉ Set.uIcc 0 held

theorem opensOrAdds_buy_iff {held qty : ℚ} (hqty : 0 ≤ qty) :
    OpensOrAdds held qty ↔ max 0 (-held) < qty := by
  unfold OpensOrAdds
  rw [Set.mem_uIcc, max_lt_iff]
  constructor
  · intro hout
    by_contra hin
    refine hout ?_
    rcases hqty.eq_or_lt with rfl | hpos
    · rcases le_total 0 held with h | h
      · exact Or.inl ⟨by linarith, by linarith⟩
      · exact Or.inr ⟨by linarith, by linarith⟩
    · have hcover : qty ≤ -held := not_lt.mp fun h => hin ⟨hpos, h⟩
      exact Or.inr ⟨by linarith, by linarith⟩
  · rintro ⟨hpos, hmore⟩ (⟨_, h⟩ | ⟨_, h⟩) <;> linarith

theorem opensOrAdds_neg {held delta : ℚ} :
    OpensOrAdds held (-delta) ↔ OpensOrAdds (-held) delta := by
  unfold OpensOrAdds
  rw [Set.mem_uIcc, Set.mem_uIcc]
  refine not_congr ⟨?_, ?_⟩
  · rintro (⟨h, h'⟩ | ⟨h, h'⟩)
    · exact Or.inr ⟨by linarith, by linarith⟩
    · exact Or.inl ⟨by linarith, by linarith⟩
  · rintro (⟨h, h'⟩ | ⟨h, h'⟩)
    · exact Or.inr ⟨by linarith, by linarith⟩
    · exact Or.inl ⟨by linarith, by linarith⟩

theorem opensOrAdds_sell_iff {held qty : ℚ} (hqty : 0 ≤ qty) :
    OpensOrAdds held (-qty) ↔ max 0 held < qty := by
  rw [opensOrAdds_neg, opensOrAdds_buy_iff hqty, neg_neg]

section Orders

variable [Casing]

/-- What the order of an intent adds to the position; a quantity that is not positive orders
    nothing. -/
def orderDelta (row : OrderIntent) : ℚ :=
  if Casing.lower row.side = "buy" then max 0 (orderedQty row) else -max 0 (orderedQty row)

def WithinHeld (held : ℚ) (row : OrderIntent) : Prop :=
  orderedQty row ≤ max 0 (if Casing.lower row.side = "buy" then -held else held)

theorem opensOrAdds_orderDelta_iff {held : ℚ} {row : OrderIntent} :
    OpensOrAdds held (orderDelta row) ↔ ¬ WithinHeld held row := by
  have hqty : 0 ≤ max 0 (orderedQty row) := le_max_left ..
  have hmax : ∀ x : ℚ, max 0 x < max 0 (orderedQty row) ↔ ¬ orderedQty row ≤ max 0 x := by
    intro x
    rw [not_le, lt_max_iff]
    exact or_iff_right (not_lt_of_ge (le_max_left ..))
  unfold orderDelta WithinHeld
  split
  · rw [opensOrAdds_buy_iff hqty, hmax]
  · rw [opensOrAdds_sell_iff hqty, hmax]

end Orders

/-! ## What the gate looks at -/

structure IntentTerms where
  intentType : String
  side : String
  thesis : Option String
  deriving DecidableEq

def OrderIntent.terms (row : OrderIntent) : IntentTerms :=
  { intentType := row.intentType, side := row.side, thesis := row.thesis }

/-- The intent `id`, where there is one, has these terms. -/
def TermsIn (id : Nat) (terms : IntentTerms) (t : Tables) : Prop :=
  ∀ row ∈ t.intents.find? id, row.terms = terms

def HasTerms (id : Nat) (terms : IntentTerms) (w : World) : Prop :=
  w.db.broken = false → TermsIn id terms w.db.working

variable {w : World}

section Terms

variable {id : Nat} {terms : IntentTerms} {env : Env}

theorem TermsIn.set {t : Tables} (h : TermsIn id terms t) {k : Nat} {g : OrderIntent → OrderIntent}
    {hg : ∀ r, (g r).id = r.id} (hterms : ∀ r, (g r).terms = r.terms) :
    TermsIn id terms (setIntent k g hg t) := by
  intro row hrow
  rw [Option.mem_def, find_setIntent] at hrow
  obtain ⟨r, hr, rfl⟩ := Option.map_eq_some_iff.mp hrow
  split
  · exact (hterms r).trans (h r hr)
  · exact h r hr

variable {t : Tables} {k : Nat}

theorem TermsIn.status (h : TermsIn id terms t) {status : IntentStatus} :
    TermsIn id terms (setStatus k status t) :=
  h.set fun _ => rfl

theorem TermsIn.approvals (h : TermsIn id terms t) {f : OrderApproval → OrderApproval} :
    TermsIn id terms (setApproval k f t) :=
  h

theorem submitFree_hasTerms : SubmitFree (HasTerms id terms) where
  tick := fun _ h => h
  abort := fun _ _ hb => absurd hb (by simp)
  set := fun _ h => h
  insert := fun _ h => h
  accept := fun _ h => h
  send := fun _ h => h

theorem calm_hasTerms : Calm (HasTerms id terms) := submitFree_hasTerms.toCalm

theorem keeps_writeTerms {f : Tables → Tables}
    (h : ∀ t, TermsIn id terms t → TermsIn id terms (f t)) :
    Eff.Keeps (HasTerms id terms) (write f) :=
  Eff.keeps_edit fun _ hw hb => h _ (hw hb)

theorem keeps_setTerms {g : OrderIntent → OrderIntent} {hg : ∀ r, (g r).id = r.id}
    (hterms : ∀ r, (g r).terms = r.terms) :
    Eff.Keeps (HasTerms id terms) (write (setIntent k g hg)) :=
  keeps_writeTerms fun _ h => h.set hterms

theorem keeps_requireIntent : Eff.Keeps (HasTerms id terms) (requireIntent env k) := by
  refine Eff.Keeps.bind (keeps_query calm_hasTerms) fun found => ?_
  cases found with
  | none => exact Eff.keeps_throw
  | some row => exact Eff.keeps_pure

variable {actor : String}

theorem TermsIn.recordApproval (h : TermsIn id terms t) {now : Int} :
    TermsIn id terms (recordApproval k actor now t) := by
  unfold Execution.recordApproval
  cases latestApproval k t with
  | none => exact h.status
  | some approval =>
    have hacted : TermsIn id terms (setApproval approval.id
        (fun a => { a with status := "APPROVED", actedBy := some actor, actedAt := some now }) t) :=
      h.approvals
    have hlinked : TermsIn id terms (setIntent k
        (fun r => { r with approvalId := some approval.id }) (fun _ => rfl) _) :=
      hacted.set fun _ => rfl
    exact hlinked.status

theorem TermsIn.recordRejection (h : TermsIn id terms t) {now : Int} :
    TermsIn id terms (recordRejection k actor now t) := by
  unfold Execution.recordRejection
  cases latestApproval k t with
  | none => exact h.status
  | some approval => exact h.approvals.status

theorem keeps_approveIntent : Eff.Keeps (HasTerms id terms) (approveIntent env k actor) := by
  refine Eff.Keeps.bind keeps_requireIntent fun row => Eff.Keeps.ite Eff.keeps_throw ?_
  refine Eff.Keeps.bind (keeps_query calm_hasTerms) fun approval => ?_
  refine Eff.Keeps.bind Eff.keeps_read fun w => ?_
  dsimp only
  cases approval.filter fun a => a.expiresAt.any (· < env.now w.ticks) with
  | some expired =>
    refine Eff.Keeps.bind (keeps_writeTerms fun _ h => h) fun _ => ?_
    refine Eff.Keeps.bind (keeps_writeTerms fun _ h => h.status) fun _ => ?_
    exact Eff.Keeps.bind (keeps_flush calm_hasTerms) fun _ => Eff.keeps_throw
  | none =>
    exact Eff.Keeps.bind (keeps_writeTerms fun _ h => h.recordApproval) fun _ =>
      keeps_flush calm_hasTerms

theorem keeps_rejectIntent : Eff.Keeps (HasTerms id terms) (rejectIntent env k actor) := by
  refine Eff.Keeps.bind keeps_requireIntent fun row => ?_
  refine Eff.Keeps.bind (keeps_query calm_hasTerms) fun approval => ?_
  refine Eff.Keeps.bind Eff.keeps_read fun w => ?_
  exact Eff.Keeps.bind (keeps_writeTerms fun _ h => h.recordRejection) fun _ =>
    keeps_flush calm_hasTerms

variable [Casing] {cfg : Settings} {controls : TradingControlState}

theorem keeps_validateIntent {args : ValidateIntentArgs} :
    Eff.Keeps (HasTerms id terms) (validateIntent env cfg controls k args) := by
  refine Eff.Keeps.bind keeps_requireIntent fun row => ?_
  refine Eff.Keeps.bind (keeps_writeTerms fun _ h => h.status) fun _ => ?_
  refine Eff.Keeps.bind Eff.keeps_read fun w => ?_
  dsimp only
  cases Pretrade.validate cfg controls (intentCheck row args (env.now w.ticks)) with
  | none => exact Eff.keeps_throw
  | some result =>
    have hstore : ∀ t, TermsIn id terms t → TermsIn id terms (storeCheck row result t) := by
      intro t h
      have hchecked : TermsIn id terms { t with checks := t.checks ++
          [{ intentId := row.id, decisionId := row.decisionId, result }] } := h
      exact hchecked.set fun _ => rfl
    refine Eff.Keeps.bind (keeps_writeTerms hstore) fun _ => ?_
    refine Eff.Keeps.bind (keeps_writeTerms fun _ h => h.status) fun _ => ?_
    refine Eff.Keeps.ite ?_ (keeps_flush calm_hasTerms)
    exact Eff.Keeps.bind (keeps_writeTerms fun _ h => h) fun _ => keeps_flush calm_hasTerms

variable {key : String}

theorem keeps_placeIntent {row : OrderIntent} :
    Eff.Keeps (HasTerms id terms) (placeIntent env cfg row key) := by
  refine Eff.Keeps.bind (keeps_setTerms fun _ => rfl) fun _ => Eff.Keeps.ite ?_ ?_
  · refine Eff.Keeps.bind (keeps_writeTerms fun _ h => h.status) fun _ => ?_
    exact Eff.Keeps.bind (keeps_flush calm_hasTerms) fun _ => Eff.keeps_throw
  refine Eff.Keeps.bind Eff.keeps_read fun w => ?_
  refine Eff.Keeps.bind (keeps_addOrder submitFree_hasTerms) fun _ => ?_
  refine Eff.Keeps.bind (keeps_flush calm_hasTerms) fun _ => Eff.Keeps.tryCatch ?_ fun e => ?_
  · refine Eff.Keeps.bind (keeps_brokerSubmit submitFree_hasTerms) fun result => ?_
    refine Eff.Keeps.bind (keeps_writeTerms fun _ h => h) fun _ => ?_
    exact Eff.Keeps.bind (keeps_setTerms fun _ => rfl) fun _ => keeps_flush calm_hasTerms
  · have hwritten : ∀ (f : Order → Order) (hf : ∀ r, (f r).idempotencyKey = r.idempotencyKey)
        (e : Fault), Eff.Keeps (HasTerms id terms) (do
          write (setOrder key f hf)
          write (setStatus row.id .failed)
          flush env
          throw e : Prog Unit) := by
      intro f hf e
      refine Eff.Keeps.bind (keeps_writeTerms fun _ h => h) fun _ => ?_
      refine Eff.Keeps.bind (keeps_writeTerms fun _ h => h.status) fun _ => ?_
      exact Eff.Keeps.bind (keeps_flush calm_hasTerms) fun _ => Eff.keeps_throw
    cases e with
    | cancelled => exact Eff.keeps_throw
    | timeout => exact hwritten _ _ _
    | broker message => exact hwritten _ _ _
    | workflow message => exact hwritten _ _ _
    | other message => exact hwritten _ _ _

theorem keeps_dispatchIntent {row : OrderIntent} :
    Eff.Keeps (HasTerms id terms) (dispatchIntent env cfg row key) := by
  have hlook : Eff.Keeps (HasTerms id terms) (remoteOrder env key) := by
    unfold remoteOrder
    cases env.clientOrders with
    | none => exact Eff.keeps_pure
    | some lookup =>
      refine Eff.Keeps.bind (keeps_suspend calm_hasTerms) fun _ => ?_
      refine Eff.Keeps.bind Eff.keeps_read fun w => ?_
      cases lookup w.ticks key with
      | ok remote => exact Eff.keeps_pure
      | error e => exact Eff.keeps_throw
  refine Eff.Keeps.bind hlook fun remote => ?_
  cases remote with
  | none => exact keeps_placeIntent
  | some remote =>
    refine Eff.Keeps.bind Eff.keeps_read fun w => ?_
    refine Eff.Keeps.bind (keeps_addOrder submitFree_hasTerms) fun _ => ?_
    exact Eff.Keeps.bind (keeps_setTerms fun _ => rfl) fun _ => keeps_flush calm_hasTerms

theorem keeps_gateIntent {row : OrderIntent} :
    Eff.Keeps (HasTerms id terms) (gateIntent env cfg controls row key) := by
  refine Eff.Keeps.bind Eff.keeps_read fun w => ?_
  dsimp only
  cases Pretrade.validate cfg controls (finalCheck cfg row (env.now w.ticks)) with
  | none => exact Eff.keeps_throw
  | some hard =>
    refine Eff.Keeps.ite ?_ ?_
    · refine Eff.Keeps.bind (keeps_writeTerms fun _ h => h.status) fun _ => ?_
      exact Eff.Keeps.bind (keeps_flush calm_hasTerms) fun _ => Eff.keeps_throw
    · refine Eff.Keeps.ite ?_ keeps_dispatchIntent
      exact Eff.Keeps.bind (keeps_setTerms fun _ => rfl) fun _ => keeps_dispatchIntent

variable {digest : String → String}

theorem keeps_submitIntent {attempt : Int} {latestRecon : Option String} :
    Eff.Keeps (HasTerms id terms) (submitIntent env cfg digest controls k attempt latestRecon) := by
  refine Eff.Keeps.bind keeps_requireIntent fun row => ?_
  cases submitGate cfg controls with
  | some message => exact Eff.keeps_throw
  | none =>
    refine Eff.Keeps.ite Eff.keeps_throw ?_
    refine Eff.Keeps.bind (keeps_query calm_hasTerms) fun existing => ?_
    refine Eff.Keeps.ite Eff.keeps_pure (Eff.Keeps.ite Eff.keeps_throw ?_)
    cases reconciliationBlocks latestRecon row with
    | some message => exact Eff.keeps_throw
    | none => exact keeps_gateIntent

theorem terms_step {op : IntentOp} (h : HasTerms id terms w) :
    HasTerms id terms (intentStep env cfg digest k w op) := by
  cases op with
  | validate controls args => exact keeps_validateIntent.at_end h
  | approve actor => exact keeps_approveIntent.at_end h
  | reject actor => exact keeps_rejectIntent.at_end h
  | submit controls attempt latestRecon => exact keeps_submitIntent.at_end h

theorem terms_run {ops : List IntentOp} (h : HasTerms id terms w) :
    HasTerms id terms (runFrom (intentStep env cfg digest k) w ops) :=
  run_invariant (fun _ _ h => terms_step h) h

end Terms

/-! ## The gate -/

/-- One call of `submit_intent`, and what the latest reconciliation came to. -/
structure SubmitCall where
  env : Env
  settings : Settings
  digest : String → String
  controls : TradingControlState
  id : Nat
  attempt : Int
  latestRecon : Option String

def BLOCKING_RESULTS : List String :=
  ["MATERIAL_DRIFT", "BROKER_UNAVAILABLE", "LOCAL_STATE_INVALID"]

def closingThesis (thesis : String) : Bool :=
  hasPrefix thesis "closing:" || hasPrefix thesis "force_close:"

section Gate

def SubmitCall.run [Casing] (c : SubmitCall) : Prog Unit :=
  submitIntent c.env c.settings c.digest c.controls c.id c.attempt c.latestRecon

def SubmitCall.after [Casing] (c : SubmitCall) (w : World) (ops : List IntentOp) : World :=
  runFrom (intentStep c.env c.settings c.digest c.id) w ops

def SubmitCall.Drifts (c : SubmitCall) : Prop := ∃ result ∈ c.latestRecon, result ∈ BLOCKING_RESULTS

/-- The call comes to the gate: the intent is approved and not on file, no earlier gate is shut, and
    the two awaits until there are not cut. -/
structure SubmitCall.ReachesGate (c : SubmitCall) (w : World) (row : OrderIntent) : Prop
    extends Submits c.digest c.id c.attempt w row where
  gates : submitGate c.settings c.controls = none
  uncut : (w.timed && c.env.cut w.ticks) = false
  uncut' : (w.timed && c.env.cut (w.ticks + 1)) = false

/-- The gate refuses the intent: its message is raised, and nothing is written or sent. -/
def SubmitCall.RefusedForDrift [Casing] (c : SubmitCall) (w : World) : Prop :=
  ∃ row message, w.db.working.intents.find? c.id = some row ∧
    reconciliationBlocks c.latestRecon row = some message ∧
    (c.run w).1 = .error (.broker message) ∧ (c.run w).2.accepted = w.accepted ∧
    (c.run w).2.db = w.db

variable {c : SubmitCall}

theorem reconciliationBlocks_isSome_iff {row : OrderIntent} :
    (∃ message, reconciliationBlocks c.latestRecon row = some message) ↔
      c.Drifts ∧ intentIsExit row = false := by
  unfold reconciliationBlocks SubmitCall.Drifts
  cases c.latestRecon with
  | none => simp
  | some result => simp [BLOCKING_RESULTS, Option.filter_some]

theorem run_of_reachesGate [Casing] {row : OrderIntent} (h : c.ReachesGate w row) :
    c.run w = (match reconciliationBlocks c.latestRecon row with
      | some message => throw (.broker message)
      | none => gateIntent c.env c.settings c.controls row
          (makeClientOrderId c.digest row c.attempt) : Prog Unit) w.tick.tick := by
  have hquery : query c.env (fun t => t.intents.find? c.id) w = (.ok (some row), w.tick) := by
    rw [query_goes h.usable h.uncut, h.found]
  have hfound : requireIntent c.env c.id w = (.ok row, w.tick) := Eff.bind_of_ok hquery
  have hnone : w.db.working.orders.find? (makeClientOrderId c.digest row c.attempt) = none :=
    KeyedTable.find?_eq_none_iff.mpr h.fresh
  have hexisting : query c.env (fun t => t.orders.find?
      (makeClientOrderId c.digest row c.attempt)) w.tick = (.ok none, w.tick.tick) := by
    have husable : w.tick.db.broken = false := h.usable
    have huncut : (w.tick.timed && c.env.cut w.tick.ticks) = false := h.uncut'
    rw [query_goes husable huncut, World.db_tick, hnone]
  refine (Eff.bind_of_ok hfound).trans ?_
  rw [h.gates]
  dsimp only
  rw [if_neg (by rw [h.approved]; decide)]
  refine (Eff.bind_of_ok hexisting).trans ?_
  refine (congrFun (if_neg (by simp)) w.tick.tick).trans ?_
  exact congrFun (if_neg (by rw [h.approved]; decide)) w.tick.tick

theorem refusedForDrift_iff [Casing] {row : OrderIntent} (h : c.ReachesGate w row) :
    c.RefusedForDrift w ↔ c.Drifts ∧ intentIsExit row = false := by
  rw [← reconciliationBlocks_isSome_iff]
  constructor
  · rintro ⟨row', message, hfound, hblocks, -⟩
    obtain rfl := Option.some.inj (h.found.symm.trans hfound)
    exact ⟨message, hblocks⟩
  · rintro ⟨message, hblocks⟩
    have hrun : c.run w = (.error (.broker message), w.tick.tick) := by
      rw [run_of_reachesGate h, hblocks]
      rfl
    exact ⟨row, message, h.found, hblocks, by rw [hrun], by rw [hrun]; rfl, by rw [hrun]; rfl⟩

end Gate

end Execution

namespace Intraday

open Lib Schema Market Risk Execution Universe Workflow Core

/-! ## The exits of the intraday service -/

/-- What `_exit_intent` is given beside the lifecycle. -/
structure ExitCall where
  settings : WorkflowSettings
  autoExecuteHardStops : Bool
  controls : TradingControlState
  reason : String
  qty : ℚ
  reduceFraction : Option ℚ

/-- `can_approve`. -/
def IntradayOperationMode.canApprove : IntradayOperationMode → Bool
  | .manualApproval | .paperAutomated => true
  | _ => false

def ExitCall.exitQty (c : ExitCall) : ℚ :=
  match c.reduceFraction with
  | none => c.qty
  | some fraction => max 0 (c.qty * fraction)

variable {i : ValidatedOrderIntent}

section Exits

section

variable [Casing]

def ExitCall.mode (c : ExitCall) : IntradayOperationMode :=
  resolveMode c.settings (if c.controls.state = .emergencyStop then .emergencyStop else .active)

/-- `_should_auto_submit_hard_stops`. -/
def ExitCall.shouldAutoSubmitHardStops (c : ExitCall) : Bool :=
  (decide (Casing.upper c.settings.intradayOperationMode = "PAPER_AUTOMATED") ||
    c.autoExecuteHardStops) && c.mode.canSubmit && paperAutoSubmitAllowed c.settings.toSettings

/-- The status of the intent: hard stops wait for approval unless they are submitted at once. -/
def ExitCall.status (c : ExitCall) : String :=
  if c.reason = "hard_stop" ∧ c.shouldAutoSubmitHardStops = false then
    IntentStatus.pendingApproval.value
  else if c.mode.canApprove then IntentStatus.created.value
  else "DRAFT"

/-- The row that `_exit_intent` adds. -/
def intradayExitRow (c : ExitCall) (l : HeldLifecycle) (id : ℕ) : OrderIntent :=
  { id, decisionId := l.decisionId, workflowRunId := none, symbol := l.symbol
    intentType := if c.reduceFraction.isNone then "CLOSE_LONG" else "REDUCE_LONG"
    side := "sell", quantity := some c.exitQty, approvedQuantity := none
    entryPrice := l.currentPrice, stopPrice := l.stopPrice, status := c.status
    clientOrderId := none, approvalId := none, thesis := some c.reason, expiresAt := none
    exitPolicy := l.exitPolicy
    metadata := [("source", .str "intraday"), ("reason", .str c.reason),
      ("lifecycle_id", .str l.uuid.text),
      ("venue", .str (if l.venue = "" then
        (venueForSymbol l.symbol c.settings.toSettings none).value else l.venue)),
      ("con_id", match l.conId.filter (· ≠ 0) with | some id => .num id | none => .null)]
    updatedAt := none }

/-- `_exit_intent`: the lifecycle with its new status and the row, where one is added. -/
def addExitIntent (c : ExitCall) (l : HeldLifecycle) (id : ℕ) :
    HeldLifecycle × Option OrderIntent :=
  if c.mode.canCreateIntent = false ∧ c.mode ≠ .observeOnly then (l, none)
  else if c.exitQty ≤ 0 then (l, none)
  else if c.mode.intentsAreDraftOnly then (l, none)
  else
    ({ l with status := if c.reduceFraction.isNone then .pendingClose else .reducing },
      some (intradayExitRow c l id))

/-! ## Where intents come from -/

/-- What an intent is built from: a plan of a decision, a plan of the closing service, or a
    lifecycle that is to be left. -/
inductive IntentSource
  | decision (v : ExecutionValidator) (d : CIODecision) (a : ValidateArgs)
      (plan : SymbolActionPlan)
  | closing (c : ClosingCall) (l : HeldLifecycle) (plan : PositionClosePlan)
  | intraday (c : ExitCall) (l : HeldLifecycle)

def IntentSource.Builds : IntentSource → OrderIntent → Prop
  | .decision v d a plan, row => ¬ plan.action.isInformational ∧ ∃ r i,
      validate v d a.again = .ok r ∧ ReleasedFor v d a.again plan i ∧
        row = newIntent i r.rejections
          (Dict.get? (upperHorizons a.horizonBySymbol) (Casing.upper i.symbol)) a.workflowId
          a.latestPrices row.id
  | .closing c l plan, row => row = exitIntent c l plan row.id
  | .intraday c l, row => (addExitIntent c l row.id).2 = some row

def sellsLong (a : ValidateArgs) (plan : SymbolActionPlan) : Prop :=
  plan.action.isExit ∧
    ∃ p, existingPosition a.portfolio.positions (Casing.upper plan.symbol) = some p ∧ 0 < p.quantity

/-- When the gate judges an intent rightly. An exit of a long and an exit by its type may not take
    more than is held; a buy of a decision must have a closing thesis exactly if it covers. -/
def IntentSource.JudgedRightly : IntentSource → ℚ → OrderIntent → Prop
  | .decision _ _ a plan, held, row =>
    (sellsLong a plan → WithinHeld held row) ∧
      (¬ sellsLong a plan → (closingThesis plan.thesis ↔ WithinHeld held row))
  | .closing .., held, row => WithinHeld held row
  | .intraday .., held, row => WithinHeld held row

end

/-! ## The builders build from there -/

/-- The intents that are new since are in `P`. -/
def BuiltSince (P : OrderIntent → Prop) (w₀ w : World) : Prop :=
  w.db.broken = false →
    ∀ row ∈ w.db.working.intents.rows, row ∈ w₀.db.working.intents.rows ∨ P row

theorem calm_builtSince {P : OrderIntent → Prop} {w₀ : World} : Calm (BuiltSince P w₀) where
  tick := fun _ h => h
  abort := fun _ _ hb => absurd hb (by simp)

theorem addIntents_built [Casing] {P : OrderIntent → Prop} {w₀ : World} {rejections : List String}
    {horizons : Dict String} {workflowId : Option String} {latestPrices : Dict ℚ}
    {vs : List ValidatedOrderIntent}
    (h : ∀ i ∈ vs, ∀ id, P (newIntent i rejections (Dict.get? horizons (Casing.upper i.symbol))
      workflowId latestPrices id)) :
    Eff.Goes (BuiltSince P w₀) (addIntents rejections horizons workflowId latestPrices vs)
      fun _ => BuiltSince P w₀ := by
  induction vs with
  | nil => exact Eff.Spec.pure fun _ hw => hw
  | cons i vs ih =>
    rw [List.forall_mem_cons] at h
    refine Eff.Spec.bind (M := fun _ => BuiltSince P w₀) (Eff.Spec.read fun _ hw => hw)
      fun _ => ?_
    refine Eff.Spec.bind (M := fun _ => BuiltSince P w₀) (Eff.Spec.edit fun w hw hb row hrow => ?_)
      fun _ => Eff.Spec.bind (ih h.2) fun _ => Eff.Spec.pure fun _ hw => hw
    change row ∈ (addIntent _ w.db.working).intents.rows at hrow
    rw [addIntent_eq] at hrow
    rcases KeyedTable.mem_putNew hrow with hold | rfl
    · exact hw hb row hold
    · exact Or.inr (h.1 _)

def FromPlan [Casing] (v : ExecutionValidator) (d : CIODecision) (a : ValidateArgs) (row : OrderIntent) :
    Prop :=
  ∃ plan, (IntentSource.decision v d a plan).Builds row

/-- **However a decision ends, each intent it adds is built from one of its plans.** -/
theorem buildIntents_built [Casing] {env : Env} {v : ExecutionValidator} {d : CIODecision}
    {a : ValidateArgs} {w₀ : World} :
    Eff.Spec (· = w₀) (buildIntentsFromDecision env v d a)
      (fun _ => BuiltSince (FromPlan v d a) w₀) (fun _ => BuiltSince (FromPlan v d a) w₀) := by
  have hstart : ∀ w, w = w₀ → BuiltSince (FromPlan v d a) w₀ w := by
    rintro w rfl hb row hrow
    exact Or.inl hrow
  refine Eff.Spec.bind (raiseRisk_spec.weaken (fun _ hw => hw) (fun _ _ hw => hw)
    fun _ _ hw => hstart _ hw.1) fun r => Eff.Spec.assume fun hval => ?_
  refine Eff.Spec.bind (M := fun _ => BuiltSince (FromPlan v d a) w₀) ?_ fun ids => ?_
  · refine (addIntents_built fun i hi id => ?_).weaken hstart (fun _ _ hw => hw)
      fun _ _ hw => hw.elim
    obtain ⟨plan, hplan, hinf, seen, -, hmade⟩ := planned_of_validate hval hi
    exact ⟨plan, hinf, r, i, hval, ⟨hplan, ⟨seen, hmade⟩, ⟨r, hval, hi⟩⟩, rfl⟩
  · exact Eff.Spec.bind (keeps_flush calm_builtSince) fun _ => Eff.Spec.pure fun _ hw => hw

/-! ## What the gate makes of them -/

theorem exitIntentType_mem (action : CloseAction) (isShort : Bool) :
    exitIntentType action isShort ∈ EXIT_INTENT_TYPES := by
  cases action <;> cases isShort <;> decide

theorem intradayExitRow_of_builds [Casing] {c : ExitCall} {l : HeldLifecycle} {id : ℕ} {row : OrderIntent}
    (h : (addExitIntent c l id).2 = some row) : row = intradayExitRow c l id := by
  unfold addExitIntent at h
  split at h
  · cases h
  · split at h
    · cases h
    · split at h
      · cases h
      · exact (Option.some.inj h).symm

theorem intentIsExit_of_type {row : OrderIntent} (h : row.intentType ∈ EXIT_INTENT_TYPES) :
    intentIsExit row = true := by
  unfold intentIsExit
  rw [List.contains_iff_mem.mpr h]
  rfl

theorem intentIsExit_congr {row row' : OrderIntent} (h : row.terms = row'.terms) :
    intentIsExit row = intentIsExit row' := by
  unfold OrderIntent.terms at h
  obtain ⟨htype, -, hthesis⟩ := IntentTerms.mk.inj h
  unfold intentIsExit
  rw [htype, hthesis]

variable [Casing]

theorem sells_iff {v : ExecutionValidator} {d : CIODecision} {plan : SymbolActionPlan}
    {a : ValidateArgs} {s : PlanScope} {seen : List String} (hinf : ¬ plan.action.isInformational)
    (h : validatePlan v d plan a s seen = .ok (.intent i)) : i.side = .sell ↔ sellsLong a plan := by
  obtain ⟨price, -, -, hsize, -⟩ := terms_of_validatePlan h
  unfold sellsLong
  by_cases hexit : plan.action.isExit
  · rw [planSize, if_neg (SymbolAction.not_isEntry_of_isExit hexit)] at hsize
    obtain ⟨q, -, hq, -, hside⟩ := exitSize_ok_iff.mp (Except.ok.inj hsize)
    obtain ⟨p, hp, rfl⟩ := Option.map_eq_some_iff.mp hq
    rw [hside, exitSide_eq_sell]
    constructor
    · intro hpos
      exact ⟨hexit, p, hp, hpos⟩
    · rintro ⟨-, p', hp', hpos⟩
      obtain rfl := Option.some.inj (hp.symm.trans hp')
      exact hpos
  · rw [(planSize_entry (SymbolAction.isEntry_of_not hexit hinf) hsize).1]
    constructor
    · intro hside
      cases hside
    · intro hlong
      exact absurd hlong.1 hexit

theorem intentIsExit_newIntent {rejections : List String} {hz workflowId : Option String}
    {latestPrices : Dict ℚ} {id : ℕ} :
    intentIsExit (newIntent i rejections hz workflowId latestPrices id) = true ↔
      i.side = .sell ∨ closingThesis i.thesis := by
  cases hside : i.side with
  | sell =>
    have htype : (newIntent i rejections hz workflowId latestPrices id).intentType =
        "CLOSE_LONG" := if_neg (by rw [hside]; decide)
    refine iff_of_true (intentIsExit_of_type ?_) (Or.inl rfl)
    rw [htype]
    decide
  | buy =>
    have htype : (newIntent i rejections hz workflowId latestPrices id).intentType =
        "OPEN_LONG" := if_pos hside
    have hthesis : (newIntent i rejections hz workflowId latestPrices id).thesis.getD "" =
        i.thesis := rfl
    unfold intentIsExit
    rw [htype, hthesis, Bool.or_assoc]
    simp [EXIT_INTENT_TYPES, closingThesis]

/-- The gate judges rightly exactly if the exits are what the holding covers. -/
theorem judgedRightly_iff {source : IntentSource} {held : ℚ} {built row : OrderIntent}
    (hbuilt : source.Builds built) (hterms : row.terms = built.terms) :
    source.JudgedRightly held row ↔ (intentIsExit row = true ↔ WithinHeld held row) := by
  rw [intentIsExit_congr hterms]
  cases source with
  | decision v d a plan =>
    obtain ⟨hinf, r, i, -, hreleased, hrow⟩ := hbuilt
    obtain ⟨seen, hval⟩ := hreleased.made
    obtain ⟨-, -, -, -, -, -, hthesis⟩ := terms_of_validatePlan hval
    have hsells : i.side = .sell ↔ sellsLong a plan := sells_iff (a := a.again) hinf hval
    rw [hrow, intentIsExit_newIntent, hsells, hthesis]
    unfold IntentSource.JudgedRightly
    by_cases hlong : sellsLong a plan
    · simp [hlong]
    · simp [hlong]
  | closing c l plan =>
    have hrow : built = exitIntent c l plan built.id := hbuilt
    rw [hrow, intentIsExit_of_type (exitIntentType_mem ..)]
    simp [IntentSource.JudgedRightly]
  | intraday c l =>
    have htype : (intradayExitRow c l built.id).intentType ∈ EXIT_INTENT_TYPES := by
      unfold intradayExitRow
      dsimp only
      split <;> decide
    rw [intradayExitRow_of_builds hbuilt, intentIsExit_of_type htype]
    simp [IntentSource.JudgedRightly]

/-- **When drift refuses exactly the intents that open or add exposure.** Exactly if the gate judges
    them rightly: an exit of a long, and an exit of the closing or the intraday service, orders no
    more than is held; and a buy of a decision has a closing thesis if it covers, and only then. -/
theorem driftRefusal_iff (c : SubmitCall) (source : IntentSource) (held : ℚ) (w₀ : World)
    (ops : List IntentOp) (built row : OrderIntent) (hbuilt : source.Builds built)
    (hfile : w₀.db.working.intents.find? c.id = some built)
    (hgate : c.ReachesGate (c.after w₀ ops) row) :
    (c.RefusedForDrift (c.after w₀ ops) ↔ c.Drifts ∧ OpensOrAdds held (orderDelta row)) ↔
      (c.Drifts → source.JudgedRightly held row) := by
  have hterms : row.terms = built.terms := by
    have hfirst : HasTerms c.id built.terms w₀ := by
      intro _ row₀ hrow₀
      rw [Option.some.inj (hfile.symm.trans hrow₀)]
    exact terms_run hfirst hgate.usable row hgate.found
  rw [refusedForDrift_iff hgate, opensOrAdds_orderDelta_iff, judgedRightly_iff hbuilt hterms]
  by_cases hdrifts : c.Drifts
  · simp [hdrifts, not_iff_not, ← Bool.not_eq_true]
  · simp [hdrifts]

end Exits

/-! ## A cover that is refused -/

section Sample

attribute [local instance] asciiCasing

def coverSource : IntentSource :=
  .decision mockValidator (decisionOf .sell [Schema.planOf "AAPL" .sell])
    (argsOf (bookOf 2500 [rowOf "AAPL" (-10) "US"])) (Schema.planOf "AAPL" .sell)

def entrySource : IntentSource :=
  .decision mockValidator (decisionOf .buy [Schema.planOf "AAPL" .buy]) (argsOf (bookOf 2500 []))
    (Schema.planOf "AAPL" .buy)

def builtRow (i : ValidatedOrderIntent) : OrderIntent :=
  newIntent i [] none (some "wf") [("AAPL", 100), ("MSFT", 100)] 1

def builtWorld (i : ValidatedOrderIntent) : World :=
  { emptyWorld with
    db := Session.fresh
      { emptyWorld.db.working with intents := ⟨[builtRow i], List.nodup_singleton _⟩ } }

def driftCall : SubmitCall :=
  { env := acceptingEnv fun _ => false, settings := mockSettings, digest := reversed
    controls := freshWorld.controls, id := 1, attempt := 1, latestRecon := some "MATERIAL_DRIFT" }

def checkedWorld (i : ValidatedOrderIntent) : World :=
  driftCall.after (builtWorld i) [checkWith 25000]

def checkedRow (i : ValidatedOrderIntent) : OrderIntent :=
  ((checkedWorld i).db.working.intents.find? 1).getD (builtRow i)

theorem coverSource_builds : coverSource.Builds (builtRow coverIntent) :=
  ⟨by decide, { approved := true, intents := [coverIntent], rejections := [] }, coverIntent,
    by decide +kernel, @releasedFor_single _ _ _ _ _ [] rfl (by decide +kernel) (by decide +kernel),
    rfl⟩

theorem entrySource_builds : entrySource.Builds (builtRow aaplIntent) :=
  ⟨by decide, { approved := true, intents := [aaplIntent], rejections := [] }, aaplIntent,
    by decide +kernel, @releasedFor_single _ _ _ _ _ [] rfl (by decide +kernel) (by decide +kernel),
    rfl⟩

theorem reachesGate_checked (hi : i = coverIntent ∨ i = aaplIntent) :
    driftCall.ReachesGate (checkedWorld i) (checkedRow i) := by
  have hsome : ((checkedWorld i).db.working.intents.find? 1).isSome := by
    rcases hi with rfl | rfl <;> decide +kernel
  refine ⟨⟨?_, ?_, ?_, ?_⟩, by decide, ?_, ?_⟩
  · rcases hi with rfl | rfl <;> decide +kernel
  · obtain ⟨row, hrow⟩ := Option.isSome_iff_exists.mp hsome
    unfold checkedRow
    rw [hrow]
    exact hrow
  · rcases hi with rfl | rfl <;> decide +kernel
  · refine KeyedTable.find?_eq_none_iff.mp (Option.isNone_iff_eq_none.mp ?_)
    rcases hi with rfl | rfl <;> decide +kernel
  · exact Bool.and_false _
  · exact Bool.and_false _

/-- **A cover of a short is refused under drift.** -/
theorem driftRefusal_cover :
    ¬ ∀ (c : SubmitCall) (source : IntentSource) (held : ℚ) (w₀ : World) (ops : List IntentOp)
      (built row : OrderIntent), source.Builds built →
        w₀.db.working.intents.find? c.id = some built → c.ReachesGate (c.after w₀ ops) row →
          (c.RefusedForDrift (c.after w₀ ops) ↔ c.Drifts ∧ OpensOrAdds held (orderDelta row)) := by
  intro hall
  have hgate := reachesGate_checked (Or.inl rfl)
  have hcover := hall driftCall coverSource (-10) (builtWorld coverIntent) [checkWith 25000]
    (builtRow coverIntent) (checkedRow coverIntent) coverSource_builds rfl hgate
  have hrefused : driftCall.RefusedForDrift (checkedWorld coverIntent) :=
    (refusedForDrift_iff hgate).mpr ⟨⟨_, rfl, by decide⟩, by decide +kernel⟩
  refine opensOrAdds_orderDelta_iff.mp (hcover.mp hrefused).2 ?_
  unfold WithinHeld
  decide +kernel

theorem driftRefusal_iff_entry :
    (driftCall.RefusedForDrift (checkedWorld aaplIntent) ↔
      driftCall.Drifts ∧ OpensOrAdds 0 (orderDelta (checkedRow aaplIntent))) ↔
      (driftCall.Drifts → entrySource.JudgedRightly 0 (checkedRow aaplIntent)) :=
  driftRefusal_iff driftCall entrySource 0 (builtWorld aaplIntent) [checkWith 25000]
    (builtRow aaplIntent) (checkedRow aaplIntent) entrySource_builds rfl
    (reachesGate_checked (Or.inr rfl))

end Sample

end Intraday
end Investor
