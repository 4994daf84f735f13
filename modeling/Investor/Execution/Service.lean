import Investor.Execution.OrderManager
import Investor.Core.Services

/-!
# The execution service

`ExecutionService.build_intents_from_decision` validates a decision once more, without the
keys of the orders on file, and writes an order intent for every plan that passes. An intent
keeps the key of its plan in its metadata; its own id is new.
-/

namespace Investor.Execution

open Lib Schema Market Risk Universe Core

/-- A `ValueError` of the risk engine. -/
def RiskError.fault : RiskError → Fault
  | .entryPriceNotPositive => .other "entry_price must be positive"
  | .stopDistanceNotPositive => .other "stop distance must be positive"

def raiseRisk {α : Type} : Except RiskError α → Prog α
  | .ok a => pure a
  | .error e => throw (RiskError.fault e)

def optText : Option String → Json
  | some s => .str s
  | none => .null

def optNum : Option ℚ → Json
  | some q => .num q
  | none => .null

section Build

variable [Casing]

/-- `{k.upper(): v for k, v in horizon_by_symbol.items()}`. -/
def upperHorizons (horizonBySymbol : Dict String) : Dict String :=
  Dict.ofPairs (horizonBySymbol.map fun e => (Casing.upper e.1, e.2))

/-- The `exit_policy` of a new intent. -/
def exitPolicyOf (v : ValidatedOrderIntent) (hz : Option String) : Dict Json :=
  [("stop_loss", optNum v.stopPrice),
    ("overnight_allowed", .bool (v.side = .buy && overnightAllowedForHorizon hz)),
    ("closing_policy", .str (if v.side = .buy then closingPolicyForHorizon hz
      else "CLOSE_INTRADAY_ONLY")),
    ("max_holding_time_minutes", match (hz.bind policyFor).bind (·.maxHoldingMinutes) with
      | some m => .num m
      | none => .null),
    ("protection_submitted", .bool false), ("horizon", optText hz)]

/-- The `metadata_json` of a new intent. -/
def intentMetadata (v : ValidatedOrderIntent) (rejections : List String) (hz : Option String) :
    Dict Json :=
  Dict.merge
    [("order_type", .str v.orderType), ("idempotency_key_seed", .str v.idempotencyKey),
      ("validation_rejections", .arr (rejections.map .str)), ("horizon", optText hz),
      ("venue", optText v.venue), ("con_id", match v.conId with | some c => .num c | none => .null)]
    ((v.attribution.getD []).map fun e => (e.1, .str e.2))

def newIntent (v : ValidatedOrderIntent) (rejections : List String) (hz : Option String)
    (workflowId : Option String) (latestPrices : Dict ℚ) (id : Nat) : OrderIntent :=
  { id, decisionId := some v.decisionId, workflowRunId := workflowId,
    symbol := Casing.upper v.symbol,
    intentType := if v.side = .buy then "OPEN_LONG" else "CLOSE_LONG", side := v.side.value,
    quantity := some v.quantity, approvedQuantity := none,
    -- Market entries store last print as reference for pretrade sizing.
    entryPrice := v.limitPrice.or (Dict.get? latestPrices (Casing.upper v.symbol)),
    stopPrice := v.stopPrice, status := "CREATED", clientOrderId := none, approvalId := none,
    thesis := some v.thesis, expiresAt := none, exitPolicy := exitPolicyOf v hz,
    metadata := intentMetadata v rejections hz, updatedAt := none }

def freshIntentId (t : Tables) : Nat := (t.intents.rows.map (·.id)).foldl max 0 + 1

/-- `session.add(intent)`, under a new id. -/
def addIntent (row : Nat → OrderIntent) (t : Tables) : Tables :=
  match t.intents.insert (row (freshIntentId t)) with
  | some intents => { t with intents }
  | none => t

def addIntents (rejections : List String) (horizons : Dict String) (workflowId : Option String)
    (latestPrices : Dict ℚ) : List ValidatedOrderIntent → Prog (List Nat)
  | [] => return []
  | v :: vs => do
    let w ← Eff.read
    let hz := Dict.get? horizons (Casing.upper v.symbol)
    write (addIntent (newIntent v rejections hz workflowId latestPrices))
    let ids ← addIntents rejections horizons workflowId latestPrices vs
    return freshIntentId w.db.working :: ids

/-- `build_intents_from_decision`: the ids of the intents it created. -/
def buildIntentsFromDecision (env : Env) (v : ExecutionValidator) (d : CIODecision)
    (a : ValidateArgs) : Prog (List Nat) := do
  let horizons := upperHorizons a.horizonBySymbol
  let validation ← raiseRisk
    (validate v d { a with seenIdempotencyKeys := [], horizonBySymbol := horizons })
  let ids ← addIntents validation.rejections horizons a.workflowId a.latestPrices
    validation.intents
  flush env
  return ids

end Build

/-! ## What building intents leaves alone -/

section Keeps

variable {env : Env} {I : World → Prop}

def IntentsFree (I : World → Prop) : Prop :=
  ∀ w (f : Tables → IntentTable), I w →
    I { w with db := w.db.write fun t => { t with intents := f t } }

theorem addIntent_eq (row : Nat → OrderIntent) (t : Tables) :
    addIntent row t = { t with intents := t.intents.putNew (row (freshIntentId t)) } := by
  unfold addIntent KeyedTable.putNew
  cases t.intents.insert (row (freshIntentId t)) <;> rfl

theorem addIntent_goes {row : Nat → OrderIntent} (hfree : IntentsFree I) :
    Eff.Goes I (write (addIntent row)) fun _ => I := by
  refine Eff.Spec.edit fun w hw => ?_
  rw [funext (addIntent_eq row)]
  exact hfree w _ hw

theorem addIntents_goes [Casing] {rejections : List String} {horizons : Dict String}
    {workflowId : Option String} {latestPrices : Dict ℚ} (hfree : IntentsFree I)
    (vs : List ValidatedOrderIntent) :
    Eff.Goes I (addIntents rejections horizons workflowId latestPrices vs) fun _ => I := by
  induction vs with
  | nil => exact Eff.Spec.pure fun _ hw => hw
  | cons v vs ih =>
    refine Eff.Spec.bind (M := fun _ => I) (Eff.Spec.read fun _ hw => hw) fun _ => ?_
    refine Eff.Spec.bind (addIntent_goes hfree) fun _ => ?_
    exact Eff.Spec.bind ih fun _ => Eff.Spec.pure fun _ hw => hw

theorem keeps_addIntents [Casing] {rejections : List String} {horizons : Dict String}
    {workflowId : Option String} {latestPrices : Dict ℚ} (hfree : IntentsFree I)
    (vs : List ValidatedOrderIntent) :
    Eff.Keeps I (addIntents rejections horizons workflowId latestPrices vs) :=
  (addIntents_goes hfree vs).weaken (fun _ hw => hw) (fun _ _ hw => hw) fun _ _ hw => hw.elim

theorem raiseRisk_spec {α : Type} {r : Except RiskError α} :
    Eff.Spec I (raiseRisk r) (fun a w => I w ∧ r = .ok a) (fun e w => I w ∧ e.isException) := by
  cases r with
  | ok a => exact Eff.Spec.pure fun w hw => ⟨hw, rfl⟩
  | error e => exact Eff.Spec.throw fun w hw => ⟨hw, by cases e <;> rfl⟩

theorem keeps_raiseRisk {α : Type} {r : Except RiskError α} : Eff.Keeps I (raiseRisk r) :=
  raiseRisk_spec.weaken (fun _ hw => hw) (fun _ _ hw => hw.1) fun _ _ hw => hw.1

theorem keeps_buildIntents [Casing] {v : ExecutionValidator} {d : CIODecision} {a : ValidateArgs}
    (hI : Calm I) (hfree : IntentsFree I) :
    Eff.Keeps I (buildIntentsFromDecision env v d a) := by
  refine Eff.Keeps.bind keeps_raiseRisk fun validation => ?_
  refine Eff.Keeps.bind (keeps_addIntents hfree _) fun ids => ?_
  exact Eff.Keeps.bind (keeps_flush hI) fun _ => Eff.keeps_pure

end Keeps

end Investor.Execution
