import Investor.Agents.ReplyShapes

/-!
# The agents' models, and what is kept of a reply

A model is the list of its fields. Of a field the sanitizer reads the name, whether it is
required, and the shape of its annotation: a list of texts, a list of models, another list, a
model, or anything else (an optional annotation counts as the one inside it).
-/

namespace Investor.Agents.Reply

open Lib Schema Market Universe

/-- What `prune_to_model` sees of an annotation. -/
inductive FieldKind
  | plain
  | plainList
  | texts
  | model (fields : List (String × Bool × FieldKind))
  | models (fields : List (String × Bool × FieldKind))

abbrev ModelFields := List (String × Bool × FieldKind)

namespace FieldKind

end FieldKind

/-! ## The models -/

def traceFields : ModelFields :=
  [("source_data_timestamp", false, .plain), ("source_names", false, .texts),
    ("agent_version", false, .plain), ("prompt_version", false, .plain),
    ("prompt_sha256", false, .plain), ("schema_version", false, .plain),
    ("model_name", false, .plain), ("model_parameters", false, .plain),
    ("token_usage", false, .plain), ("latency_ms", false, .plain),
    ("decision_timestamp", false, .plain), ("run_id", false, .plain), ("book", false, .plain)]

def priceZoneFields : ModelFields := [("min", true, .plain), ("max", true, .plain)]

def scenarioFields : ModelFields :=
  [("name", true, .plain), ("description", true, .plain), ("probability", true, .plain),
    ("target_price", false, .plain)]

def symbolActionPlanFields : ModelFields :=
  [("symbol", true, .plain), ("action", true, .plain), ("confidence", true, .plain),
    ("target_position_pct", true, .plain), ("order_type", false, .plain),
    ("entry_zone", false, .model priceZoneFields), ("stop_loss", false, .plain),
    ("take_profit", false, .plainList), ("time_horizon", false, .plain), ("thesis", true, .plain),
    ("invalidation", true, .plain), ("max_holding_time_minutes", false, .plain),
    ("entry_timing", false, .plain), ("entry_source", false, .plain),
    ("trend_at_entry", false, .plain)]

def symbolQuantViewFields : ModelFields :=
  [("symbol", true, .plain), ("trend_state", true, .plain), ("momentum_state", true, .plain),
    ("volatility_state", true, .plain), ("breadth_state", false, .plain),
    ("liquidity_state", true, .plain), ("support", false, .plain), ("resistance", false, .plain),
    ("entry_zone", false, .model priceZoneFields), ("stop_or_invalidation", false, .plain),
    ("upside_scenario", false, .model scenarioFields),
    ("downside_scenario", false, .model scenarioFields), ("probability_estimate", true, .plain),
    ("probability_basis", true, .plain), ("notes", false, .texts), ("entry_timing", false, .plain)]

def marketEventFields : ModelFields :=
  [("headline", true, .plain), ("source", true, .plain), ("published_at", true, .plain),
    ("symbols", false, .texts), ("category", false, .plain), ("importance", true, .plain),
    ("sentiment", false, .plain), ("facts", false, .texts), ("uncertainties", false, .texts),
    ("interpretation", false, .plain)]

def sectorImpactFields : ModelFields :=
  [("sector", true, .plain), ("bias", true, .plain), ("rationale", true, .plain)]

def tradeRiskAdjustmentFields : ModelFields :=
  [("symbol", true, .plain), ("original_quantity", false, .plain),
    ("approved_quantity", false, .plain), ("verdict", true, .plain), ("reasons", false, .texts)]

def watchlistProposalFields : ModelFields :=
  [("symbol", true, .plain), ("horizon", true, .plain), ("action", true, .plain),
    ("priority", false, .plain), ("thesis", false, .plain), ("invalidation", false, .plain),
    ("rationale", false, .plain)]

inductive AgentModel
  | cioDecision | devilsAdvocate | macroStrategist | marketIntelligence | quantStrategist
  | riskManager | universeManager
  deriving DecidableEq

def AgentModel.fields : AgentModel → ModelFields
  | .cioDecision =>
    [("decision_id", false, .plain), ("timestamp", true, .plain), ("market_regime", true, .plain),
      ("portfolio_action", true, .plain),
      ("symbol_actions", false, .models symbolActionPlanFields), ("cash_target_pct", true, .plain),
      ("hedge_required", false, .plain), ("risk_approval", true, .plain),
      ("risk_conditions", false, .texts), ("reason_not_to_trade", false, .plain),
      ("hard_veto_honored", false, .plain), ("trace", false, .model traceFields)]
  | .devilsAdvocate =>
    [("timestamp", true, .plain), ("strongest_reason_thesis_is_wrong", true, .plain),
      ("information_already_in_price", true, .plain),
      ("information_already_in_price_rationale", true, .plain),
      ("opposing_market_scenario", true, .plain), ("prefer_no_trade", true, .plain),
      ("prefer_no_trade_rationale", true, .plain),
      ("immediate_withdrawal_conditions", false, .texts), ("confirmation_bias_flags", false, .texts),
      ("crowd_trade_risk", false, .plain), ("trap_risk", false, .plain),
      ("alternative_strategies", false, .texts), ("missing_information", false, .texts),
      ("data_conflicts", false, .texts), ("challenge_score", true, .plain),
      ("recommendation", false, .plain), ("challenge_severity", false, .plain),
      ("trace", false, .model traceFields)]
  | .macroStrategist =>
    [("timestamp", true, .plain), ("market_regime", true, .plain), ("confidence", true, .plain),
      ("bullish_factors", false, .texts), ("bearish_factors", false, .texts),
      ("expected_sector_impact", false, .models sectorImpactFields),
      ("invalidation_conditions", false, .texts), ("data_quality_score", true, .plain),
      ("conflicts", false, .texts), ("trace", false, .model traceFields)]
  | .marketIntelligence =>
    [("timestamp", true, .plain), ("market_events", false, .models marketEventFields),
      ("top_market_themes", false, .texts), ("data_quality_score", true, .plain),
      ("conflicts", false, .texts), ("missing_information", false, .texts),
      ("trace", false, .model traceFields)]
  | .quantStrategist =>
    [("timestamp", true, .plain), ("market_trend_state", true, .plain),
      ("market_momentum_state", true, .plain), ("market_volatility_state", true, .plain),
      ("market_breadth_state", true, .plain), ("market_liquidity_state", true, .plain),
      ("symbol_views", false, .models symbolQuantViewFields), ("data_quality_score", true, .plain),
      ("conflicts", false, .texts), ("trace", false, .model traceFields)]
  | .riskManager =>
    [("timestamp", true, .plain), ("overall_verdict", true, .plain), ("hard_vetoes", false, .texts),
      ("soft_warnings", false, .texts),
      ("trade_adjustments", false, .models tradeRiskAdjustmentFields),
      ("halt_new_trades", false, .plain), ("cash_pct", true, .plain),
      ("gross_exposure_pct", true, .plain), ("notes", false, .texts),
      ("engine_checks", false, .plainList), ("trace", false, .model traceFields)]
  | .universeManager =>
    [("timestamp", true, .plain), ("proposals", false, .models watchlistProposalFields),
      ("focus_symbols", false, .texts), ("industries", false, .texts),
      ("focus_rationale", false, .plain), ("notes", false, .texts),
      ("data_quality_score", false, .plain), ("trace", false, .model traceFields)]

def ModelFields.requires (fields : ModelFields) (name : String) : Bool :=
  fields.any fun f => f.1 = name && f.2.1

section Models

variable [Casing] (t : Runtime)

/-! ## Pruning -/

mutual

/-- What `prune_to_model` keeps of the value of a field. -/
def pruneValue : FieldKind → PyJson → PyJson
  | .plainList, .null => .arr []
  | .texts, v => strings (asStringList t v)
  | .models _, .null => .arr []
  | .models fields, .arr items => .arr (items.map fun item =>
    match item with
    | .obj entries => .obj (pruneFields fields entries)
    | v => v)
  | .model fields, .obj entries => .obj (pruneFields fields entries)
  | _, v => v

/-- `prune_to_model`: the fields of the model that the data has. -/
def pruneFields : List (String × Bool × FieldKind) → Dict PyJson → Dict PyJson
  | [], _ => []
  | (name, _, kind) :: rest, data =>
    match Dict.get? data name with
    | some v => (name, pruneValue kind v) :: pruneFields rest data
    | none => pruneFields rest data

end

/-! ## What the model requires -/

def restoreScore (source : Dict PyJson) (name : String) (fallback : PyJson) (percentOk : Bool) :
    Except PyRaise PyJson := do
  let raw := Dict.read source name
  if raw.isNull then return fallback
  else
    let clamped ← clampUnit raw percentOk
    return if clamped.isNumber then clamped else fallback

/-- The turn of one score in `_restore_stripped_scores`. -/
def restoreOne (fields : ModelFields) (source pruned : Dict PyJson) (name : String)
    (fallback : PyJson) (percentOk : Bool) : Except PyRaise (Dict PyJson) := do
  if Dict.contains pruned name || !fields.requires name then return pruned
  else
    let score ← restoreScore source name fallback percentOk
    return Dict.set pruned name score

/-- The verdict of the source, where the model requires one and a member is found. -/
def restoreVerdict (fields : ModelFields) (source pruned : Dict PyJson) : Dict PyJson :=
  if Dict.contains pruned "overall_verdict" || !fields.requires "overall_verdict" then pruned
  else
    match Dict.read source "overall_verdict" with
    | .str s =>
      let verdict := coerceEnumValue verdictTable s
      if s ≠ "" ∧ verdict ∈ verdictTable.values then Dict.set pruned "overall_verdict" (.str verdict)
      else pruned
    | _ => pruned

/-- `_restore_stripped_scores`. -/
def restoreStrippedScores (fields : ModelFields) (source pruned : Dict PyJson) :
    Except PyRaise (Dict PyJson) := do
  let pruned ← restoreOne fields source pruned "data_quality_score" (.float (.fin (4 / 10))) false
  let pruned ← restoreOne fields source pruned "confidence" (.float (.fin (1 / 2))) true
  return restoreVerdict fields source pruned

/-- `_REQUIRED_TEXT_DEFAULTS`. -/
def REQUIRED_TEXT_DEFAULTS : Dict PyJson :=
  [("strongest_reason_thesis_is_wrong", .str "Unspecified challenge"),
    ("information_already_in_price", .bool false),
    ("information_already_in_price_rationale", .str ""),
    ("opposing_market_scenario", .str "Unspecified opposing scenario"),
    ("prefer_no_trade", .bool false), ("prefer_no_trade_rationale", .str ""),
    ("challenge_score", .float (.fin (1 / 2))), ("overall_verdict", .str "approved")]

/-- `_fill_omitted_required`. -/
def fillOmittedRequired (fields : ModelFields) (pruned : Dict PyJson) : Dict PyJson :=
  REQUIRED_TEXT_DEFAULTS.foldl (fun pruned e =>
    if fields.requires e.1 then Dict.ensure pruned e.1 e.2 else pruned) pruned

/-- `sanitize_for_model`. -/
def sanitizeForModel (model : AgentModel) (data : Dict PyJson) : Except PyRaise (Dict PyJson) := do
  let cleaned ← sanitizeLlmPayload t data
  let pruned := pruneFields t model.fields cleaned
  let pruned ← restoreStrippedScores model.fields data pruned
  return fillOmittedRequired model.fields pruned

end Models

end Investor.Agents.Reply
