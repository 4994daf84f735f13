import Investor.Agents.ReplyValues

/-!
# The walk through a reply, and the shapes of the agents

`walk` goes through the reply from the leaves up, and an object is finished once its entries are
walked (`finishObject`). `agentShapeFixes` then looks at which agents' fields the reply has and
repairs each of them; a reply may look like several agents at once.
-/

namespace Investor.Agents.Reply

open Lib Schema Market Universe

section Walk

variable [Casing] (t : Runtime)

/-! ## The walk -/

/-- `out["crowd_trade_risk"]` where it is not a bool: prose counts as a risk, and a number that is not
    zero has no `lower()`. -/
def crowdTradeRisk (out : Dict PyJson) : Except PyRaise (Dict PyJson) :=
  match Dict.get? out "crowd_trade_risk" with
  | none | some (.bool _) => .ok out
  | some v =>
    let fill (out : Dict PyJson) :=
      if (Dict.read out "trap_risk").truthy then out
      else Dict.ensure out "missing_information" (.arr [])
    match asText t v with
    | .str s =>
      let risk := s ≠ "" && Casing.lower s ∉ ["false", "none", "no"]
      .ok (fill (Dict.set out "crowd_trade_risk" (.bool risk)))
    | text =>
      if text.truthy then .error .attributeError
      else .ok (fill (Dict.set out "crowd_trade_risk" (.bool false)))

/-- `max(0.0, min(100.0, float(value)))`, or the value itself. -/
def clampCash (value : PyJson) : Except PyRaise PyJson :=
  value.floatOr value fun num => .ok (.float (.fin (num.clampTo 0 100)))

def fillPlans : PyJson → Except PyRaise PyJson
  | .arr items => do
    let items ← items.mapM fun item =>
      match item with
      | .obj plan => do
        let plan ← fillSymbolActionDefaults plan
        return .obj plan
      | v => .ok v
    return .arr items
  | v => .ok v

def isEvent (out : Dict PyJson) : Bool :=
  Dict.contains out "importance" &&
    (Dict.contains out "headline" || Dict.contains out "category" || Dict.contains out "sentiment")

/-- The numbers of an object: the cash, the plans, the zone and the scenarios. -/
def finishNumbers (out : Dict PyJson) : Except PyRaise (Dict PyJson) := do
  let out ← Dict.adjustM out "cash_target_pct" clampCash
  let out ← Dict.adjustM out "symbol_actions" fillPlans
  let out ← Dict.adjustM out "entry_zone" normalizePriceZone
  let out ← Dict.adjustM out "upside_scenario" normalizeScenario
  let out ← Dict.adjustM out "downside_scenario" normalizeScenario
  if Dict.contains out "scenarios" then splitScenariosList t out else return out

def finishProse (out : Dict PyJson) : Dict PyJson :=
  let out := extractBoolRationale t out "information_already_in_price"
    "information_already_in_price_rationale"
  let out := extractBoolRationale t out "prefer_no_trade" "prefer_no_trade_rationale"
  Dict.adjust out "opposing_market_scenario" (asText t)

def finishObject (key : Option String) (out : Dict PyJson) : Except PyRaise (Dict PyJson) := do
  let atRoot := key = none || key = some "" || key = some "root"
  let out := if atRoot then Dict.ensure out "timestamp" (.str t.now) else out
  let out ← finishNumbers t out
  let out ← onlyIf (isEvent out) (normalizeMarketEvent t) out
  crowdTradeRisk t (finishProse t out)

/-- A score: a probability may be given in percent, and a confidence above 1 stays as it is. -/
def walkScore (key : String) (node : PyJson) : Except PyRaise PyJson :=
  let above : Bool :=
    match node with
    | .int n => decide (1 < n)
    | .float x => x.gt 1
    | _ => false
  if key = "confidence" ∧ above then .ok node
  else clampUnit node (key ∈ ["probability_estimate", "probability", "confidence"])

/-- What the walk does with a value that is neither an object nor a list. -/
def walkLeaf (key : Option String) (node : PyJson) : Except PyRaise PyJson :=
  match key with
  | none => .ok node
  | some key =>
    if key ∈ BOOL_FIELDS then .ok (unwrapBool node)
    else if key ∈ SCORE_FIELDS ∨ endsWith key "_score" then walkScore key node
    else
      match node, Dict.get? enumOfField key with
      | .str s, some table => .ok (.str (coerceEnumValue table s))
      | _, _ => .ok node

/-- `_FIELD_ALIASES.get(k, k)`. -/
def fieldName (k : String) : String := (Dict.get? FIELD_ALIASES k).getD k

mutual

/-- `walk`. -/
def walk : PyJson → Option String → Except PyRaise PyJson
  | .obj entries, key => do
    let out ← walkEntries entries []
    let out ← finishObject t key out
    return .obj out
  | .arr items, key => do
    let items ← walkItems items key
    return .arr items
  | node, key => walkLeaf key node

def walkEntries : List (String × PyJson) → Dict PyJson → Except PyRaise (Dict PyJson)
  | [], out => .ok out
  | (k, v) :: rest, out =>
    if Dict.contains out (fieldName k) ∧ k ≠ fieldName k then walkEntries rest out
    else do
      let v ← walk v (some (fieldName k))
      walkEntries rest (Dict.set out (fieldName k) v)

def walkItems : List PyJson → Option String → Except PyRaise (List PyJson)
  | [], _ => .ok []
  | item :: rest, key => do
    let item ← walk item key
    let rest ← walkItems rest key
    return item :: rest

end

/-! ## Whose reply it is -/

structure Looks where
  mi : Bool
  macroSheet : Bool
  quant : Bool
  risk : Bool
  devil : Bool
  cio : Bool

def looksOf (out : Dict PyJson) : Looks :=
  { mi := ["market_events", "top_market_themes"].any (Dict.contains out)
    macroSheet :=
      ["expected_sector_impact", "bullish_factors", "market_regime"].any (Dict.contains out)
    quant := ["symbol_views", "market_trend_state"].any (Dict.contains out)
    risk := ["overall_verdict", "hard_vetoes", "trade_adjustments"].any (Dict.contains out)
    devil := ["strongest_reason_thesis_is_wrong", "challenge_score", "opposing_market_scenario",
      "prefer_no_trade"].any (Dict.contains out)
    cio := ["portfolio_action", "symbol_actions", "cash_target_pct"].any (Dict.contains out) }

/-- `_as_string_list` under each of the keys that is there. -/
def listTexts (out : Dict PyJson) (keys : List String) : Dict PyJson :=
  keys.foldl (fun out key => Dict.adjust out key fun v => strings (asStringList t v)) out

/-- `_none_to_empty_list`. -/
def noneToEmptyList (out : Dict PyJson) (keys : List String) : Dict PyJson :=
  keys.foldl (fun out key => Dict.adjust out key fun v => if v.isNull then .arr [] else v) out

/-- `as_of` is the timestamp of a reply without one. -/
def renameAsOf (out : Dict PyJson) : Dict PyJson :=
  match Dict.get? out "as_of" with
  | none => out
  | some asOf => Dict.ensure (Dict.erase out "as_of") "timestamp" asOf

/-! ## Market intelligence -/

def fixEvents : PyJson → Except PyRaise PyJson
  | .arr items => do
    let items ← items.mapM fun item =>
      match item with
      | .obj ev => do
        let ev ← normalizeMarketEvent t ev
        return .obj ev
      | v => .ok v
    return .arr items
  | v => .ok v

def fixMarketIntelligence (out : Dict PyJson) : Except PyRaise (Dict PyJson) := do
  let quality := if (Dict.read out "missing_information").truthy then 3 / 10 else 1 / 2
  let out := Dict.ensure out "data_quality_score" (.float (.fin quality))
  let out ← Dict.adjustM out "market_events" (fixEvents t)
  let out := listTexts t out ["top_market_themes", "conflicts", "missing_information"]
  return noneToEmptyList out ["market_events", "top_market_themes", "conflicts",
    "missing_information"]

/-! ## Quant -/

def marketDefaults (out : Dict PyJson) : List (String × PyJson) :=
  [("trend_state", (Dict.read out "market_trend_state").orElse (.str "sideways")),
    ("momentum_state", (Dict.read out "market_momentum_state").orElse (.str "steady")),
    ("volatility_state", (Dict.read out "market_volatility_state").orElse (.str "normal")),
    ("liquidity_state", (Dict.read out "market_liquidity_state").orElse (.str "normal"))]

def viewProbability (view : Dict PyJson) : Except PyRaise (Dict PyJson) := do
  let conf := Dict.read view "confidence"
  let view := Dict.erase view "confidence"
  if Dict.contains view "probability_estimate" || conf.isNull then return view
  else
    let estimate ← conf.floatOr (.float (.fin (1 / 2))) fun c =>
      .ok (.float (if c.gt 1 then c.times (1 / 100) else c))
    return Dict.set view "probability_estimate" estimate

def fixView (defaults : List (String × PyJson)) (view : Dict PyJson) :
    Except PyRaise (Dict PyJson) := do
  let view ← splitScenariosList t view
  let view := Dict.erase view "scenarios"
  let view ← viewProbability view
  let view := Dict.ensure view "probability_estimate" (.float (.fin (1 / 2)))
  let view := Dict.ensure view "probability_basis" (.str "llm")
  let view := Dict.ensure view "notes" (.arr [])
  let view := Dict.adjust view "notes" fun v => strings (asStringList t v)
  let view := defaults.foldl (fun view e =>
    if (Dict.read view e.1).isNull then Dict.set view e.1 e.2 else view) view
  let view ← Dict.adjustM view "upside_scenario" normalizeScenario
  Dict.adjustM view "downside_scenario" normalizeScenario

def fixViews (defaults : List (String × PyJson)) : PyJson → Except PyRaise PyJson
  | .arr items => do
    let items ← items.mapM fun item =>
      match item with
      | .obj view => do
        let view ← fixView t defaults view
        return .obj view
      | v => .ok v
    return .arr items
  | v => .ok v

def fixQuant (out : Dict PyJson) : Except PyRaise (Dict PyJson) := do
  let out := Dict.without out CROSS_AGENT_EXTRAS
  let out :=
    if (Dict.read out "data_quality_score").isNull then
      Dict.set out "data_quality_score" (.float (.fin (6 / 10)))
    else out
  let out := noneToEmptyList out ["symbol_views", "conflicts"]
  Dict.adjustM out "symbol_views" (fixViews t (marketDefaults out))

/-! ## Risk, Devil's Advocate and Macro -/

def fixRisk (out : Dict PyJson) : Dict PyJson :=
  let out := Dict.erase out "data_quality_score"
  let out := Dict.ensure out "cash_pct" (.float (.fin 50))
  let out := Dict.ensure out "gross_exposure_pct" (.float (.fin 0))
  let out := Dict.ensure out "notes" (.arr [])
  Dict.adjust out "notes" fun v => strings (asStringList t v)

/-- `_DEVIL_JUNK`. -/
def DEVIL_JUNK : List String :=
  ["cash_pct", "gross_exposure_pct", "notes", "can_wait_for_better_price_confirmation",
    "can_we_wait_for_better_price_confirmation", "multiple_agents_over_reliant_on_thin_data",
    "are_multiple_agents_over_reliant_on_the_same_thin_data", "wait_for_confirmation",
    "missing_data", "overall_verdict"]

/-- `prefer_no_trade` of a reply without one: a recommendation to wait, or a strong challenge. -/
def preferNoTrade (out : Dict PyJson) : Except PyRaise (Dict PyJson) := do
  if Dict.contains out "prefer_no_trade" then return out
  else
    let advice := Casing.upper (t.text
      (((Dict.read out "recommendation").orElse (Dict.read out "overall_verdict")).orElse (.str "")))
    let strong ← ((Dict.read out "challenge_score").orElse (.float (.fin 0))).floatOr false fun c =>
      .ok (c.ge (7 / 10))
    return Dict.set out "prefer_no_trade" (.bool (decide (advice ∈ ["WAIT", "NO_TRADE"]) || strong))

def fixDevil (out : Dict PyJson) : Except PyRaise (Dict PyJson) := do
  let out ← preferNoTrade t out
  let verdict := Dict.read out "overall_verdict"
  let out :=
    if ¬ Dict.contains out "recommendation" ∧ ¬ verdict.isNull then
      Dict.set out "recommendation" verdict
    else out
  let out := Dict.without out DEVIL_JUNK
  let out := Dict.ensure out "prefer_no_trade_rationale" (.str "")
  let out := Dict.ensure out "information_already_in_price" (.bool false)
  let out := Dict.ensure out "information_already_in_price_rationale" (.str "")
  let out := Dict.ensure out "challenge_score" (.float (.fin (1 / 2)))
  let opposing :=
    match Dict.get? out "opposing_market_scenario" with
    | some v => asText t v
    | none => .str "Unspecified opposing scenario"
  let out := Dict.set out "opposing_market_scenario" opposing
  let listed (out : Dict PyJson) (key : String) :=
    Dict.set out key (strings (asStringList t (Dict.read out key)))
  let out := listed out "immediate_withdrawal_conditions"
  let out := listed out "missing_information"
  return Dict.ensure out "strongest_reason_thesis_is_wrong" (.str "Unspecified challenge")

/-- The score of a macro sheet, and its lists where the reply is not the CIO's too. -/
def fixMacro (cio : Bool) (out : Dict PyJson) : Dict PyJson :=
  let out :=
    if Dict.contains out "market_regime" then
      Dict.ensure out "data_quality_score" (.float (.fin (1 / 2)))
    else out
  if cio then out
  else
    listTexts t (Dict.erase out "sector_impacts")
      ["bullish_factors", "bearish_factors", "invalidation_conditions", "conflicts"]

/-! ## The CIO -/

/-- `_unwrap_portfolio_action`: an action nested in an object. -/
def unwrapPortfolioAction (out : Dict PyJson) : Dict PyJson :=
  match Dict.get? out "portfolio_action" with
  | some (.obj pa) =>
    let out :=
      if ¬ Dict.contains out "cash_target_pct" ∧ ¬ (Dict.read pa "cash_target_pct").isNull then
        Dict.set out "cash_target_pct" (Dict.read pa "cash_target_pct")
      else out
    let inner := ((Dict.get? pa "portfolio_action").or ((Dict.get? pa "action").or
      (Dict.get? pa "value"))).getD .null
    match inner with
    | .null | .str "" => Dict.erase out "portfolio_action"
    | inner => Dict.set out "portfolio_action" inner
  | _ => out

/-- `_regime_from`. -/
def regimeFrom : PyJson → PyJson
  | .str "" => .null
  | .obj entries =>
    (Dict.firstOf entries ["market_regime", "regime", "value", "label"] PyJson.truthy).getD .null
  | v => v

/-- `_first_explicit_regime`. -/
def firstExplicitRegime (out : Dict PyJson) : Option PyJson :=
  let nested :=
    match Dict.read out "macro" with
    | .obj macroEntries => [Dict.read macroEntries "market_regime", Dict.read macroEntries "regime"]
    | .str s => if strip s = "" then [] else [.str s]
    | _ => []
  let buckets := [Dict.read out "market_regime", Dict.read out "regime"] ++ nested
  (buckets.map regimeFrom).find? PyJson.truthy

/-- The `risk_approval` of a reply: a verdict in an object is read, and nothing at all is
    an approval. -/
def riskApprovalOf : PyJson → PyJson
  | .obj entries =>
    let verdict := ((Dict.read entries "overall_verdict").orElse (Dict.read entries "verdict")).orElse
      (.str "")
    .bool (decide (Casing.lower (t.text verdict) ∈ ["approved", "conditional", "size_reduced"]))
  | .bool b => .bool b
  | .null => .bool true
  | v => unwrapBool v

/-- What other agents leave in the CIO's reply; the score stays with market intelligence. -/
def cioJunk (mi : Bool) : List String :=
  (if mi then [] else ["data_quality_score"]) ++ ["devil", "overall_verdict", "risk", "macro",
    "market_intelligence", "quant", "positions", "allowlist", "watchlist", "portfolio_cash_pct"]

/-- The fields of a reply that looks like the CIO's, up to the action of the book. -/
def cioShape (mi : Bool) (out : Dict PyJson) : Dict PyJson :=
  let out := unwrapPortfolioAction out
  let explicitRegime := firstExplicitRegime out
  let out := Dict.set out "market_regime" (explicitRegime.getD (.str "NEUTRAL"))
  let out := Dict.set out "risk_approval" (riskApprovalOf t (Dict.read out "risk_approval"))
  let out := Dict.without out (cioJunk mi)
  let out := Dict.ensure out "hedge_required" (.bool false)
  let out := Dict.ensure out "risk_conditions" (.arr [])
  let conditions := asStringList t (Dict.read out "risk_conditions") ++
    (if explicitRegime = none then ["market_regime omitted by model; defaulted to NEUTRAL"] else [])
  let out := Dict.set out "risk_conditions" (strings conditions)
  let out := Dict.ensure out "symbol_actions" (.arr [])
  Dict.ensure out "cash_target_pct" (.float (.fin 50))

/-- The text of a plan's action as `portfolio_action_from_symbol_actions` reads it; what cannot be
    hashed raises. -/
def kindText (item : PyJson) : Except PyRaise String :=
  let kind :=
    match item with
    | .obj entries => (Dict.get? entries "action").getD (.obj entries)
    | v => v
  if kind.isContainer then .error .typeError else .ok (t.text kind)

/-- The items of what stands under `symbol_actions`; a number cannot be iterated. -/
def itemsOf : PyJson → Except PyRaise (List PyJson)
  | .arr items => .ok items
  | .obj entries => .ok (entries.map fun e => .str e.1)
  | .str s => .ok (s.toList.map fun c => .str (String.singleton c))
  | _ => .error .typeError

def postureText (out : Dict PyJson) : String :=
  Casing.upper (t.text ((Dict.read out "portfolio_action").orElse (.str "")))

/-- A `HOLD` over plans that trade is replaced by the action the plans amount to. -/
def recomputePosture (out : Dict PyJson) : Except PyRaise (Dict PyJson) :=
  if (Dict.read out "symbol_actions").truthy ∧ postureText t out ∈ ["HOLD", "NO_TRADE"] then do
    let items ← itemsOf (Dict.read out "symbol_actions")
    let kinds ← items.mapM (kindText t)
    let derived := portfolioActionFromTexts kinds
    if derived.isAnalysisOnly then return out
    else return Dict.set out "portfolio_action" (.str derived.value)
  else .ok out

/-- `_agent_shape_fixes`. -/
def agentShapeFixes (out : Dict PyJson) : Except PyRaise (Dict PyJson) := do
  let out := renameAsOf out
  let looks := looksOf out
  let out ← onlyIf looks.mi (fixMarketIntelligence t) out
  let out := Dict.adjust out "expected_sector_impact" (normalizeSectorImpact t)
  let out ← onlyIf looks.quant (fixQuant t) out
  let out :=
    if looks.risk && !looks.cio && !looks.quant && !looks.mi then fixRisk t out else out
  let out ← onlyIf (looks.devil && !looks.cio) (fixDevil t) out
  let out := if looks.macroSheet then fixMacro t looks.cio out else out
  if looks.cio then recomputePosture t (cioShape t looks.mi out) else return out

/-- `sanitize_llm_payload`. -/
def sanitizeLlmPayload (data : Dict PyJson) : Except PyRaise (Dict PyJson) := do
  let out ← walkEntries t data []
  let out ← finishObject t none out
  agentShapeFixes t out

end Walk

end Investor.Agents.Reply
