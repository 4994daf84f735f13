import Investor.Universe.BookStrategy

/-!
# The sanitizer of LLM replies

Before a reply is validated against the CIO's schema it is cleaned up: keys are renamed,
numbers clamped, texts matched against the enumerations, missing fields filled in, shapes
an agent often gets wrong rewritten, and whatever the schema does not know is dropped.

`walk` goes through the whole reply. `agentShapeFixes` and `pruneToModel` are written for
the CIO's model: a statement that only touches keys `CIODecision` does not have is left
out, as the pruning drops them, and so is the trace. What can raise here is an
`AttributeError` or a `TypeError`, and neither is retried. The texts of values that are
not texts are the runtime's own (`PyText`).
-/

namespace Investor.Agents

open Lib Schema Market Universe

/-- `str(value)` and `json.dumps(value)`, and the text of the clock. -/
structure PyText where
  str : Json → String
  dumps : Json → String
  now : String

/-- `str(value)`, which leaves a text as it is. -/
def PyText.text (t : PyText) : Json → String
  | .str s => s
  | j => t.str j

/-- What the sanitizer may raise. -/
inductive PyError
  | attributeError | typeError
  deriving DecidableEq

/-! ## Tables -/

/-- The values of an enumeration, other texts for them, and the value of last resort. The
    members are named by their values in upper case, so a name never matches alone. -/
structure EnumTable where
  values : List String
  synonyms : Dict String
  other : Option String

def portfolioActionTable : EnumTable :=
  { values := ["STRONG_BUY", "BUY", "SCALE_IN", "HOLD", "REDUCE", "PARTIAL_SELL", "SELL", "HEDGE",
      "STAY_CASH", "NO_TRADE"], synonyms := [], other := none }

def trendTable : EnumTable :=
  { values := ["strong_up", "up", "sideways", "down", "strong_down"]
    synonyms := [("bullish", "up"), ("bearish", "down"), ("neutral", "sideways"),
      ("flat", "sideways"), ("range", "sideways"), ("ranging", "sideways")]
    other := none }

def momentumTable : EnumTable :=
  { values := ["accelerating", "steady", "decelerating", "exhausted"]
    synonyms := [("neutral", "steady"), ("strong", "accelerating"), ("weak", "decelerating"),
      ("fading", "exhausted")]
    other := none }

def volatilityTable : EnumTable :=
  { values := ["low", "normal", "elevated", "extreme"]
    synonyms := [("moderate", "normal"), ("medium", "normal"), ("high", "elevated"),
      ("very high", "extreme"), ("very_high", "extreme")]
    other := none }

def breadthTable : EnumTable :=
  { values := ["strong", "healthy", "mixed", "weak", "deteriorating"]
    synonyms := [("neutral", "mixed"), ("ok", "healthy"), ("poor", "weak"),
      ("bad", "deteriorating")]
    other := none }

def liquidityTable : EnumTable :=
  { values := ["ample", "normal", "tight", "stressed"]
    synonyms := [("adequate", "normal"), ("good", "ample"), ("poor", "tight"), ("bad", "stressed"),
      ("moderate", "normal")]
    other := none }

def regimeTable : EnumTable :=
  { values := ["STRONG_RISK_ON", "RISK_ON", "NEUTRAL", "RISK_OFF", "STRONG_RISK_OFF",
      "INSUFFICIENT_DATA"]
    synonyms := [("risk on", "RISK_ON"), ("risk-on", "RISK_ON"), ("risk_off", "RISK_OFF"),
      ("risk off", "RISK_OFF"), ("risk-off", "RISK_OFF"), ("bullish", "RISK_ON"),
      ("bearish", "RISK_OFF")]
    other := none }

def newsTable : EnumTable :=
  { values := ["earnings", "guidance", "analyst", "fed", "macro", "geopolitics", "corporate",
      "regulatory", "other"]
    synonyms := [("monetary policy", "fed"), ("monetary_policy", "fed"), ("fed policy", "fed"),
      ("central bank", "fed"), ("market performance", "macro"), ("markets", "macro"),
      ("economy", "macro"), ("economic", "macro"), ("politics", "geopolitics"),
      ("company", "corporate"), ("m&a", "corporate"), ("sec", "regulatory"),
      ("regulation", "regulatory")]
    other := some "other" }

def sentimentTable : EnumTable :=
  { values := ["positive", "negative", "neutral", "mixed"]
    synonyms := [("pos", "positive"), ("neg", "negative"), ("bullish", "positive"),
      ("bearish", "negative")]
    other := none }

def verdictTable : EnumTable :=
  { values := ["approved", "conditional", "size_reduced", "rejected", "halt_day"], synonyms := [],
    other := none }

/-- The mapping of `_coerce_by_field`; `PortfolioAction` and `SymbolAction` have one table. -/
def enumOfField : Dict EnumTable :=
  [("category", newsTable), ("sentiment", sentimentTable), ("market_regime", regimeTable),
    ("overall_verdict", verdictTable), ("verdict", verdictTable),
    ("portfolio_action", portfolioActionTable), ("action", portfolioActionTable),
    ("order_type", { values := ["market", "limit", "stop", "stop_limit"], synonyms := [],
                     other := none }),
    ("time_horizon", { values := ["intraday", "swing", "position"], synonyms := [],
                       other := none }),
    ("trend_state", trendTable), ("market_trend_state", trendTable),
    ("momentum_state", momentumTable), ("market_momentum_state", momentumTable),
    ("volatility_state", volatilityTable), ("market_volatility_state", volatilityTable),
    ("breadth_state", breadthTable), ("market_breadth_state", breadthTable),
    ("liquidity_state", liquidityTable), ("market_liquidity_state", liquidityTable)]

/-- `_FIELD_ALIASES`. -/
def FIELD_ALIASES : Dict String :=
  [("trend", "trend_state"), ("momentum", "momentum_state"), ("volatility", "volatility_state"),
    ("breadth", "breadth_state"), ("liquidity", "liquidity_state"),
    ("market_trend", "market_trend_state"), ("market_momentum", "market_momentum_state"),
    ("market_volatility", "market_volatility_state"), ("market_breadth", "market_breadth_state"),
    ("market_liquidity", "market_liquidity_state"), ("upside", "upside_scenario"),
    ("downside", "downside_scenario"), ("sector_impacts", "expected_sector_impact"),
    ("sector_impact", "expected_sector_impact"), ("events", "market_events"),
    ("realistic_opposing_catalyst", "opposing_market_scenario"),
    ("no_trade_better", "prefer_no_trade"),
    ("immediate_withdrawal_conditions_if_entered", "immediate_withdrawal_conditions"),
    ("missing_or_conflicting_data", "missing_information"),
    ("withdrawal_conditions", "immediate_withdrawal_conditions"), ("affected_symbols", "symbols"),
    ("verified_facts", "facts"), ("directional_bias", "sentiment")]

/-- `_CROSS_AGENT_EXTRAS`. -/
def CROSS_AGENT_EXTRAS : List String :=
  ["overall_verdict", "cash_target_pct", "gross_exposure_pct", "devil", "cash_pct", "hard_vetoes",
    "soft_warnings", "trade_adjustments", "halt_new_trades", "engine_checks", "risk_approval",
    "portfolio_action", "symbol_actions", "hedge_required", "risk", "macro", "market_intelligence",
    "quant", "proposed_theses"]

def BOOL_FIELDS : List String :=
  ["information_already_in_price", "prefer_no_trade", "crowd_trade_risk", "hedge_required",
    "risk_approval", "hard_veto_honored", "halt_new_trades"]

def SCORE_FIELDS : List String :=
  ["data_quality_score", "challenge_score", "confidence", "probability_estimate", "probability"]

/-! ## Values -/

section Values

variable [Casing] (t : PyText)

/-- `coerce_enum_value`. -/
def coerceEnumValue (e : EnumTable) (value : String) : String :=
  let raw := strip value
  if raw = "" then value
  else if raw ∈ e.values then raw
  else
    match e.values.find? fun v => Casing.lower v = Casing.lower raw with
    | some v => v
    | none =>
      match Dict.get? e.synonyms (Casing.lower raw) with
      | some v => v
      | none => e.other.getD value

/-- `_clamp_unit`. -/
def clampUnit (value : Json) (percentOk : Bool) : Json :=
  match value.float? with
  | none => value
  | some num =>
    let unit := if 1 < num then (if percentOk ∧ num ≤ 100 then num / 100 else 1) else num
    .num (max 0 (min 1 unit))

/-- `_unwrap_bool`. -/
def unwrapBool : Json → Json
  | .obj entries =>
    let isBool : Json → Bool := fun v => match v with | .bool _ => true | _ => false
    (Dict.firstAt entries ["value", "flag", "result", "bool", "is_true", "answer"] isBool).getD
      (.bool true)
  | .str s =>
    let low := Casing.lower (strip s)
    if low ∈ ["true", "yes", "y", "1"] then .bool true
    else if low ∈ ["false", "no", "n", "0"] then .bool false
    else .str s
  | j => j

/-- `_as_text`. -/
def asText : Json → Json
  | .obj entries =>
    let isText : Json → Bool := fun v => match v with | .str s => strip s ≠ "" | _ => false
    (Dict.firstAt entries ["factor", "condition", "fact", "headline", "description", "rationale",
      "reason", "summary", "text", "name", "value", "label"] isText).getD
        (.str (t.dumps (.obj entries)))
  | .arr items => .str (String.intercalate "; " (items.map t.text))
  | j => j

/-- `_as_string_list`. -/
def asStringList : Json → List String
  | .null => []
  | .str s => if strip s = "" then [] else [strip s]
  | .obj entries =>
    let text := strip (t.text (asText t (.obj entries)))
    if text = "" then [] else [text]
  | .arr items => items.filterMap fun item =>
    match item with
    | .null => none
    | .str s => if strip s = "" then none else some s
    | .obj entries =>
      let text := strip (t.text (asText t (.obj entries)))
      if text = "" then none else some text
    | j => some (t.text j)
  | j => [t.text j]

def stringsJson (texts : List String) : Json := .arr (texts.map .str)

/-- `_extract_bool_rationale`. -/
def extractBoolRationale (node : Dict Json) (boolKey rationaleKey : String) : Dict Json :=
  match Dict.get? node boolKey with
  | some (.obj entries) =>
    Dict.set (Dict.setDefault node rationaleKey (asText t (.obj entries))) boolKey
      (unwrapBool (.obj entries))
  | _ => node

/-- `_normalize_price_zone`. -/
def normalizePriceZone : Json → Json
  | .num px => .obj [("min", .num (px * (99 / 100))), ("max", .num (px * (101 / 100)))]
  | .bool b =>
    let px : ℚ := if b then 1 else 0
    .obj [("min", .num (px * (99 / 100))), ("max", .num (px * (101 / 100)))]
  | .arr (lo :: hi :: _) =>
    match lo.float?, hi.float? with
    | some lo, some hi => .obj [("min", .num lo), ("max", .num hi)]
    | _, _ => .null
  | j => j

/-- `_normalize_scenario`. -/
def normalizeScenario : Json → Json
  | .obj entries =>
    let out :=
      if Dict.contains entries "target" ∧ ¬ Dict.contains entries "target_price" then
        Dict.set (Dict.erase entries "target") "target_price" (Dict.at entries "target")
      else entries
    let out := Dict.setDefault out "name" (.str "scenario")
    let out := Dict.setDefault out "description"
      (((Dict.at out "summary").orElse (Dict.at out "name")).orElse (.str "scenario"))
    let probability :=
      match Dict.get? out "probability" with
      | some p => clampUnit p true
      | none => .num (1 / 2)
    let out := Dict.set out "probability" probability
    .obj (out.filter fun e => e.1 ∈ ["name", "description", "probability", "target_price"])
  | .str s => .obj [("name", .str "scenario"), ("description", .str s), ("probability", .num (1 / 2))]
  | .num q =>
    .obj [("name", .str "scenario"), ("description", .str "LLM numeric scenario"),
      ("probability", .num (1 / 2)), ("target_price", .num q)]
  | .bool b =>
    .obj [("name", .str "scenario"), ("description", .str "LLM numeric scenario"),
      ("probability", .num (1 / 2)), ("target_price", .num (if b then 1 else 0))]
  | j => j

/-- `_fill_symbol_action_defaults`. -/
def fillSymbolActionDefaults (plan : Dict Json) : Dict Json :=
  let plan := Dict.setDefault plan "confidence" (.num 50)
  let plan := Dict.setDefault plan "target_position_pct" (.num 0)
  let plan := Dict.setDefault plan "thesis"
    (((Dict.at plan "reason").orElse (Dict.at plan "summary")).orElse (.str "LLM plan"))
  let plan := Dict.setDefault plan "invalidation"
    ((Dict.at plan "stop_condition").orElse (.str "n/a"))
  let plan := Dict.setDefault plan "order_type" (.str "limit")
  let plan := Dict.setDefault plan "time_horizon" (.str "intraday")
  let plan := Dict.setDefault plan "take_profit" (.arr [])
  let plan :=
    if Dict.contains plan "entry_zone" then
      Dict.set plan "entry_zone" (normalizePriceZone (Dict.at plan "entry_zone"))
    else plan
  -- a confidence of at most 1 is a float by now, and read as a share of 100
  match Dict.at plan "confidence" with
  | .num q =>
    if 0 ≤ q ∧ q ≤ 1 then Dict.set plan "confidence" (.num (roundHalfEven (q * 100))) else plan
  | _ => plan

/-! ## Scenarios and events -/

/-- The scenarios found so far and the object they are put into. -/
structure ScenarioSplit where
  view : Dict Json
  upside : Json
  downside : Json

def ScenarioSplit.up (s : ScenarioSplit) (scen : Json) : ScenarioSplit :=
  { s with view := Dict.set s.view "upside_scenario" scen, upside := scen }

def ScenarioSplit.down (s : ScenarioSplit) (scen : Json) : ScenarioSplit :=
  { s with view := Dict.set s.view "downside_scenario" scen, downside := scen }

/-- Puts one item of a scenario list where its words say, or where there is room. -/
def ScenarioSplit.place (s : ScenarioSplit) (item : Json) : ScenarioSplit :=
  match normalizeScenario item with
  | .obj scen =>
    let word (key : String) := Casing.lower (t.text ((Dict.at scen key).orElse (.str "")))
    let blob := word "name" ++ " " ++ word "description"
    let isUp := ["up", "bull", "rally", "positive"].any (hasPart blob)
    let isDown := ["down", "bear", "sell", "negative"].any (hasPart blob)
    if s.upside.isNull && isUp then s.up (.obj scen)
    else if s.downside.isNull && isDown then s.down (.obj scen)
    else if s.upside.isNull then s.up (.obj scen)
    else if s.downside.isNull then s.down (.obj scen)
    else s
  | _ => s

/-- `_split_scenarios_list`. -/
def splitScenariosList (view : Dict Json) : Dict Json :=
  let raw := Dict.at view "scenarios"
  let view := Dict.erase view "scenarios"
  let start : ScenarioSplit :=
    { view, upside := Dict.at view "upside_scenario", downside := Dict.at view "downside_scenario" }
  match raw with
  | .null => view
  | .obj entries =>
    let found (keys : List String) :=
      (Dict.firstAt entries keys fun v => !v.isNull).map normalizeScenario
    let s := if start.upside.isNull then
        ((found ["upside", "upside_scenario", "bull", "positive"]).map start.up).getD start
      else start
    let s := if s.downside.isNull then
        ((found ["downside", "downside_scenario", "bear", "negative"]).map s.down).getD s
      else s
    if !s.upside.isNull && !s.downside.isNull then s.view
    else
      let rest := entries.filter fun e => e.1 ∉ ["upside", "downside", "upside_scenario",
        "downside_scenario", "bull", "bear", "positive", "negative"]
      ((rest.map (·.2)).foldl (ScenarioSplit.place t) s).view
  | .arr items => (items.foldl (ScenarioSplit.place t) start).view
  | j => (start.place t j).view

/-- `_clamp_importance`. -/
def clampImportance (value : Json) : Json :=
  match value.float? with
  | none => value
  | some num =>
    if 5 < num then
      .num (if num ≤ 100 then max 1 (min 5 (roundHalfEven (num / 20))) else 5)
    else if num < 1 then .num 1
    else .num (roundHalfEven num)

def lacksHeadline (ev : Dict Json) : Bool :=
  !Dict.contains ev "headline" ||
    strip (t.text ((Dict.at ev "headline").orElse (.str ""))) = ""

/-- `_normalize_market_event`. -/
def normalizeMarketEvent (ev : Dict Json) : Dict Json :=
  let ev :=
    if lacksHeadline t ev then
      match Dict.firstAt ev ["title", "summary", "text", "name", "event", "description"]
          Json.truthy with
      | some alt => Dict.set ev "headline" (asText t alt)
      | none => ev
    else ev
  let ev :=
    match Dict.get? ev "interpretations" with
    | none => ev
    | some interps =>
      let ev := Dict.erase ev "interpretations"
      if Dict.contains ev "interpretation" || !interps.truthy then ev
      else
        match interps with
        | .arr (first :: _) => Dict.set ev "interpretation" (asText t first)
        | j => Dict.set ev "interpretation" (asText t j)
  let facts := asStringList t (Dict.at ev "facts")
  let ev := Dict.set ev "facts" (stringsJson facts)
  let ev :=
    match facts with
    | fact :: _ => if lacksHeadline t ev then Dict.set ev "headline" (.str fact) else ev
    | [] => ev
  let ev := if lacksHeadline t ev then Dict.set ev "headline" (.str "Untitled market event") else ev
  let ev := ev.filter fun e => e.1 ∉ ["themes", "conflicts", "missing_information",
    "data_quality_score", "as_of", "title", "summary", "text"]
  let ev :=
    match Dict.get? ev "importance" with
    | some i => Dict.set ev "importance" (clampImportance i)
    | none => Dict.set ev "importance" (.num 3)
  let ev :=
    match Dict.at ev "uncertainties" with
    | .null | .bool _ | .num _ => ev
    | j => Dict.set ev "uncertainties" (stringsJson (asStringList t j))
  let ev := Dict.setDefault ev "source" (.str "unknown")
  let ev :=
    match Dict.at ev "symbols" with
    | .str s => Dict.set ev "symbols" (stringsJson (asStringList t (.str s)))
    | .obj es => Dict.set ev "symbols" (stringsJson (asStringList t (.obj es)))
    | _ => ev
  let ev := Dict.setDefault ev "symbols" (.arr [])
  let ev := Dict.setDefault ev "facts" (.arr [])
  let ev := Dict.setDefault ev "uncertainties" (.arr [])
  let ev := Dict.setDefault ev "category" (.str "other")
  let ev := Dict.setDefault ev "sentiment" (.str "neutral")
  Dict.setDefault ev "published_at" (.str t.now)

/-! ## The walk -/

/-- `out["crowd_trade_risk"]` where it is not a bool: prose counts as a risk. -/
def crowdTradeRisk (out : Dict Json) : Except PyError (Dict Json) :=
  match Dict.get? out "crowd_trade_risk" with
  | none | some (.bool _) => .ok out
  | some j =>
    let fill (out : Dict Json) :=
      if (Dict.at out "trap_risk").truthy then out
      else Dict.setDefault out "missing_information" (.arr [])
    match asText t j with
    | .str s =>
      let risk := s ≠ "" && Casing.lower s ∉ ["false", "none", "no"]
      .ok (fill (Dict.set out "crowd_trade_risk" (.bool risk)))
    | text =>
      if text.truthy then .error .attributeError
      else .ok (fill (Dict.set out "crowd_trade_risk" (.bool false)))

def finishObject (key : Option String) (out : Dict Json) : Except PyError (Dict Json) :=
  let atRoot := key = none || key = some "" || key = some "root"
  let out := if atRoot then Dict.setDefault out "timestamp" (.str t.now) else out
  let edit (out : Dict Json) (k : String) (f : Json → Json) : Dict Json :=
    match Dict.get? out k with
    | some v => Dict.set out k (f v)
    | none => out
  let out := edit out "cash_target_pct" fun v =>
    match v.float? with
    | some q => .num (max 0 (min 100 q))
    | none => v
  let out := edit out "symbol_actions" fun v =>
    match v with
    | .arr items => .arr (items.map fun item =>
        match item with
        | .obj plan => .obj (fillSymbolActionDefaults plan)
        | j => j)
    | j => j
  let out := edit out "entry_zone" normalizePriceZone
  let out := edit out "upside_scenario" normalizeScenario
  let out := edit out "downside_scenario" normalizeScenario
  let out := if Dict.contains out "scenarios" then splitScenariosList t out else out
  let isEvent := Dict.contains out "importance" &&
    (Dict.contains out "headline" || Dict.contains out "category" || Dict.contains out "sentiment")
  let out := if isEvent then normalizeMarketEvent t out else out
  let out := extractBoolRationale t out "information_already_in_price"
    "information_already_in_price_rationale"
  let out := extractBoolRationale t out "prefer_no_trade" "prefer_no_trade_rationale"
  let out := edit out "opposing_market_scenario" (asText t)
  crowdTradeRisk t out

/-- What the walk does with a value that is neither an object nor a list. -/
def walkLeaf (key : Option String) (node : Json) : Json :=
  match key with
  | none => node
  | some key =>
    if key ∈ BOOL_FIELDS then unwrapBool node
    else if key ∈ SCORE_FIELDS ∨ endsWith key "_score" then
      match node with
      | .num q =>
        if key = "confidence" ∧ 1 < q then node
        else clampUnit node (key ∈ ["probability_estimate", "probability", "confidence"])
      | _ => clampUnit node (key ∈ ["probability_estimate", "probability", "confidence"])
    else
      match node, Dict.get? enumOfField key with
      | .str s, some table => .str (coerceEnumValue table s)
      | _, _ => node

mutual

/-- `walk`. -/
def walk : Json → Option String → Except PyError Json
  | .obj entries, key => do
    let out ← walkEntries entries []
    let out ← finishObject t key out
    return .obj out
  | .arr items, key => do
    let items ← walkItems items key
    return .arr items
  | node, key => .ok (walkLeaf key node)

def walkEntries : List (String × Json) → Dict Json → Except PyError (Dict Json)
  | [], out => .ok out
  | (k, v) :: rest, out =>
    let nk := (Dict.get? FIELD_ALIASES k).getD k
    if Dict.contains out nk ∧ k ≠ nk then walkEntries rest out
    else do
      let v ← walk v (some nk)
      walkEntries rest (Dict.set out nk v)

def walkItems : List Json → Option String → Except PyError (List Json)
  | [], _ => .ok []
  | item :: rest, key => do
    let item ← walk item key
    let rest ← walkItems rest key
    return item :: rest

end

/-! ## Shapes of the CIO's reply -/

/-- `_unwrap_portfolio_action`: an action nested in an object. -/
def unwrapPortfolioAction (out : Dict Json) : Dict Json :=
  match Dict.get? out "portfolio_action" with
  | some (.obj pa) =>
    let out :=
      if ¬ Dict.contains out "cash_target_pct" ∧ ¬ (Dict.at pa "cash_target_pct").isNull then
        Dict.set out "cash_target_pct" (Dict.at pa "cash_target_pct")
      else out
    let inner := ((Dict.get? pa "portfolio_action").or ((Dict.get? pa "action").or
      (Dict.get? pa "value"))).getD .null
    match inner with
    | .null | .str "" => Dict.erase out "portfolio_action"
    | inner => Dict.set out "portfolio_action" inner
  | _ => out

/-- `_regime_from`. -/
def regimeFrom : Json → Json
  | .str "" => .null
  | .obj entries =>
    (Dict.firstAt entries ["market_regime", "regime", "value", "label"] Json.truthy).getD .null
  | j => j

/-- `_first_explicit_regime`. -/
def firstExplicitRegime (out : Dict Json) : Option Json :=
  let nested :=
    match Dict.at out "macro" with
    | .obj macroEntries => [Dict.at macroEntries "market_regime", Dict.at macroEntries "regime"]
    | .str s => if strip s = "" then [] else [.str s]
    | _ => []
  let buckets := [Dict.at out "market_regime", Dict.at out "regime"] ++ nested
  (buckets.map regimeFrom).find? Json.truthy

/-- The `risk_approval` of a reply: a verdict in an object is read, and nothing at all is
    an approval. -/
def riskApprovalOf (ra : Json) : Json :=
  match ra with
  | .obj entries =>
    let verdict := ((Dict.at entries "overall_verdict").orElse (Dict.at entries "verdict")).orElse
      (.str "")
    .bool (decide (Casing.lower (t.text verdict) ∈ ["approved", "conditional", "size_reduced"]))
  | .bool b => .bool b
  | .null => .bool true
  | j => unwrapBool j

/-- The fields of the CIO's model in a reply that looks like the CIO's, up to the action of
    the book. -/
def cioShape (out : Dict Json) : Dict Json :=
  let out := unwrapPortfolioAction out
  let explicitRegime := firstExplicitRegime out
  let out := Dict.set out "market_regime" (explicitRegime.getD (.str "NEUTRAL"))
  let out := Dict.set out "risk_approval" (riskApprovalOf t (Dict.at out "risk_approval"))
  let out := Dict.setDefault out "hedge_required" (.bool false)
  let out := Dict.setDefault out "risk_conditions" (.arr [])
  let conditions := asStringList t (Dict.at out "risk_conditions") ++
    (if explicitRegime = none then ["market_regime omitted by model; defaulted to NEUTRAL"] else [])
  let out := Dict.set out "risk_conditions" (stringsJson conditions)
  let out := Dict.setDefault out "symbol_actions" (.arr [])
  Dict.setDefault out "cash_target_pct" (.num 50)

/-- The text of a plan's action as `portfolio_action_from_symbol_actions` reads it; an item
    that cannot be hashed raises. -/
def kindText (item : Json) : Except PyError String :=
  let kind :=
    match item with
    | .obj entries => (Dict.get? entries "action").getD (.obj entries)
    | j => j
  match kind with
  | .obj _ | .arr _ => .error .typeError
  | j => .ok (t.text j)

/-- The items of what stands under `symbol_actions`; a number cannot be iterated. -/
def itemsOf : Json → Except PyError (List Json)
  | .arr items => .ok items
  | .obj entries => .ok (entries.map fun e => .str e.1)
  | .str s => .ok (s.toList.map fun c => .str (String.singleton c))
  | _ => .error .typeError

def postureText (out : Dict Json) : String :=
  Casing.upper (t.text ((Dict.at out "portfolio_action").orElse (.str "")))

/-- A `HOLD` over plans that trade is replaced by the action the plans amount to. -/
def recomputePosture (out : Dict Json) : Except PyError (Dict Json) :=
  if (Dict.at out "symbol_actions").truthy ∧ postureText t out ∈ ["HOLD", "NO_TRADE"] then do
    let items ← itemsOf (Dict.at out "symbol_actions")
    let kinds ← items.mapM (kindText t)
    let derived := portfolioActionFromTexts kinds
    if derived.isAnalysisOnly then return out
    else return Dict.set out "portfolio_action" (.str derived.value)
  else .ok out

/-- `_agent_shape_fixes`, what it does to the fields of the CIO's model. -/
def agentShapeFixes (out : Dict Json) : Except PyError (Dict Json) :=
  let out :=
    match Dict.get? out "as_of" with
    | none => out
    | some asOf => Dict.setDefault (Dict.erase out "as_of") "timestamp" asOf
  let looksQuant := Dict.contains out "symbol_views" || Dict.contains out "market_trend_state"
  let looksCio := Dict.contains out "portfolio_action" || Dict.contains out "symbol_actions" ||
    Dict.contains out "cash_target_pct"
  let out := if looksQuant then out.filter fun e => e.1 ∉ CROSS_AGENT_EXTRAS else out
  if looksCio then recomputePosture t (cioShape t out) else .ok out

/-! ## Pruning to the model -/

def CIO_FIELDS : List String :=
  ["decision_id", "timestamp", "market_regime", "portfolio_action", "symbol_actions",
    "cash_target_pct", "hedge_required", "risk_approval", "risk_conditions", "reason_not_to_trade",
    "hard_veto_honored"]

def PLAN_FIELDS : List String :=
  ["symbol", "action", "confidence", "target_position_pct", "order_type", "entry_zone", "stop_loss",
    "take_profit", "time_horizon", "thesis", "invalidation", "max_holding_time_minutes",
    "entry_timing", "entry_source", "trend_at_entry"]

/-- The entries of the given fields, each value put through `f`. -/
def pruneFields (fields : List String) (f : String → Json → Json) (data : Dict Json) : Dict Json :=
  fields.filterMap fun name => (Dict.get? data name).map fun v => (name, f name v)

/-- `prune_to_model` at `SymbolActionPlan`. -/
def prunePlan (plan : Dict Json) : Dict Json :=
  pruneFields PLAN_FIELDS (fun name v =>
    match name, v with
    | "take_profit", .null => .arr []
    | "entry_zone", .obj zone => .obj (pruneFields ["min", "max"] (fun _ v => v) zone)
    | _, v => v) plan

/-- `prune_to_model` at `CIODecision`, without its trace. -/
def pruneToModel (data : Dict Json) : Dict Json :=
  pruneFields CIO_FIELDS (fun name v =>
    match name, v with
    | "symbol_actions", .null => .arr []
    | "symbol_actions", .arr items => .arr (items.map fun item =>
        match item with
        | .obj plan => .obj (prunePlan plan)
        | j => j)
    | "risk_conditions", v => stringsJson (asStringList t v)
    | _, v => v) data

/-- `sanitize_for_model` at `CIODecision`: the scores and texts it fills in afterwards are of
    other models. -/
def sanitizeForModel (data : Dict Json) : Except PyError (Dict Json) := do
  let out ← walkEntries t data []
  let out ← finishObject t none out
  let out ← agentShapeFixes t out
  return pruneToModel t out

end Values

end Investor.Agents
