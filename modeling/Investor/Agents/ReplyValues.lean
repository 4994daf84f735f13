import Investor.Agents.Sanitize
import Investor.Lib.PyJson

/-!
# The values of any agent's reply

`Sanitize` follows the sanitizer for the CIO, with numbers that are exact. This is the sanitizer
for a reply of any agent, over the numbers Python has (`PyJson`), with every place that may raise.
The tables are the ones of `Sanitize`.

What can raise in a single value is `float()`: the code catches a `TypeError` and a `ValueError`,
an `OverflowError` gets through.
-/

namespace Investor.Agents.Reply

open Lib Schema Market Universe

/-- The runtime's texts: `str(value)`, `json.dumps(value)` and the clock. The text of what is no text
    starts with a bracket, a digit, a sign or the name of a constant, and is no action of the book. -/
structure Runtime [Casing] where
  str : PyJson → String
  dumps : PyJson → String
  now : String
  str_no_action : ∀ v, v.isStr = false → Casing.upper (str v) ∉ ["HOLD", "NO_TRADE"]

section Values

variable [Casing] (t : Runtime)

/-- `str(value)`, which leaves a text as it is. -/
def Runtime.text : PyJson → String
  | .str s => s
  | v => t.str v

/-- `_clamp_unit`. -/
def clampUnit (value : PyJson) (percentOk : Bool) : Except PyRaise PyJson :=
  value.floatOr value fun num =>
    let unit := if num.gt 1 then (if percentOk ∧ num.le 100 then num.times (1 / 100) else .fin 1)
      else num
    .ok (.float (.fin (unit.clampTo 0 1)))

/-- `_unwrap_bool`. -/
def unwrapBool : PyJson → PyJson
  | .obj entries =>
    (Dict.firstOf entries ["value", "flag", "result", "bool", "is_true", "answer"]
      PyJson.isBool).getD (.bool true)
  | .str s =>
    let low := Casing.lower (strip s)
    if low ∈ ["true", "yes", "y", "1"] then .bool true
    else if low ∈ ["false", "no", "n", "0"] then .bool false
    else .str s
  | v => v

/-- `_as_text`. -/
def asText : PyJson → PyJson
  | .obj entries =>
    let isText : PyJson → Bool := fun v => match v with | .str s => strip s ≠ "" | _ => false
    (Dict.firstOf entries ["factor", "condition", "fact", "headline", "description", "rationale",
      "reason", "summary", "text", "name", "value", "label"] isText).getD
        (.str (t.dumps (.obj entries)))
  | .arr items => .str (String.intercalate "; " (items.map t.text))
  | v => v

/-- `_as_string_list`. -/
def asStringList : PyJson → List String
  | .null => []
  | .str s => if strip s = "" then [] else [strip s]
  | .obj entries =>
    let text := strip (t.text (asText t (.obj entries)))
    if text = "" then [] else [text]
  | .arr items => items.filterMap fun item =>
    match item with
    | .null => none
    | .str s => if strip s = "" then none else some s
    | .obj entries =>
      let text := strip (t.text (asText t (.obj entries)))
      if text = "" then none else some text
    | v => some (t.text v)
  | v => [t.text v]

def strings (texts : List String) : PyJson := .arr (texts.map .str)

/-- `_extract_bool_rationale`. -/
def extractBoolRationale (node : Dict PyJson) (boolKey rationaleKey : String) : Dict PyJson :=
  match Dict.get? node boolKey with
  | some (.obj entries) =>
    Dict.set (Dict.ensure node rationaleKey (asText t (.obj entries))) boolKey
      (unwrapBool (.obj entries))
  | _ => node

def zoneOf (lo hi : PyFloat) : PyJson := .obj [("min", .float lo), ("max", .float hi)]

/-- `_normalize_price_zone`. -/
def normalizePriceZone : PyJson → Except PyRaise PyJson
  | .arr (lo :: hi :: _) =>
    lo.floatOr .null fun lo => hi.floatOr .null fun hi => .ok (zoneOf lo hi)
  | .arr items => .ok (.arr items)
  | .obj entries => .ok (.obj entries)
  | .null => .ok .null
  | .str s => .ok (.str s)
  | number => do
    let px ← number.toFloat
    return zoneOf (px.times (99 / 100)) (px.times (101 / 100))

/-- `_normalize_scenario` of an object, up to the probability. -/
def scenarioWords (entries : Dict PyJson) : Dict PyJson :=
  let out :=
    if Dict.contains entries "target" ∧ ¬ Dict.contains entries "target_price" then
      Dict.set (Dict.erase entries "target") "target_price" (Dict.read entries "target")
    else entries
  let out := Dict.ensure out "name" (.str "scenario")
  Dict.ensure out "description"
    (((Dict.read out "summary").orElse (Dict.read out "name")).orElse (.str "scenario"))

def scenarioProbability (out : Dict PyJson) : Except PyRaise PyJson :=
  match Dict.get? out "probability" with
  | some p => clampUnit p true
  | none => .ok (.float (.fin (1 / 2)))

/-- `_normalize_scenario`. -/
def normalizeScenario : PyJson → Except PyRaise PyJson
  | .null => .ok .null
  | .arr items => .ok (.arr items)
  | .obj entries => do
    let out := scenarioWords entries
    let probability ← scenarioProbability out
    let out := Dict.set out "probability" probability
    return .obj (out.filter fun e => e.1 ∈ ["name", "description", "probability", "target_price"])
  | .str s =>
    .ok (.obj [("name", .str "scenario"), ("description", .str s),
      ("probability", .float (.fin (1 / 2)))])
  | number => do
    let price ← number.toFloat
    return .obj [("name", .str "scenario"), ("description", .str "LLM numeric scenario"),
      ("probability", .float (.fin (1 / 2))), ("target_price", .float price)]

/-- `_fill_symbol_action_defaults`, up to the zone. -/
def planDefaults (plan : Dict PyJson) : Dict PyJson :=
  let plan := Dict.ensure plan "confidence" (.int 50)
  let plan := Dict.ensure plan "target_position_pct" (.float (.fin 0))
  let plan := Dict.ensure plan "thesis"
    (((Dict.read plan "reason").orElse (Dict.read plan "summary")).orElse (.str "LLM plan"))
  let plan := Dict.ensure plan "invalidation"
    ((Dict.read plan "stop_condition").orElse (.str "n/a"))
  let plan := Dict.ensure plan "order_type" (.str "limit")
  let plan := Dict.ensure plan "time_horizon" (.str "intraday")
  Dict.ensure plan "take_profit" (.arr [])

def scaleConfidence (plan : Dict PyJson) : Dict PyJson :=
  match Dict.read plan "confidence" with
  | .float (.fin q) =>
    if 0 ≤ q ∧ q ≤ 1 then Dict.set plan "confidence" (.int (roundHalfEven (q * 100))) else plan
  | _ => plan

/-- `_fill_symbol_action_defaults`. -/
def fillSymbolActionDefaults (plan : Dict PyJson) : Except PyRaise (Dict PyJson) := do
  let plan ← Dict.adjustM (planDefaults plan) "entry_zone" normalizePriceZone
  return scaleConfidence plan

/-! ## Scenarios -/

/-- The scenarios found so far and the object they are put into. -/
structure ScenarioSplit where
  view : Dict PyJson
  upside : PyJson
  downside : PyJson

def ScenarioSplit.up (s : ScenarioSplit) (scen : PyJson) : ScenarioSplit :=
  { s with view := Dict.set s.view "upside_scenario" scen, upside := scen }

def ScenarioSplit.down (s : ScenarioSplit) (scen : PyJson) : ScenarioSplit :=
  { s with view := Dict.set s.view "downside_scenario" scen, downside := scen }

def ScenarioSplit.sort (s : ScenarioSplit) (scen : Dict PyJson) : ScenarioSplit :=
  let word (key : String) := Casing.lower (t.text ((Dict.read scen key).orElse (.str "")))
  let blob := word "name" ++ " " ++ word "description"
  let isUp := ["up", "bull", "rally", "positive"].any (hasPart blob)
  let isDown := ["down", "bear", "sell", "negative"].any (hasPart blob)
  if s.upside.isNull && isUp then s.up (.obj scen)
  else if s.downside.isNull && isDown then s.down (.obj scen)
  else if s.upside.isNull then s.up (.obj scen)
  else if s.downside.isNull then s.down (.obj scen)
  else s

def ScenarioSplit.place (s : ScenarioSplit) (item : PyJson) : Except PyRaise ScenarioSplit := do
  match ← normalizeScenario item with
  | .obj scen => return s.sort t scen
  | _ => return s

def UPSIDE_KEYS : List String := ["upside", "upside_scenario", "bull", "positive"]

def DOWNSIDE_KEYS : List String := ["downside", "downside_scenario", "bear", "negative"]

/-- The upside of an object of scenarios, where the view has none. -/
def ScenarioSplit.fillUp (s : ScenarioSplit) (entries : Dict PyJson) : Except PyRaise ScenarioSplit :=
  match s.upside.isNull, Dict.firstOf entries UPSIDE_KEYS fun v => !v.isNull with
  | true, some found => s.up <$> normalizeScenario found
  | _, _ => .ok s

/-- The downside of an object of scenarios, where the view has none. -/
def ScenarioSplit.fillDown (s : ScenarioSplit) (entries : Dict PyJson) :
    Except PyRaise ScenarioSplit :=
  match s.downside.isNull, Dict.firstOf entries DOWNSIDE_KEYS fun v => !v.isNull with
  | true, some found => s.down <$> normalizeScenario found
  | _, _ => .ok s

/-- `_split_scenarios_list`. -/
def splitScenariosList (view : Dict PyJson) : Except PyRaise (Dict PyJson) := do
  let raw := Dict.read view "scenarios"
  let view := Dict.erase view "scenarios"
  let start : ScenarioSplit :=
    { view, upside := Dict.read view "upside_scenario",
      downside := Dict.read view "downside_scenario" }
  match raw with
  | .null => return view
  | .obj entries =>
    let s ← start.fillUp entries
    let s ← s.fillDown entries
    if !s.upside.isNull && !s.downside.isNull then return s.view
    else
      let rest := entries.filter fun e => e.1 ∉ UPSIDE_KEYS ++ DOWNSIDE_KEYS
      let s ← (rest.map (·.2)).foldlM (ScenarioSplit.place t) s
      return s.view
  | .arr items =>
    let s ← items.foldlM (ScenarioSplit.place t) start
    return s.view
  | v =>
    let s ← start.place t v
    return s.view

/-! ## Events -/

/-- `_clamp_importance`. -/
def clampImportance (value : PyJson) : Except PyRaise PyJson :=
  value.floatOr value fun num =>
    match num with
    | .fin q =>
      if 5 < q then
        .ok (.int (if q ≤ 100 then max 1 (min 5 (roundHalfEven (q / 20))) else 5))
      else if q < 1 then .ok (.int 1)
      else .ok (.int (roundHalfEven q))
    | .inf => .ok (.int 5)
    | .negInf => .ok (.int 1)
    -- what is no number passes both comparisons and cannot be rounded
    | .nan => .error .valueError

def lacksHeadline (ev : Dict PyJson) : Bool :=
  !Dict.contains ev "headline" ||
    strip (t.text ((Dict.read ev "headline").orElse (.str ""))) = ""

def otherHeadline (ev : Dict PyJson) : Dict PyJson :=
  match lacksHeadline t ev, Dict.firstOf ev ["title", "summary", "text", "name", "event",
      "description"] PyJson.truthy with
  | true, some alt => Dict.set ev "headline" (asText t alt)
  | _, _ => ev

def firstInterpretation (ev : Dict PyJson) : Dict PyJson :=
  match Dict.get? ev "interpretations" with
  | none => ev
  | some interps =>
    let ev := Dict.erase ev "interpretations"
    if Dict.contains ev "interpretation" || !interps.truthy then ev
    else
      match interps with
      | .arr (first :: _) => Dict.set ev "interpretation" (asText t first)
      | v => Dict.set ev "interpretation" (asText t v)

def lastHeadline (ev : Dict PyJson) : Dict PyJson :=
  if lacksHeadline t ev then
    match Dict.read ev "facts" with
    | .arr (.str fact :: _) =>
      let ev := Dict.set ev "headline" (.str fact)
      if lacksHeadline t ev then Dict.set ev "headline" (.str "Untitled market event") else ev
    | _ => Dict.set ev "headline" (.str "Untitled market event")
  else ev

/-- `_normalize_market_event` up to the importance: headline, interpretation and facts. -/
def eventTexts (ev : Dict PyJson) : Dict PyJson :=
  let ev := firstInterpretation t (otherHeadline t ev)
  let ev := Dict.set ev "facts" (strings (asStringList t (Dict.read ev "facts")))
  Dict.without (lastHeadline t ev) ["themes", "conflicts", "missing_information",
    "data_quality_score", "as_of", "title", "summary", "text"]

def eventLists (ev : Dict PyJson) : Dict PyJson :=
  let ev :=
    match Dict.read ev "uncertainties" with
    | .null | .bool _ | .int _ | .float _ => ev
    | v => Dict.set ev "uncertainties" (strings (asStringList t v))
  let ev := Dict.ensure ev "source" (.str "unknown")
  match Dict.read ev "symbols" with
  | .str s => Dict.set ev "symbols" (strings (asStringList t (.str s)))
  | .obj es => Dict.set ev "symbols" (strings (asStringList t (.obj es)))
  | _ => ev

/-- `_normalize_market_event` from the importance on: the lists, and what is left out. -/
def eventDefaults (ev : Dict PyJson) : Dict PyJson :=
  let ev := Dict.ensure (eventLists t ev) "symbols" (.arr [])
  let ev := Dict.ensure ev "facts" (.arr [])
  let ev := Dict.ensure ev "uncertainties" (.arr [])
  let ev := Dict.ensure ev "category" (.str "other")
  let ev := Dict.ensure ev "sentiment" (.str "neutral")
  Dict.ensure ev "published_at" (.str t.now)

def eventImportance (ev : Dict PyJson) : Except PyRaise PyJson :=
  match Dict.get? ev "importance" with
  | some v => clampImportance v
  | none => .ok (.int 3)

/-- `_normalize_market_event`. -/
def normalizeMarketEvent (ev : Dict PyJson) : Except PyRaise (Dict PyJson) := do
  let ev := eventTexts t ev
  let importance ← eventImportance ev
  return eventDefaults t (Dict.set ev "importance" importance)

/-! ## Sectors -/

def sectorRow (sector bias rationale : String) : PyJson :=
  .obj [("sector", .str sector), ("bias", .str bias), ("rationale", .str rationale)]

def sectorItem : PyJson → Option PyJson
  | .obj item =>
    some (sectorRow
      (t.text (((Dict.read item "sector").orElse (Dict.read item "name")).orElse (.str "unknown")))
      (t.text (((Dict.read item "bias").orElse (Dict.read item "direction")).orElse
        (.str "neutral")))
      (t.text ((((Dict.read item "rationale").orElse (Dict.read item "reason")).orElse
        (Dict.read item "summary")).orElse (.str ""))))
  | .str s => some (sectorRow s "neutral" "")
  | _ => none

/-- `_normalize_sector_impact`. -/
def normalizeSectorImpact : PyJson → PyJson
  | .null => .arr []
  | .arr items => .arr (items.filterMap (sectorItem t))
  | .obj value =>
    if Dict.contains value "sector" ∧ Dict.contains value "bias" then
      .arr [sectorRow (t.text ((Dict.read value "sector").orElse (.str "unknown")))
        (t.text ((Dict.read value "bias").orElse (.str "neutral")))
        (t.text ((Dict.read value "rationale").orElse (.str "")))]
    else
      .arr (value.map fun e =>
        .obj [("sector", .str e.1), ("bias", .str "neutral"), ("rationale", asText t e.2)])
  | v => v

end Values

end Investor.Agents.Reply
