import Investor.Workflow.Desk

/-!
# Operation modes and the reanalysis budget

The intraday committee is called within limits: the operation mode, a cap on the reanalyses of
a day, one on those of a symbol, and cooldowns after the horizon of the books in play. What has
been spent is kept by the event bus while a tick runs and between ticks in the metadata of the
run, under the key `reanalysis`.
-/

namespace Investor.Intraday

open Lib Market Universe Execution Workflow

/-! ## Modes -/

/-- `IntradayOperationMode`. -/
inductive IntradayOperationMode
  | observeOnly | analyzeOnly | manualApproval | paperAutomated | paused | emergencyStop
  deriving DecidableEq

namespace IntradayOperationMode

def value : IntradayOperationMode → String
  | .observeOnly => "OBSERVE_ONLY"
  | .analyzeOnly => "ANALYZE_ONLY"
  | .manualApproval => "MANUAL_APPROVAL"
  | .paperAutomated => "PAPER_AUTOMATED"
  | .paused => "PAUSED"
  | .emergencyStop => "EMERGENCY_STOP"

def ofValue (text : String) : Option IntradayOperationMode :=
  [observeOnly, analyzeOnly, manualApproval, paperAutomated, paused, emergencyStop].find?
    (·.value = text)

/-- `can_analyze`. -/
def canAnalyze : IntradayOperationMode → Bool
  | .observeOnly | .analyzeOnly | .manualApproval | .paperAutomated => true
  | _ => false

/-- `can_create_intent`. -/
def canCreateIntent : IntradayOperationMode → Bool
  | .analyzeOnly | .manualApproval | .paperAutomated => true
  | _ => false

/-- `can_submit`. -/
def canSubmit : IntradayOperationMode → Bool
  | .manualApproval | .paperAutomated => true
  | _ => false

/-- `intents_are_draft_only`. -/
def intentsAreDraftOnly : IntradayOperationMode → Bool
  | .observeOnly | .analyzeOnly => true
  | _ => false

end IntradayOperationMode

/-- `resolve_mode`. -/
def resolveMode [Casing] (cfg : WorkflowSettings) (state : TradingState) : IntradayOperationMode :=
  match state with
  | .emergencyStop => .emergencyStop
  | .paused => .paused
  | .active =>
    let raw := if cfg.intradayOperationMode = "" then "OBSERVE_ONLY" else cfg.intradayOperationMode
    (IntradayOperationMode.ofValue (Casing.upper raw)).getD .observeOnly

/-! ## What has been spent -/

/-- The reanalyses so far, oldest first, and those of each symbol. -/
structure ReanalysisState where
  times : List Int
  bySymbol : Dict (List Int)
  deriving DecidableEq

section Budget

variable [Casing]

/-- The instants of a stored list; what is no instant is left out. -/
def storedTimes : Json → List Int
  | .arr items => items.filterMap stamp?
  | _ => []

/-- `load_reanalysis_state`. -/
def loadReanalysisState : Json → ReanalysisState
  | .obj data =>
    { times := storedTimes (Dict.at data "global")
      bySymbol := match Dict.at data "by_symbol" with
        | .obj entries => Dict.ofPairs ((entries.map fun e =>
            (Casing.upper e.1, storedTimes e.2)).filter fun e => !e.2.isEmpty)
        | _ => [] }
  | _ => { times := [], bySymbol := [] }

/-- `effective_max_intraday_reanalyses`. -/
def effectiveMaxIntradayReanalyses (cfg : WorkflowSettings) : Int :=
  max 1 (if cfg.llmIsLocal then cfg.maxIntradayReanalysesLocal else cfg.maxIntradayReanalyses)

/-- The last `keep` of them, as they are stored. -/
def dumpTimes (keep : ℕ) (times : List Int) : Json :=
  .arr ((times.drop (times.length - keep)).map stamp)

/-- `dump_reanalysis_state`. -/
def dumpReanalysisState (cfg : WorkflowSettings) (s : ReanalysisState) : Json :=
  let keep := (max 20 (effectiveMaxIntradayReanalyses cfg * 3)).toNat
  .obj [("global", dumpTimes keep s.times),
    ("by_symbol", .obj (s.bySymbol.map fun e => (e.1, dumpTimes keep e.2)))]

/-- `record_reanalysis`. -/
def recordReanalysis (symbols : List String) (now : Int) (s : ReanalysisState) :
    ReanalysisState :=
  { times := s.times ++ [now]
    bySymbol := symbols.foldl (fun acc sym =>
      Dict.set acc (Casing.upper sym) ((Dict.get? acc (Casing.upper sym)).getD [] ++ [now]))
      s.bySymbol }

/-! ## What may be spent -/

/-- `reeval_seconds_for_horizon`. -/
def reevalSecondsForHorizon (cfg : WorkflowSettings) (horizon : Option String) : ℚ :=
  match horizon.bind policyFor with
  | some policy => max 60 policy.reevalSeconds
  | none => max 60 cfg.intradayMinReevalSeconds

/-- `symbol_reeval_gap_minutes`. -/
def symbolReevalGapMinutes (cfg : WorkflowSettings) (horizons : Dict String) (symbol : String) :
    ℚ :=
  max 1 (reevalSecondsForHorizon cfg (Dict.get? horizons (Casing.upper symbol)) / 60)

/-- `global_reeval_gap_minutes`: the tightest of the symbols'. -/
def globalReevalGapMinutes (cfg : WorkflowSettings) (horizons : Dict String)
    (symbols : List String) : ℚ :=
  let seconds := symbols.map fun s =>
    reevalSecondsForHorizon cfg (Dict.get? horizons (Casing.upper s))
  max 1 (max 60 (seconds.min?.getD cfg.intradayMinReevalSeconds) / 60)

def dayStart (now : Int) : Int := now - now % 86400

def countToday (now : Int) (times : List Int) : ℕ := (times.filter (dayStart now ≤ ·)).length

def coolsDown (now : Int) (gapMinutes : ℚ) (times : List Int) : Bool :=
  match times.getLast? with
  | some t => decide ((now - t : ℚ) / 60 < gapMinutes)
  | none => false

def symbolRefusal (cfg : WorkflowSettings) (horizons : Dict String) (now : Int)
    (s : ReanalysisState) (symbol : String) : Option String :=
  let times := (Dict.get? s.bySymbol (Casing.upper symbol)).getD []
  if cfg.maxSymbolReanalysesPerDay ≤ countToday now times then some s!"symbol_max:{symbol}"
  else if coolsDown now (symbolReevalGapMinutes cfg horizons symbol) times then
    some s!"symbol_cooldown:{symbol}"
  else none

/-- `allow_reanalysis`: why not, if not. -/
def reanalysisRefusal (cfg : WorkflowSettings) (symbols : List String) (bypass : Bool)
    (now : Int) (horizons : Dict String) (s : ReanalysisState) : Option String :=
  if bypass then none
  else if effectiveMaxIntradayReanalyses cfg ≤ countToday now s.times then
    some "max_intraday_reanalyses"
  else if coolsDown now (globalReevalGapMinutes cfg horizons
      (if symbols.isEmpty then ["PORTFOLIO"] else symbols)) s.times then
    some "global_cooldown"
  else symbols.findSome? (symbolRefusal cfg horizons now s)

end Budget

/-! ## What is recorded is counted -/

section Counted

theorem storedTimes_dumpTimes (keep : ℕ) (times : List Int) :
    storedTimes (dumpTimes keep times) = times.drop (times.length - keep) := by
  show ((times.drop (times.length - keep)).map stamp).filterMap stamp? = _
  rw [List.filterMap_map, show stamp? ∘ stamp = some from funext stamp?_stamp]
  exact List.filterMap_some

theorem mem_stored_of_last {keep : ℕ} (hkeep : 0 < keep) {times : List Int} {now : Int}
    (h : times.getLast? = some now) : now ∈ storedTimes (dumpTimes keep times) := by
  rw [storedTimes_dumpTimes]
  obtain ⟨front, rfl⟩ := List.getLast?_eq_some_iff.mp h
  rw [List.length_append, List.length_singleton, List.drop_append_of_le_length (by omega)]
  exact List.mem_append_right _ (List.mem_singleton.mpr rfl)

variable [Casing]

structure FoldedKeys (d : Dict (List Int)) : Prop where
  distinct : (d.map (·.1)).Nodup
  folded : ∀ e ∈ d, Casing.upper e.1 = e.1

theorem foldedKeys_load (entry : Json) : FoldedKeys (loadReanalysisState entry).bySymbol := by
  have hnil : FoldedKeys ([] : Dict (List Int)) := ⟨List.nodup_nil, fun e he => nomatch he⟩
  unfold loadReanalysisState
  split
  · dsimp only
    split
    · refine ⟨Dict.nodup_ofPairs _, fun e he => ?_⟩
      have hmem := List.mem_of_mem_filter (Dict.mem_ofPairs he)
      obtain ⟨x, _, rfl⟩ := List.mem_map.mp hmem
      exact Casing.upper_upper x.1
    · exact hnil
  · exact hnil

def EndsWith (now : Int) (d : Dict (List Int)) (key : String) : Prop :=
  ∃ times, Dict.get? d key = some times ∧ times.getLast? = some now

theorem record_ends {now : Int} {symbols : List String} : ∀ {d : Dict (List Int)},
    FoldedKeys d →
    let d' := symbols.foldl (fun acc sym =>
      Dict.set acc (Casing.upper sym) ((Dict.get? acc (Casing.upper sym)).getD [] ++ [now])) d
    FoldedKeys d' ∧ ∀ key, (EndsWith now d key ∨ ∃ s ∈ symbols, Casing.upper s = key) →
      EndsWith now d' key := by
  induction symbols with
  | nil =>
    intro d hd
    refine ⟨hd, fun key h => h.resolve_right ?_⟩
    rintro ⟨s, hs, _⟩
    cases hs
  | cons s symbols ih =>
    intro d hd
    let times := (Dict.get? d (Casing.upper s)).getD [] ++ [now]
    have hset : FoldedKeys (Dict.set d (Casing.upper s) times) := by
      refine ⟨Dict.nodup_set hd.distinct _ _, fun e he => ?_⟩
      rcases Dict.mem_set he with he | rfl
      · exact hd.folded e he
      · exact Casing.upper_upper s
    obtain ⟨hfolded, hends⟩ := ih hset
    refine ⟨hfolded, fun key h => hends key ?_⟩
    by_cases hkey : Casing.upper s = key
    · left
      refine ⟨times, ?_, List.getLast?_concat⟩
      rw [← hkey]
      exact Dict.get?_set_self d _ _
    · rcases h with ⟨old, hold, hlast⟩ | ⟨s', hs', hkey'⟩
      · exact Or.inl ⟨old, (Dict.get?_set_of_ne d times hkey).trans hold, hlast⟩
      · rcases List.mem_cons.mp hs' with rfl | hs'
        · exact absurd hkey' hkey
        · exact Or.inr ⟨s', hs', hkey'⟩

theorem counted_of_recorded (cfg : WorkflowSettings) (entry : Json) (symbols : List String)
    (now : Int) :
    let s := loadReanalysisState (dumpReanalysisState cfg
      (recordReanalysis symbols now (loadReanalysisState entry)))
    now ∈ s.times ∧ ∀ sym ∈ symbols, now ∈ (Dict.get? s.bySymbol (Casing.upper sym)).getD [] := by
  let keep := (max 20 (effectiveMaxIntradayReanalyses cfg * 3)).toNat
  have hkeep : 0 < keep := by omega
  let recorded := recordReanalysis symbols now (loadReanalysisState entry)
  obtain ⟨hfolded, hends⟩ := @record_ends _ now symbols _ (foldedKeys_load entry)
  refine ⟨mem_stored_of_last hkeep List.getLast?_concat, fun sym hsym => ?_⟩
  obtain ⟨times, htimes, hlast⟩ := hends (Casing.upper sym) (Or.inr ⟨sym, hsym, rfl⟩)
  let pairs := ((recorded.bySymbol.map fun e => (e.1, dumpTimes keep e.2)).map fun e =>
    (Casing.upper e.1, storedTimes e.2)).filter fun e => !e.2.isEmpty
  show now ∈ (Dict.get? (Dict.ofPairs pairs) (Casing.upper sym)).getD []
  have hkeys : (pairs.map (·.1)).Nodup := by
    refine List.Nodup.sublist (List.filter_sublist.map _) ?_
    have hsame : recorded.bySymbol.map (fun e => Casing.upper e.1) =
        recorded.bySymbol.map (·.1) := List.map_congr_left fun e he => hfolded.folded e he
    rw [List.map_map, List.map_map]
    show (recorded.bySymbol.map fun e => Casing.upper e.1).Nodup
    rw [hsame]
    exact hfolded.distinct
  have hlast := mem_stored_of_last hkeep hlast
  have hentry : (Casing.upper sym, storedTimes (dumpTimes keep times)) ∈ pairs := by
    refine List.mem_filter.mpr ⟨?_, by simp [List.ne_nil_of_mem hlast]⟩
    refine List.mem_map.mpr ⟨_, List.mem_map_of_mem (Dict.mem_of_get? htimes), ?_⟩
    rw [Casing.upper_upper]
  have hfound := @Dict.get?_merge_of_mem _ [] pairs hkeys _ hentry
  rw [show Dict.ofPairs pairs = Dict.merge [] pairs from rfl, hfound]
  exact hlast

end Counted

end Investor.Intraday
