import Investor.Intraday.EventBus
import Investor.Intraday.Reanalysis
import Investor.Lib.Datetime

/-!
# The stored reanalyses

Between ticks the bus is thrown away, and what it has recorded is kept as texts in the metadata of
the run. `dump_reanalysis_state` stores the last times only, as many as three days' worth and
never under twenty; `load_reanalysis_state` reads them into a fresh bus.

What a query asks of a list of times is how many of them are of the day, against a cap, and which
was the last. Recorded in order, the last times have both, for every cap within their number
(`countSince_rtake`, `getLast?_rtake`); so a bus that was stored and loaded answers as the one it
was stored from (`allow_reloaded`).
-/

namespace Investor.Intraday

open Lib Market Universe Execution Workflow

/-- What the bus has of the reanalyses: all of them, and those of each symbol, oldest first. -/
structure IntradayEventBus where
  reanalysisTimes : List Datetime
  symbolReanalysis : Dict (List Datetime)
  deriving DecidableEq

namespace IntradayEventBus

def fresh : IntradayEventBus := ⟨[], []⟩

/-! ## Storing and loading -/

def kept (cfg : WorkflowSettings) : ℕ := (max 20 (effectiveMaxIntradayReanalyses cfg * 3)).toNat

/-- The last `n` of them, as texts. -/
def dumpTimes (n : ℕ) (times : List Datetime) : Json :=
  .arr ((times.rtake n).map fun t => .str t.isoformat)

/-- `dump_reanalysis_state`. -/
def dumpReanalysisState (cfg : WorkflowSettings) (bus : IntradayEventBus) : Json :=
  .obj [("global", dumpTimes (kept cfg) bus.reanalysisTimes),
    ("by_symbol", .obj (bus.symbolReanalysis.map fun e => (e.1, dumpTimes (kept cfg) e.2)))]

section Load

variable [Casing] (str : Json → String)

/-- `_parse_ts`: a naive time is UTC. -/
def parseTs (raw : Json) : Option Datetime :=
  if raw.isNull then none
  else (fromisoformat (valueText str raw)).map fun d => ⟨d.1, d.2.getD Zone.utc⟩

/-- `for x in value`, `none` where that raises. -/
def items? : Json → Option (List Json)
  | .arr items => some items
  | .str s => some (s.toList.map fun c => .str (String.ofList [c]))
  | .obj entries => some (entries.map fun e => .str e.1)
  | _ => none

def parseTimes (value : Json) : Option (List Datetime) :=
  (items? (value.orElse (.arr []))).map fun items => items.filterMap (parseTs str)

def parseBySymbol : Json → Option (Dict (List Datetime))
  | .obj entries =>
    (entries.mapM fun e => (parseTimes str e.2).map fun times => (Casing.upper e.1, times)).map
      fun pairs => Dict.ofPairs (pairs.filter fun e => !e.2.isEmpty)
  | _ => some []

def entriesOf : Json → Dict Json
  | .obj entries => entries
  | _ => []

/-- `load_reanalysis_state`, `none` where it raises. What the bus had before is gone. -/
def loadReanalysisState (raw : Json) : Option IntradayEventBus :=
  (parseTimes str (Dict.at (entriesOf raw) "global")).bind fun times =>
    (parseBySymbol str ((Dict.at (entriesOf raw) "by_symbol").orElse (.obj []))).map fun bySymbol =>
      ⟨times, bySymbol⟩

end Load

/-! ## Recording and asking -/

section Ask

variable [Casing]

def recordSymbol (now : Datetime) (d : Dict (List Datetime)) (symbol : String) :
    Dict (List Datetime) :=
  Dict.set d (Casing.upper symbol) ((Dict.get? d (Casing.upper symbol)).getD [] ++ [now])

/-- `record_reanalysis`. -/
def recordReanalysis (symbols : List String) (now : Datetime) (bus : IntradayEventBus) :
    IntradayEventBus :=
  { reanalysisTimes := bus.reanalysisTimes ++ [now]
    symbolReanalysis := symbols.foldl (recordSymbol now) bus.symbolReanalysis }

def countSince (start : Datetime) (times : List Datetime) : ℕ :=
  times.countP fun t => start.instant ≤ t.instant

def minutesSince (now t : Datetime) : ℚ := ((now.instant - t.instant : Int) : ℚ) / 1000000 / 60

def tooSoon (now : Datetime) (gapMinutes : ℚ) (times : List Datetime) : Bool :=
  times.getLast?.any fun t => decide (minutesSince now t < gapMinutes)

def refuseSymbol (cfg : WorkflowSettings) (now : Datetime) (horizons : Dict String)
    (bus : IntradayEventBus) (symbol : String) : Option String :=
  let times := (Dict.get? bus.symbolReanalysis (Casing.upper symbol)).getD []
  if cfg.maxSymbolReanalysesPerDay ≤ countSince now.midnight times then some s!"symbol_max:{symbol}"
  else if tooSoon now (symbolReevalGapMinutes cfg horizons symbol) times then
    some s!"symbol_cooldown:{symbol}"
  else none

/-- `allow_reanalysis`. -/
def allowReanalysis (cfg : WorkflowSettings) (symbols : List String) (bypass : Bool)
    (now : Datetime) (horizons : Dict String) (bus : IntradayEventBus) : Bool × Option String :=
  if bypass then (true, none)
  else if effectiveMaxIntradayReanalyses cfg ≤ countSince now.midnight bus.reanalysisTimes then
    (false, some "max_intraday_reanalyses")
  else if tooSoon now (globalReevalGapMinutes cfg horizons
      (if symbols.isEmpty then ["PORTFOLIO"] else symbols)) bus.reanalysisTimes then
    (false, some "global_cooldown")
  else
    match symbols.findSome? (refuseSymbol cfg now horizons bus) with
    | some why => (false, some why)
    | none => (true, none)

/-- A call of `record_reanalysis`. -/
structure RecordCall where
  symbols : List String
  now : Datetime

def recorded (calls : List RecordCall) : IntradayEventBus :=
  calls.foldl (fun bus call => recordReanalysis call.symbols call.now bus) fresh

end Ask

/-! ## What is recorded -/

def Ordered (times : List Datetime) : Prop := times.Pairwise fun s t => s.instant ≤ t.instant

structure SymbolTimes (all times : List Datetime) : Prop where
  ordered : Ordered times
  ne_nil : times ≠ []
  subset : ∀ t ∈ times, t ∈ all

section Record

structure SymbolsOf [Casing] (all : List Datetime) (d : Dict (List Datetime)) : Prop where
  distinct : (d.map (·.1)).Nodup
  folded : ∀ e ∈ d, Casing.upper e.1 = e.1
  times : ∀ e ∈ d, SymbolTimes all e.2

/-- All times are in order, and so are those of every symbol. -/
structure Recorded [Casing] (bus : IntradayEventBus) : Prop where
  ordered : Ordered bus.reanalysisTimes
  symbols : SymbolsOf bus.reanalysisTimes bus.symbolReanalysis

variable {all : List Datetime} {d : Dict (List Datetime)} {now : Datetime} {bus : IntradayEventBus}

theorem ordered_concat {times : List Datetime} (h : Ordered times)
    (hlast : ∀ t ∈ times, t.instant ≤ now.instant) : Ordered (times ++ [now]) := by
  refine List.pairwise_append.mpr ⟨h, List.pairwise_singleton _ _, fun t ht s hs => ?_⟩
  rw [List.mem_singleton.mp hs]
  exact hlast t ht

variable [Casing]

theorem SymbolsOf.recordSymbol (h : SymbolsOf all d) (hnow : now ∈ all)
    (hlast : ∀ t ∈ all, t.instant ≤ now.instant) (symbol : String) :
    SymbolsOf all (recordSymbol now d symbol) := by
  have hold : Ordered ((Dict.get? d (Casing.upper symbol)).getD []) ∧
      ∀ t ∈ (Dict.get? d (Casing.upper symbol)).getD [], t ∈ all := by
    cases hget : Dict.get? d (Casing.upper symbol) with
    | none => exact ⟨List.Pairwise.nil, fun t ht => nomatch ht⟩
    | some times =>
      have htimes := h.times _ (Dict.mem_of_get? hget)
      exact ⟨htimes.ordered, htimes.subset⟩
  refine ⟨Dict.nodup_set h.distinct _ _, fun e he => ?_, fun e he => ?_⟩
  · rcases Dict.mem_set he with he | rfl
    · exact h.folded e he
    · exact Casing.upper_upper symbol
  · rcases Dict.mem_set he with he | rfl
    · exact h.times e he
    · refine ⟨ordered_concat hold.1 fun t ht => hlast t (hold.2 t ht), by simp, fun t ht => ?_⟩
      rcases List.mem_append.mp ht with ht | ht
      · exact hold.2 t ht
      · rw [List.mem_singleton.mp ht]
        exact hnow

theorem SymbolsOf.recordSymbols (h : SymbolsOf all d) (hnow : now ∈ all)
    (hlast : ∀ t ∈ all, t.instant ≤ now.instant) (symbols : List String) :
    SymbolsOf all (symbols.foldl (IntradayEventBus.recordSymbol now) d) := by
  induction symbols generalizing d with
  | nil => exact h
  | cons symbol symbols ih => exact ih (h.recordSymbol hnow hlast symbol)

theorem Recorded.record (h : Recorded bus)
    (hlast : ∀ t ∈ bus.reanalysisTimes, t.instant ≤ now.instant) (symbols : List String) :
    Recorded (recordReanalysis symbols now bus) := by
  have hall : ∀ t ∈ bus.reanalysisTimes ++ [now], t.instant ≤ now.instant := by
    intro t ht
    rcases List.mem_append.mp ht with ht | ht
    · exact hlast t ht
    · rw [List.mem_singleton.mp ht]
  have hwider : SymbolsOf (bus.reanalysisTimes ++ [now]) bus.symbolReanalysis :=
    ⟨h.symbols.distinct, h.symbols.folded, fun e he =>
      ⟨(h.symbols.times e he).ordered, (h.symbols.times e he).ne_nil,
        fun t ht => List.mem_append_left _ ((h.symbols.times e he).subset t ht)⟩⟩
  exact ⟨ordered_concat h.ordered hlast, hwider.recordSymbols (by simp) hall symbols⟩

def CallsInOrder (calls : List RecordCall) : Prop :=
  calls.Pairwise fun a b => a.now.instant ≤ b.now.instant

theorem recorded_foldl {calls : List RecordCall} (horder : CallsInOrder calls) (h : Recorded bus)
    (hlater : ∀ call ∈ calls, ∀ t ∈ bus.reanalysisTimes, t.instant ≤ call.now.instant) :
    Recorded (calls.foldl (fun bus call => recordReanalysis call.symbols call.now bus) bus) := by
  induction calls generalizing bus with
  | nil => exact h
  | cons call calls ih =>
    obtain ⟨hfirst, hrest⟩ := List.pairwise_cons.mp horder
    refine ih hrest (h.record (hlater call List.mem_cons_self) call.symbols) fun call' hcall' t ht => ?_
    rcases List.mem_append.mp ht with ht | ht
    · exact hlater call' (List.mem_cons_of_mem _ hcall') t ht
    · rw [List.mem_singleton.mp ht]
      exact hfirst call' hcall'

theorem recorded_recorded {calls : List RecordCall} (horder : CallsInOrder calls) :
    Recorded (recorded calls) :=
  recorded_foldl horder ⟨List.Pairwise.nil, ⟨List.nodup_nil, List.forall_mem_nil _,
    List.forall_mem_nil _⟩⟩ fun _ _ => List.forall_mem_nil _

end Record

/-! ## What is loaded -/

/-- The bus with the last `n` times of each list. -/
def cut (n : ℕ) (bus : IntradayEventBus) : IntradayEventBus :=
  { reanalysisTimes := bus.reanalysisTimes.rtake n
    symbolReanalysis := bus.symbolReanalysis.map fun e => (e.1, e.2.rtake n) }

theorem kept_pos (cfg : WorkflowSettings) : 0 < kept cfg := by
  unfold kept
  omega

section Loaded

variable {str : Json → String}

theorem parseTs_isoformat (t : Datetime) : parseTs str (.str t.isoformat) = some t := by
  unfold parseTs
  rw [if_neg (show ¬ (Json.str t.isoformat).isNull = true from Bool.false_ne_true)]
  show (fromisoformat t.isoformat).map _ = _
  rw [Datetime.fromisoformat_isoformat]
  rfl

theorem parseTimes_dumpTimes (n : ℕ) (times : List Datetime) :
    parseTimes str (dumpTimes n times) = some (times.rtake n) := by
  have hread : ∀ ts : List Datetime,
      (ts.map fun t => Json.str t.isoformat).filterMap (parseTs str) = ts := by
    intro ts
    rw [List.filterMap_map, show parseTs str ∘ (fun t => Json.str t.isoformat) = some from
      funext parseTs_isoformat, List.filterMap_some]
  have hitems : items? ((dumpTimes n times).orElse (.arr [])) =
      some ((times.rtake n).map fun t => .str t.isoformat) := by
    unfold dumpTimes Json.orElse
    cases times.rtake n with
    | nil => rfl
    | cons t ts => rfl
  rw [parseTimes, hitems, Option.map_some, hread]

theorem mapM_of_all {α β γ : Type} {f : β → Option γ} {g : α → β} {k : α → γ} {xs : List α}
    (h : ∀ x ∈ xs, f (g x) = some (k x)) : (xs.map g).mapM f = some (xs.map k) := by
  induction xs with
  | nil => rfl
  | cons x xs ih =>
    rw [List.map_cons, List.mapM_cons, h x List.mem_cons_self,
      ih fun y hy => h y (List.mem_cons_of_mem _ hy)]
    rfl

variable [Casing] {bus : IntradayEventBus}

/-- Loading gives back the times that were kept. -/
theorem load_dump (cfg : WorkflowSettings) (h : Recorded bus) :
    loadReanalysisState str (dumpReanalysisState cfg bus) = some (cut (kept cfg) bus) := by
  let pairs := bus.symbolReanalysis.map fun e => (e.1, e.2.rtake (kept cfg))
  have hread : (bus.symbolReanalysis.map fun e => (e.1, dumpTimes (kept cfg) e.2)).mapM (fun e =>
      (parseTimes str e.2).map fun times => (Casing.upper e.1, times)) = some pairs := by
    refine mapM_of_all fun e he => ?_
    dsimp only
    rw [parseTimes_dumpTimes, h.symbols.folded e he]
    rfl
  have hnonempty : pairs.filter (fun e => !e.2.isEmpty) = pairs := by
    refine List.filter_eq_self.mpr fun x hx => ?_
    obtain ⟨e, he, rfl⟩ := List.mem_map.mp hx
    have hlast : (e.2.rtake (kept cfg)).getLast? = e.2.getLast? := getLast?_rtake (kept_pos cfg)
    have hne := (h.symbols.times e he).ne_nil
    rw [Bool.not_eq_true', List.isEmpty_eq_false_iff]
    intro hnil
    rw [show e.2.rtake (kept cfg) = [] from hnil, List.getLast?_nil] at hlast
    exact hne (List.getLast?_eq_none_iff.mp hlast.symm)
  have hdistinct : (pairs.map (·.1)).Nodup := by
    rw [List.map_map]
    exact h.symbols.distinct
  have hsymbols : parseBySymbol str ((Json.obj (bus.symbolReanalysis.map fun e =>
      (e.1, dumpTimes (kept cfg) e.2))).orElse (.obj [])) = some pairs := by
    have hself : (Json.obj (bus.symbolReanalysis.map fun e =>
        (e.1, dumpTimes (kept cfg) e.2))).orElse (.obj []) =
        .obj (bus.symbolReanalysis.map fun e => (e.1, dumpTimes (kept cfg) e.2)) := by
      unfold Json.orElse
      cases bus.symbolReanalysis with
      | nil => rfl
      | cons e d => rfl
    rw [hself, parseBySymbol, hread, Option.map_some, hnonempty, Dict.ofPairs_of_nodup hdistinct]
  show (parseTimes str (dumpTimes (kept cfg) bus.reanalysisTimes)).bind _ = _
  rw [parseTimes_dumpTimes, Option.bind_some]
  show (parseBySymbol str ((Json.obj (bus.symbolReanalysis.map fun e =>
      (e.1, dumpTimes (kept cfg) e.2))).orElse (.obj []))).map _ = _
  rw [hsymbols]
  rfl

end Loaded

/-! ## What is answered -/

theorem countSince_rtake {times : List Datetime} (h : Ordered times) (start : Datetime) (n : ℕ) :
    countSince start (times.rtake n) = min n (countSince start times) := by
  refine countP_rtake (h.imp fun {s t} hle hs => ?_) n
  exact decide_eq_true ((of_decide_eq_true hs).trans hle)

theorem cap_rtake {times : List Datetime} (h : Ordered times) (start : Datetime) {n : ℕ} {cap : Int}
    (hcap : cap ≤ n) :
    cap ≤ countSince start (times.rtake n) ↔ cap ≤ countSince start times := by
  rw [countSince_rtake h]
  omega

theorem tooSoon_rtake (now : Datetime) (gap : ℚ) (times : List Datetime) {n : ℕ} (hn : 0 < n) :
    tooSoon now gap (times.rtake n) = tooSoon now gap times := by
  rw [tooSoon, tooSoon, getLast?_rtake hn]

section Answers

variable {cfg : WorkflowSettings} {bus : IntradayEventBus}

theorem effective_le_kept (cfg : WorkflowSettings) : effectiveMaxIntradayReanalyses cfg ≤ kept cfg := by
  unfold kept
  have hone : 1 ≤ effectiveMaxIntradayReanalyses cfg := le_max_left _ _
  omega

theorem refuseSymbol_cut [Casing] (h : Recorded bus) (hcap : cfg.maxSymbolReanalysesPerDay ≤ kept cfg)
    (now : Datetime) (horizons : Dict String) (symbol : String) :
    refuseSymbol cfg now horizons (cut (kept cfg) bus) symbol =
      refuseSymbol cfg now horizons bus symbol := by
  have hget : (Dict.get? (cut (kept cfg) bus).symbolReanalysis (Casing.upper symbol)).getD [] =
      ((Dict.get? bus.symbolReanalysis (Casing.upper symbol)).getD []).rtake (kept cfg) := by
    have hmap := Dict.get?_map_values (fun times : List Datetime => times.rtake (kept cfg))
      bus.symbolReanalysis (Casing.upper symbol)
    rw [show Dict.get? (cut (kept cfg) bus).symbolReanalysis (Casing.upper symbol) = _ from hmap]
    cases Dict.get? bus.symbolReanalysis (Casing.upper symbol) with
    | none => exact (List.rtake_nil (kept cfg)).symm
    | some times => rfl
  have hordered : Ordered ((Dict.get? bus.symbolReanalysis (Casing.upper symbol)).getD []) := by
    cases hfound : Dict.get? bus.symbolReanalysis (Casing.upper symbol) with
    | none => exact List.Pairwise.nil
    | some times => exact (h.symbols.times _ (Dict.mem_of_get? hfound)).ordered
  unfold refuseSymbol
  simp only [hget, cap_rtake hordered now.midnight hcap, tooSoon_rtake now _ _ (kept_pos cfg)]

theorem allow_cut [Casing] (h : Recorded bus) (hcap : cfg.maxSymbolReanalysesPerDay ≤ kept cfg)
    (symbols : List String) (bypass : Bool) (now : Datetime) (horizons : Dict String) :
    allowReanalysis cfg symbols bypass now horizons (cut (kept cfg) bus) =
      allowReanalysis cfg symbols bypass now horizons bus := by
  have hsymbols : refuseSymbol cfg now horizons (cut (kept cfg) bus) =
      refuseSymbol cfg now horizons bus := funext (refuseSymbol_cut h hcap now horizons)
  have hglobal := cap_rtake h.ordered now.midnight (effective_le_kept cfg)
  unfold allowReanalysis
  rw [hsymbols]
  simp only [cut, hglobal, tooSoon_rtake now _ _ (kept_pos cfg)]

/-- **A bus that was stored and loaded answers every query as the one that was stored.** -/
theorem allow_reloaded [Casing] (str : Json → String) (cfg : WorkflowSettings) (calls : List RecordCall)
    (horder : CallsInOrder calls) (hcap : cfg.maxSymbolReanalysesPerDay ≤ kept cfg) :
    ∃ bus, loadReanalysisState str (dumpReanalysisState cfg (recorded calls)) = some bus ∧
      ∀ symbols bypass now horizons, allowReanalysis cfg symbols bypass now horizons bus =
        allowReanalysis cfg symbols bypass now horizons (recorded calls) := by
  have h : Recorded (recorded calls) := recorded_recorded horder
  exact ⟨_, load_dump cfg h, allow_cut h hcap⟩

end Answers

/-! ## A bus between two ticks -/

section Sample

attribute [local instance] asciiCasing

def halfPast (hour microsecond : ℕ) (h : CivilValid 2025 3 4 hour 30 0 microsecond) : Datetime :=
  ⟨⟨2025, 3, 4, hour, 30, 0, microsecond, h⟩, Zone.utc⟩

def afternoon : List RecordCall :=
  [⟨["AAPL", "msft"], halfPast 14 250000 (by decide)⟩, ⟨["AAPL"], halfPast 15 0 (by decide)⟩]

theorem allow_reloaded_afternoon :
    ∃ bus, loadReanalysisState (fun _ => "") (dumpReanalysisState paperSettings (recorded afternoon)) =
        some bus ∧
      ∀ symbols bypass now horizons, allowReanalysis paperSettings symbols bypass now horizons bus =
        allowReanalysis paperSettings symbols bypass now horizons (recorded afternoon) :=
  allow_reloaded (fun _ => "") paperSettings afternoon (by unfold CallsInOrder; decide +kernel)
    (by decide +kernel)

end Sample

end IntradayEventBus

end Investor.Intraday
