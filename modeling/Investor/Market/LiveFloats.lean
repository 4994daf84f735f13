import Investor.Lib.Group
import Investor.Lib.PyJson
import Investor.Market.LivePrices
import Mathlib.Data.String.Basic

/-!
# Prices for execution, as floats

The prices an order may be sized with once more, and now a price is what a float can be. The
filters are comparisons that refuse: `last <= 0`, and a distance of at most 2% from the stub
table. What is no number and what is infinite pass both. `resolveExecutionPrices_safe_iff` says
when all that is resolved may be used: the last candidate that is kept for a symbol is finite, or
a fetched quote replaces it, and the last quote that is kept for a symbol is finite and was asked
for.
-/

namespace Investor.Market

open Lib

namespace Floats

/-- `RawMarketQuote`, the fields the price is taken from. -/
structure FloatQuote where
  symbol : String
  provider : Option String
  last : Option PyFloat
  deriving DecidableEq

section Resolving

variable [Casing]

/-- `looks_like_stub_last`: an infinite price is infinitely far from the table, and no comparison holds
    of what is no number. -/
def looksLikeStub (symbol : String) : PyFloat → Bool
  | .fin last => looksLikeStubLast symbol last
  | .inf | .negInf | .nan => false

/-- `last <= 0 or looks_like_stub_last(symbol, last)`. -/
def refused (symbol : String) (last : PyFloat) : Bool := last.le 0 || looksLikeStub symbol last

/-- `sorted({str(s).upper() for s in symbols if s})`. -/
def requested (symbols : List String) : List String :=
  sortedBy id ((symbols.filter (· ≠ "")).map Casing.upper).dedup

def quoteLast (q : FloatQuote) : Option (String × PyFloat) :=
  if q.provider.any isSimulationPriceProvider then none
  else
    match q.last with
    | none => none
    | some last => if refused q.symbol last then none else some (Casing.upper q.symbol, last)

/-- `fetch_live_last_prices`. -/
def fetchLiveLastPrices (provider : List String → List FloatQuote) (symbols : List String) :
    Dict PyFloat :=
  let syms := requested symbols
  if syms = [] then [] else Dict.ofPairs ((provider syms).filterMap quoteLast)

/-- One round of the loop of `_usable_live_candidates`. -/
def keepCandidate (needed : List String) (out : Dict PyFloat) (e : String × PyJson) :
    Except PyRaise (Dict PyFloat) :=
  let sym := Casing.upper e.1
  if sym ∉ needed ∨ e.2.isNull then .ok out
  else PyJson.floatOr e.2 out fun last =>
    if refused sym last then .ok out else .ok (Dict.set out sym last)

/-- `_usable_live_candidates`. -/
def usableLiveCandidates (candidates : Dict PyJson) (symbols : List String) :
    Except PyRaise (Dict PyFloat) :=
  candidates.foldlM (keepCandidate symbols) []

def keepSimulation (out : Dict PyFloat) (e : String × PyJson) : Except PyRaise (Dict PyFloat) :=
  if !e.2.truthy then .ok out
  else do
    let last ← e.2.toFloat
    if last.gt 0 then .ok (Dict.set out (Casing.upper e.1) last) else .ok out

def fetchedNotes (reused merged : Dict PyFloat) (syms : List String) : List String :=
  let partialNote :=
    if reused = [] then [] else [s!"reused_live_candidate_partial:{reused.length}"]
  if merged = [] then partialNote ++ ["live_prices_unavailable"]
  else
    match syms.filter fun s => !Dict.contains merged s with
    | [] => partialNote
    | stillMissing =>
      partialNote ++ ["live_price_missing:" ++ String.intercalate "," (stillMissing.take 12)]

/-- `resolve_execution_prices`. -/
def resolveExecutionPrices (cfg : Settings) (symbols : List String) (candidates : Dict PyJson)
    (provider : List String → List FloatQuote) : Except PyRaise (Dict PyFloat × List String) := do
  let syms := requested symbols
  if !requiresLiveMarketPrices cfg then
    let cleaned ← candidates.foldlM keepSimulation []
    return (cleaned, ["simulation_prices_allowed"])
  else
    let reused ← usableLiveCandidates candidates syms
    let missing := syms.filter fun s => !Dict.contains reused s
    if missing = [] then return (reused, ["reused_live_candidate_prices"])
    else
      let merged := Dict.merge reused (fetchLiveLastPrices provider missing)
      return (merged, fetchedNotes reused merged syms)

/-- The price `_validate_plan` goes on with, and sizes an entry from. -/
def usablePrice (cfg : Settings) (latestPrices : Dict PyFloat) (symbol : String) :
    Except String PyFloat :=
  match Dict.get? latestPrices symbol with
  | none => .error s!"{symbol}:missing_latest_price"
  | some price =>
    if price.le 0 then .error s!"{symbol}:missing_latest_price"
    else if requiresLiveMarketPrices cfg && looksLikeStub symbol price then
      .error s!"{symbol}:stub_price_forbidden_for_orders"
    else .ok price

/-! ## What a price is asked to be -/

def Usable (e : String × PyFloat) : Prop := ∃ q, e.2 = .fin q ∧ UsableForOrders (e.1, q)

def Given (candidates : Dict PyJson) (quotes : List FloatQuote) (e : String × PyFloat) : Prop :=
  (∃ c ∈ candidates, Casing.upper c.1 = e.1 ∧ c.2.toFloat = .ok e.2) ∨
    ∃ q ∈ quotes, Casing.upper q.symbol = e.1 ∧ q.last = some e.2

def Finite (x : PyFloat) : Prop := ∃ q, x = .fin q

/-! ## What passes the filters -/

def candidateLast (syms : List String) (e : String × PyJson) : Option (String × PyFloat) :=
  match e.2.toFloat with
  | .ok last =>
    if Casing.upper e.1 ∉ syms ∨ refused (Casing.upper e.1) last then none
    else some (Casing.upper e.1, last)
  | .error _ => none

def unserved (syms : List String) (candidates : Dict PyJson) : List String :=
  syms.filter fun s => s ∉ (candidates.filterMap (candidateLast syms)).map (·.1)

def answered (provider : List String → List FloatQuote) (symbols : List String) :
    List FloatQuote :=
  if requested symbols = [] then [] else provider (requested symbols)

/-- The last candidate that is kept for a symbol is finite or replaced by a quote, and the last quote
    that is kept for a symbol is finite and was asked for. -/
structure FinitePrices (syms : List String) (candidates : Dict PyJson) (quotes : List FloatQuote) :
    Prop where
  candidates_finite : ∀ e, Dict.LastIn (candidates.filterMap (candidateLast syms)) e →
    Finite e.2 ∨ e.1 ∈ (quotes.filterMap quoteLast).map (·.1)
  quotes_finite : ∀ e, Dict.LastIn (quotes.filterMap quoteLast) e → Finite e.2 ∧ e.1 ∈ syms

theorem looksLikeStub_upper (symbol : String) (last : PyFloat) :
    looksLikeStub (Casing.upper symbol) last = looksLikeStub symbol last := by
  cases last with
  | fin q => simp [looksLikeStub, looksLikeStubLast]
  | inf => rfl
  | negInf => rfl
  | nan => rfl

variable {e : String × PyFloat}

theorem usable_of_not_refused (h : refused e.1 e.2 = false) (hfin : Finite e.2) : Usable e := by
  obtain ⟨q, hq⟩ := hfin
  rw [hq] at h
  simp [refused, PyFloat.le, looksLikeStub] at h
  exact ⟨q, hq, h⟩

theorem quoteLast_some {q : FloatQuote} (h : quoteLast q = some e) :
    Casing.upper q.symbol = e.1 ∧ q.last = some e.2 ∧ refused e.1 e.2 = false := by
  unfold quoteLast at h
  split at h
  · cases h
  · split at h
    · cases h
    · rename_i last hlast
      split at h
      · cases h
      · rename_i hkeep
        cases h
        refine ⟨rfl, hlast, ?_⟩
        simpa [refused, looksLikeStub_upper] using hkeep

variable {syms : List String}

theorem candidateLast_some {c : String × PyJson} (h : candidateLast syms c = some e) :
    Casing.upper c.1 = e.1 ∧ c.2.toFloat = .ok e.2 ∧ e.1 ∈ syms ∧ refused e.1 e.2 = false := by
  unfold candidateLast at h
  split at h
  · rename_i last hlast
    split at h
    · cases h
    · rename_i hkeep
      push Not at hkeep
      cases h
      exact ⟨rfl, hlast, hkeep.1, by simpa using hkeep.2⟩
  · cases h

theorem keepCandidate_ok {out d : Dict PyFloat} {c : String × PyJson}
    (h : keepCandidate syms out c = .ok d) :
    d = (candidateLast syms c).toList.foldl (fun acc x => Dict.set acc x.1 x.2) out := by
  unfold keepCandidate PyJson.floatOr at h
  unfold candidateLast
  dsimp only at h
  split at h
  · rename_i hskip
    cases h
    rcases hskip with hsym | hnull
    · cases hf : c.2.toFloat with
      | error x => rfl
      | ok last => simp [hsym]
    · simp [PyJson.isNull_iff.mp hnull, PyJson.toFloat]
  · rename_i hkeep
    push Not at hkeep
    cases hf : c.2.toFloat with
    | error x =>
      rw [hf] at h
      cases x with
      | overflowError => cases h
      | valueError => cases h; rfl
      | typeError => cases h; rfl
      | attributeError => cases h; rfl
    | ok last =>
      rw [hf] at h
      dsimp only at h ⊢
      split at h
      · rename_i href
        cases h
        simp [href]
      · rename_i href
        cases h
        simp [href, hkeep.1]

theorem foldlM_keepCandidate {candidates : Dict PyJson} {out d : Dict PyFloat}
    (h : candidates.foldlM (keepCandidate syms) out = .ok d) :
    d = (candidates.filterMap (candidateLast syms)).foldl (fun acc x => Dict.set acc x.1 x.2) out := by
  induction candidates generalizing out with
  | nil => exact (pure_ok_iff.mp h).symm
  | cons c candidates ih =>
    rw [List.foldlM_cons, bind_ok_iff] at h
    obtain ⟨out', hround, hrest⟩ := h
    have hset := keepCandidate_ok hround
    rw [ih hrest, hset, List.filterMap_cons]
    cases candidateLast syms c with
    | none => rfl
    | some e => rfl

theorem fetchLiveLastPrices_eq (provider : List String → List FloatQuote) (symbols : List String) :
    fetchLiveLastPrices provider symbols =
      Dict.ofPairs ((answered provider symbols).filterMap quoteLast) := by
  unfold fetchLiveLastPrices answered
  dsimp only
  split
  · rfl
  · rfl

theorem resolveExecutionPrices_ok {cfg : Settings} {symbols : List String} {candidates : Dict PyJson}
    {provider : List String → List FloatQuote} {r : Dict PyFloat} {notes : List String}
    (hlive : requiresLiveMarketPrices cfg)
    (h : resolveExecutionPrices cfg symbols candidates provider = .ok (r, notes)) :
    r = Dict.merge (Dict.ofPairs (candidates.filterMap (candidateLast (requested symbols))))
      (Dict.ofPairs ((answered provider (unserved (requested symbols) candidates)).filterMap
        quoteLast)) := by
  unfold resolveExecutionPrices at h
  rw [if_neg (by simp [hlive]), bind_ok_iff] at h
  obtain ⟨d, hreused, h⟩ := h
  have hd : d = Dict.ofPairs (candidates.filterMap (candidateLast (requested symbols))) :=
    foldlM_keepCandidate hreused
  have hmissing : (requested symbols).filter (fun s => !Dict.contains d s) =
      unserved (requested symbols) candidates := by
    refine List.filter_congr fun s _ => ?_
    have hin : Dict.contains d s = true ↔
        s ∈ (candidates.filterMap (candidateLast (requested symbols))).map (·.1) := by
      rw [Dict.contains_iff, ← Option.ne_none_iff_isSome, hd, Ne, Dict.get?_ofPairs_eq_none_iff,
        not_not]
    rw [Bool.eq_iff_iff, Bool.not_eq_true', ← Bool.not_eq_true, hin, decide_eq_true_iff]
  dsimp only at h
  rw [hmissing] at h
  split at h
  · rename_i hnone
    cases pure_ok_iff.mp h
    rw [hnone, hd]
    rfl
  · obtain ⟨rfl, -⟩ := Prod.mk.inj (pure_ok_iff.mp h)
    rw [fetchLiveLastPrices_eq, hd]

/-! ## When every resolved price may be used -/

/-- What orders rely on: every price is usable, was asked for, and is the candidate's or the quote's, and
    no order is sized from a price that is not finite. -/
structure SafePrices (cfg : Settings) (syms : List String) (candidates : Dict PyJson)
    (quotes : List FloatQuote) (r : Dict PyFloat) : Prop where
  usable : ∀ e ∈ r, Usable e
  asked : ∀ e ∈ r, e.1 ∈ syms
  given : ∀ e ∈ r, Given candidates quotes e
  sized : ∀ symbol price, usablePrice cfg r symbol = .ok price → Finite price

theorem usablePrice_mem {cfg : Settings} {r : Dict PyFloat} {symbol : String} {price : PyFloat}
    (h : usablePrice cfg r symbol = .ok price) : (symbol, price) ∈ r := by
  unfold usablePrice at h
  split at h
  · cases h
  · rename_i price' hget
    split at h
    · cases h
    · split at h
      · cases h
      · cases h
        exact Dict.mem_of_get? hget

/-- **Every price that is resolved may be used exactly if the prices that are kept last are finite and
    asked for.** -/
theorem resolveExecutionPrices_safe_iff {cfg : Settings} {symbols : List String}
    {candidates : Dict PyJson} {provider : List String → List FloatQuote} {r : Dict PyFloat}
    {notes : List String} (hlive : requiresLiveMarketPrices cfg)
    (h : resolveExecutionPrices cfg symbols candidates provider = .ok (r, notes)) :
    let syms := requested symbols
    let quotes := answered provider (unserved syms candidates)
    SafePrices cfg syms candidates quotes r ↔ FinitePrices syms candidates quotes := by
  intro syms quotes
  have hr : r = Dict.merge (Dict.ofPairs (candidates.filterMap (candidateLast syms)))
      (Dict.ofPairs (quotes.filterMap quoteLast)) := resolveExecutionPrices_ok hlive h
  have hnodup : (r.map (·.1)).Nodup := hr ▸ Dict.nodup_merge (Dict.nodup_ofPairs _) _
  have hget : ∀ k, Dict.get? r k = (Dict.get? (Dict.ofPairs (quotes.filterMap quoteLast)) k).or
      (Dict.get? (Dict.ofPairs (candidates.filterMap (candidateLast syms))) k) := by
    intro k
    rw [hr, Dict.get?_merge (Dict.nodup_ofPairs _)]
  constructor
  · intro hsafe
    refine ⟨fun e hlast => ?_, fun e hlast => ?_⟩
    · by_cases hreplaced : e.1 ∈ (quotes.filterMap quoteLast).map (·.1)
      · exact Or.inr hreplaced
      · have hfound : Dict.get? r e.1 = some e.2 := by
          rw [hget, Dict.get?_ofPairs_eq_none_iff.mpr hreplaced, Option.none_or]
          exact Dict.get?_ofPairs_iff.mpr hlast
        obtain ⟨q, hq, -⟩ := hsafe.usable e (Dict.mem_of_get? hfound)
        exact Or.inl ⟨q, hq⟩
    · have hfound : Dict.get? r e.1 = some e.2 := by
        rw [hget, Dict.get?_ofPairs_iff.mpr hlast, Option.some_or]
      have hmem := Dict.mem_of_get? hfound
      obtain ⟨q, hq, -⟩ := hsafe.usable e hmem
      exact ⟨⟨q, hq⟩, hsafe.asked e hmem⟩
  · intro hfin
    have hall : ∀ e ∈ r, Usable e ∧ e.1 ∈ syms ∧ Given candidates quotes e := by
      intro e he
      have hfound := Dict.get?_of_mem hnodup he
      rw [hget, Option.or_eq_some_iff] at hfound
      rcases hfound with hquote | ⟨hnone, hcandidate⟩
      · have hlast := Dict.get?_ofPairs_iff.mp hquote
        obtain ⟨q, hq, hprice⟩ := List.mem_filterMap.mp (hlast.mem)
        obtain ⟨hsym, hvalue, hkeep⟩ := quoteLast_some hprice
        obtain ⟨hfinite, hasked⟩ := hfin.quotes_finite e hlast
        exact ⟨usable_of_not_refused hkeep hfinite, hasked, Or.inr ⟨q, hq, hsym, hvalue⟩⟩
      · have hlast := Dict.get?_ofPairs_iff.mp hcandidate
        obtain ⟨c, hc, hprice⟩ := List.mem_filterMap.mp (hlast.mem)
        obtain ⟨hsym, hvalue, hasked, hkeep⟩ := candidateLast_some hprice
        have hfinite := (hfin.candidates_finite e hlast).resolve_right
          (Dict.get?_ofPairs_eq_none_iff.mp hnone)
        exact ⟨usable_of_not_refused hkeep hfinite, hasked, Or.inl ⟨c, hc, hsym, hvalue⟩⟩
    refine ⟨fun e he => (hall e he).1, fun e he => (hall e he).2.1, fun e he => (hall e he).2.2, ?_⟩
    intro symbol price hprice
    obtain ⟨q, hq, -⟩ := (hall _ (usablePrice_mem hprice)).1
    exact ⟨q, hq⟩

end Resolving

section Sample

attribute [local instance] asciiCasing

private def liveSettings : Settings := { mockSettings with brokerProvider := "ibkr" }

private def zzzQuotes : List String → List FloatQuote := fun _ =>
  [⟨"AAPL", some "ibkr", some (.fin 301)⟩, ⟨"ZZZ", some "stub", some .nan⟩]

theorem resolveExecutionPrices_safe_zzz :
    resolveExecutionPrices liveSettings ["zzz", "AAPL"] [("ZZZ", .float (.fin 31))] zzzQuotes =
        .ok ([("ZZZ", .fin 31), ("AAPL", .fin 301)], ["reused_live_candidate_partial:1"]) ∧
      SafePrices liveSettings (requested ["zzz", "AAPL"]) [("ZZZ", .float (.fin 31))]
        (answered zzzQuotes (unserved (requested ["zzz", "AAPL"]) [("ZZZ", .float (.fin 31))]))
        [("ZZZ", .fin 31), ("AAPL", .fin 301)] := by
  have hlive : requiresLiveMarketPrices liveSettings = true := by decide +kernel
  have hrun : resolveExecutionPrices liveSettings ["zzz", "AAPL"] [("ZZZ", .float (.fin 31))]
      zzzQuotes =
        .ok ([("ZZZ", .fin 31), ("AAPL", .fin 301)], ["reused_live_candidate_partial:1"]) := by
    decide +kernel
  have hcandidates : [("ZZZ", PyJson.float (.fin 31))].filterMap
      (candidateLast (requested ["zzz", "AAPL"])) = [("ZZZ", .fin 31)] := by decide +kernel
  have hquotes : (answered zzzQuotes (unserved (requested ["zzz", "AAPL"])
      [("ZZZ", .float (.fin 31))])).filterMap quoteLast = [("AAPL", .fin 301)] := by decide +kernel
  have hasked : "AAPL" ∈ requested ["zzz", "AAPL"] := by decide +kernel
  refine ⟨hrun, (resolveExecutionPrices_safe_iff hlive hrun).mpr ⟨?_, ?_⟩⟩
  · intro e hlast
    obtain rfl := List.mem_singleton.mp (hcandidates ▸ hlast).mem
    exact Or.inl ⟨31, rfl⟩
  · intro e hlast
    obtain rfl := List.mem_singleton.mp (hquotes ▸ hlast).mem
    exact ⟨⟨301, rfl⟩, hasked⟩

/-- **A candidate that is no number is resolved**, and an entry may be sized from it. -/
theorem nan_candidate_unsafe :
    requiresLiveMarketPrices liveSettings = true ∧
      resolveExecutionPrices liveSettings ["ZZZ"] [("ZZZ", .float .nan)] (fun _ => []) =
        .ok ([("ZZZ", .nan)], ["reused_live_candidate_prices"]) ∧
      usablePrice liveSettings [("ZZZ", .nan)] "ZZZ" = .ok .nan ∧
      ¬ SafePrices liveSettings (requested ["ZZZ"]) [("ZZZ", .float .nan)]
        (answered (fun _ => []) (unserved (requested ["ZZZ"]) [("ZZZ", .float .nan)]))
        [("ZZZ", .nan)] := by
  refine ⟨by decide +kernel, by decide +kernel, by decide +kernel, fun hsafe => ?_⟩
  obtain ⟨q, hq, -⟩ := hsafe.usable ("ZZZ", .nan) List.mem_cons_self
  cases hq

end Sample

end Floats
end Investor.Market
