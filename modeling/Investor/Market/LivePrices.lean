import Investor.Market.Venues

/-!
# Prices for execution

Which prices an order may be sized with. Where a real order path is open, a candidate
price that looks like the stub table is dropped, what is missing is fetched, and a quote
of a simulation provider is dropped too; there is no way back to a stub. The quotes are
the provider's, and a parameter here.
-/

namespace Investor.Market

open Lib

structure LiveQuote where
  symbol : String
  provider : Option String
  last : Option ℚ
  deriving DecidableEq

section Prices

variable [Casing]

/-- `is_simulation_price_provider`. -/
def isSimulationPriceProvider (provider : String) : Bool :=
  ["stub", "fixture"].contains (Casing.lower (strip provider))

def liveLast (q : LiveQuote) : Option (String × ℚ) :=
  if q.provider.any isSimulationPriceProvider then none
  else
    match q.last.filter (0 < ·) with
    | none => none
    | some last =>
      if looksLikeStubLast q.symbol last then none else some (Casing.upper q.symbol, last)

/-- `fetch_live_last_prices`, of the quotes the provider answers. -/
def fetchLiveLastPrices (quotes : List LiveQuote) : Dict ℚ :=
  Dict.ofPairs (quotes.filterMap liveLast)

/-- `_usable_live_candidates`. -/
def usableLiveCandidates (candidates : Dict ℚ) (symbols : List String) : Dict ℚ :=
  Dict.ofPairs (candidates.filterMap fun e =>
    let sym := Casing.upper e.1
    if sym ∉ symbols ∨ e.2 ≤ 0 ∨ looksLikeStubLast sym e.2 then none else some (sym, e.2))

def simulationPrices (candidates : Dict ℚ) : Dict ℚ :=
  Dict.ofPairs ((candidates.filter (0 < ·.2)).map fun e => (Casing.upper e.1, e.2))

/-- The symbols `resolve_execution_prices` has to fetch. -/
def missingPrices (cfg : Settings) (symbols : List String) (candidates : Dict ℚ) : List String :=
  if requiresLiveMarketPrices cfg then
    symbols.filter fun s => !Dict.contains (usableLiveCandidates candidates symbols) s
  else []

/-- `resolve_execution_prices`, with the quotes of what had to be fetched. -/
def resolveExecutionPrices (cfg : Settings) (symbols : List String) (candidates : Dict ℚ)
    (quotes : List LiveQuote) : Dict ℚ :=
  if !requiresLiveMarketPrices cfg then simulationPrices candidates
  else
    let reused := usableLiveCandidates candidates symbols
    if missingPrices cfg symbols candidates = [] then reused
    else Dict.merge reused (fetchLiveLastPrices quotes)

/-! ## What a resolved price is -/

def UsableForOrders (e : String × ℚ) : Prop :=
  0 < e.2 ∧ looksLikeStubLast e.1 e.2 = false

end Prices

end Investor.Market
