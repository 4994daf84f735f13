import Investor.Lib.Json
import Investor.Lib.Rounding

/-!
# Venues, currencies and live prices

Where a symbol trades, in which currency, and whether a price may be used for an order.
The settings consulted are collected in one record. `primary_venue` is the venue its
text names (a text that names none raises at every use); `fx_rates` is the parsed table.
-/

namespace Investor.Market

open Lib

inductive Venue
  | us | au
  deriving DecidableEq

def Venue.value : Venue → String
  | .us => "US"
  | .au => "AU"

structure VenueSpec where
  venue : Venue
  currency : String
  liquidityFloorMult : ℚ
  spreadCapMult : ℚ
  deriving DecidableEq

/-- `VENUE_SPECS`. -/
def venueSpec : Venue → VenueSpec
  | .us => { venue := .us, currency := "USD", liquidityFloorMult := 1, spreadCapMult := 1 }
  | .au => { venue := .au, currency := "AUD", liquidityFloorMult := 1 / 5, spreadCapMult := 2 }

/-- `TradingMode`. -/
inductive TradingMode
  | paper | live | simulation
  deriving DecidableEq

/-- `Settings`, the fields the modelled functions read. -/
structure Settings where
  tradingMode : TradingMode
  brokerProvider : String
  enableBrokerConnection : Bool
  enableBrokerOrders : Bool
  enableAutomatedExecution : Bool
  enableMarketDataCollection : Bool
  enableExternalData : Bool
  enableLiveTrading : Bool
  brokerEnvironment : String
  requireManualOrderApproval : Bool
  orderApprovalExpiryMinutes : Int
  orderSubmissionRevalidationMaxAgeSeconds : Int
  enableShortSelling : Bool
  enableExtendedHoursOrders : Bool
  tradeAllowlist : List String
  tradeAllowlistAu : List String
  primaryVenue : Option Venue
  marketCalendar : String
  startingCash : ℚ
  riskPerTradePct : ℚ
  maxPositionPct : ℚ
  minCashPct : ℚ
  maxOpenPositions : Int
  maxOrderSpreadBps : ℚ
  latestQuoteMaxAgeSeconds : Int
  dataQualityWarningThreshold : ℚ
  dataQualityHardFailThreshold : ℚ
  maxEntryLimitDriftBps : ℚ
  fxRates : Dict ℚ
  deriving DecidableEq

def mockSettings : Settings :=
  { tradingMode := .paper, brokerProvider := "mock", enableBrokerConnection := false,
    enableBrokerOrders := true, enableAutomatedExecution := false,
    enableMarketDataCollection := false, enableExternalData := false,
    enableLiveTrading := false, brokerEnvironment := "paper", requireManualOrderApproval := false,
    orderApprovalExpiryMinutes := 10, orderSubmissionRevalidationMaxAgeSeconds := 15,
    enableShortSelling := false, enableExtendedHoursOrders := false,
    tradeAllowlist := ["AAPL", "MSFT"], tradeAllowlistAu := [], primaryVenue := some .us,
    marketCalendar := "NYSE", startingCash := 25000, riskPerTradePct := 1 / 2,
    maxPositionPct := 10, minCashPct := 10, maxOpenPositions := 8, maxOrderSpreadBps := 50,
    latestQuoteMaxAgeSeconds := 30, dataQualityWarningThreshold := 3 / 4,
    dataQualityHardFailThreshold := 1 / 2, maxEntryLimitDriftBps := 250, fxRates := [] }

/-- What `parse_venue` makes of a text; `none` for the `ValueError`. -/
inductive ParsedVenue
  | absent
  | venue (v : Venue)
  | unknown
  deriving DecidableEq

section Venues

variable [Casing]

def parseVenue (value : Option String) : ParsedVenue :=
  match value with
  | none => .absent
  | some s =>
    let text := Casing.upper (strip s)
    if text = "" then .absent
    else if text = "US" then .venue .us
    else if text = "AU" then .venue .au
    else .unknown

/-- `job_key_base`: a job key without the venue in front of its first colon. -/
def jobKeyBase (jobKey : String) : String :=
  let head := jobKey.toList.takeWhile (· ≠ ':')
  match jobKey.toList.drop head.length with
  | _ :: rest =>
    if Casing.upper (String.ofList head) ∈ ["US", "AU"] then String.ofList rest else jobKey
  | [] => jobKey

/-- `_CALENDAR_TO_VENUE.get(cal, Venue.US)`. -/
def calendarToVenue (cal : String) : Venue :=
  if cal = "ASX" ∨ cal = "XASX" then .au else .us

/-- `resolve_venue` without an explicit venue. -/
def resolveVenue (cfg : Settings) : Venue :=
  match cfg.primaryVenue with
  | some v => v
  | none =>
    calendarToVenue (Casing.upper (if cfg.marketCalendar = "" then "NYSE" else cfg.marketCalendar))

def Settings.allowlistForVenue (cfg : Settings) : Venue → List String
  | .au => cfg.tradeAllowlistAu
  | .us => cfg.tradeAllowlist

/-- `venue_for_symbol` with at most a currency given. -/
def venueForSymbol (symbol : String) (cfg : Settings) (currency : Option String) : Venue :=
  if Casing.upper (currency.getD "") = "AUD" then .au
  else
    -- a USD currency alone decides nothing: it takes an exchange other than SMART
    let sym := strip (Casing.upper symbol)
    if sym ≠ "" ∧ sym ∈ cfg.tradeAllowlistAu ∧ sym ∉ cfg.tradeAllowlist then .au
    else if sym ≠ "" ∧ sym ∈ cfg.tradeAllowlist ∧ sym ∉ cfg.tradeAllowlistAu then .us
    else resolveVenue cfg

/-- `venue_for_symbol` with an exchange and a currency: any exchange but SMART settles it for
    a US listing or a USD currency. -/
def venueForListing (symbol : String) (cfg : Settings) (exchange currency : Option String) :
    Venue :=
  let ex := Casing.upper (exchange.getD "")
  let ccy := Casing.upper (currency.getD "")
  if ex ∈ ["ASX", "XASX"] ∨ ccy = "AUD" then .au
  else if (ex ∈ ["NASDAQ", "NYSE", "ARCA", "AMEX", "BATS", "IEX"] ∨ ccy = "USD") ∧ ex ≠ "" ∧
      ex ≠ "SMART" then .us
  else venueForSymbol symbol cfg none

/-- The venue column of a position row, `(p.venue or "US").upper()`. -/
def venueText (venue : String) : String := Casing.upper (if venue = "" then "US" else venue)

theorem Venue.upper_value (v : Venue) : Casing.upper v.value = v.value := by
  cases v
  · exact (Casing.upper_ascii _ (by decide)).trans (by decide)
  · exact (Casing.upper_ascii _ (by decide)).trans (by decide)

theorem venueText_value (v : Venue) : venueText v.value = v.value := by
  have hne : v.value ≠ "" := by cases v <;> decide
  rw [venueText, if_neg hne, v.upper_value]

/-- `_screen_spec`: an unknown venue is screened as the strictest, US. -/
def screenSpec (venue : Option String) : VenueSpec :=
  match parseVenue venue with
  | .venue v => venueSpec v
  | _ => venueSpec .us

def venueLiquidityFloor (venue : Option String) (base : ℚ) : ℚ :=
  base * (screenSpec venue).liquidityFloorMult

def venueSpreadCap (venue : Option String) (base : ℚ) : ℚ :=
  base * (screenSpec venue).spreadCapMult

/-- `get_venue_spec(text).currency`, `USD` for the `ValueError`. -/
def currencyOfVenueText (venue : String) : String :=
  match parseVenue (some venue) with
  | .venue v => (venueSpec v).currency
  | _ => "USD"

/-! ## Exchange rates -/

/-- `fx_rate`: the factor from one currency to another, from the table or its inverse. -/
def fxRate (rates : Dict ℚ) (fromCcy toCcy : String) : Option ℚ :=
  let a := strip (Casing.upper fromCcy)
  let b := strip (Casing.upper toCcy)
  if a = "" ∨ b = "" then none
  else if a = b then some 1
  else
    match (Dict.get? rates (a ++ b)).filter (0 < ·) with
    | some direct => some direct
    | none =>
      match (Dict.get? rates (b ++ a)).filter (0 < ·) with
      | some inverse => some (1 / inverse)
      | none => none

theorem fxRate_pos {rates : Dict ℚ} {a b : String} {r : ℚ} (h : fxRate rates a b = some r) :
    0 < r := by
  unfold fxRate at h
  dsimp only at h
  split at h
  · cases h
  · split at h
    · cases h; exact one_pos
    · split at h
      · rename_i direct hd
        cases h
        simpa using (Option.filter_eq_some_iff.mp hd).2
      · split at h
        · rename_i inverse hi
          cases h
          have := (Option.filter_eq_some_iff.mp hi).2
          exact one_div_pos.mpr (by simpa using this)
        · cases h

/-! ## Live prices -/

/-- `requires_live_market_prices`. -/
def requiresLiveMarketPrices (cfg : Settings) : Bool :=
  if Casing.lower cfg.brokerProvider ∈ ["mock", "simulated", "sim"] then false
  else cfg.enableBrokerOrders || cfg.enableAutomatedExecution ||
    cfg.enableMarketDataCollection || cfg.enableExternalData

/-- `_STUB_LAST`. -/
def STUB_LAST : Dict ℚ :=
  [("SPY", 560), ("QQQ", 480), ("IWM", 220), ("DIA", 410), ("NVDA", 120), ("MSFT", 430),
    ("AMZN", 190), ("GOOGL", 175), ("META", 520), ("AVGO", 160), ("AMD", 160), ("AAPL", 220),
    ("TSLA", 250), ("IONQ", 12)]

/-- `looks_like_stub_last` at its tolerance of 2%. -/
def looksLikeStubLast (symbol : String) (last : ℚ) : Bool :=
  match Dict.get? STUB_LAST (Casing.upper symbol) with
  | none => false
  | some stub => if last ≤ 0 then false else decide (|last - stub| / stub ≤ 1 / 50)

end Venues

/-! ## Price ticks -/

/-- Rounds half up to a multiple of `1 / n`, the `ROUND_HALF_UP` of a positive amount. -/
def roundHalfUp (n : ℕ) (q : ℚ) : ℚ := ⌊q * n + 1 / 2⌋ / n

/-- `round_equity_price`. -/
def roundEquityPrice (price : ℚ) : ℚ :=
  if price ≤ 0 then price
  else if 1 ≤ price then roundHalfUp 100 price
  else roundHalfUp 10000 price

theorem le_roundHalfUp_iff {n : ℕ} (hn : 0 < n) {x q : ℚ} :
    x ≤ roundHalfUp n q ↔ ∃ k : ℤ, x ≤ k / n ∧ (k : ℚ) / n ≤ q + 1 / (2 * n) := by
  have hpos : (0 : ℚ) < n := by exact_mod_cast hn
  have htick : ∀ k : ℤ, (k : ℚ) / n ≤ q + 1 / (2 * n) ↔ k ≤ ⌊q * n + 1 / 2⌋ := by
    intro k
    rw [Int.le_floor, div_le_iff₀ hpos]
    have hsplit : (q + 1 / (2 * n)) * n = q * n + 1 / 2 := by field_simp
    rw [hsplit]
  constructor
  · intro h
    exact ⟨⌊q * n + 1 / 2⌋, h, (htick _).mpr le_rfl⟩
  · rintro ⟨k, hx, hk⟩
    refine hx.trans ?_
    have hle : (k : ℚ) ≤ ⌊q * n + 1 / 2⌋ := by exact_mod_cast (htick k).mp hk
    exact div_le_div_of_nonneg_right hle hpos.le

theorem roundHalfUp_le_iff {n : ℕ} (hn : 0 < n) {x q : ℚ} :
    roundHalfUp n q ≤ x ↔ ∃ k : ℤ, q - 1 / (2 * n) < k / n ∧ (k : ℚ) / n ≤ x := by
  have hpos : (0 : ℚ) < n := by exact_mod_cast hn
  have htick : ∀ k : ℤ, q - 1 / (2 * n) < (k : ℚ) / n ↔ ⌊q * n + 1 / 2⌋ ≤ k := by
    intro k
    rw [← Int.lt_add_one_iff, Int.floor_lt, lt_div_iff₀ hpos]
    have hsplit : (q - 1 / (2 * n)) * n = q * n - 1 / 2 := by field_simp
    rw [hsplit]
    push_cast
    constructor <;> intro h <;> linarith
  constructor
  · intro h
    exact ⟨⌊q * n + 1 / 2⌋, (htick _).mpr le_rfl, h⟩
  · rintro ⟨k, hk, hx⟩
    refine le_trans ?_ hx
    have hle : ((⌊q * n + 1 / 2⌋ : ℤ) : ℚ) ≤ k := by exact_mod_cast (htick k).mp hk
    exact div_le_div_of_nonneg_right hle hpos.le

theorem abs_roundHalfUp_sub_le {n : ℕ} (hn : 0 < n) (q : ℚ) :
    |roundHalfUp n q - q| ≤ 1 / (2 * n) := by
  obtain ⟨k, hk, hle⟩ := (le_roundHalfUp_iff hn (q := q)).mp le_rfl
  obtain ⟨j, hlt, hj⟩ := (roundHalfUp_le_iff hn (q := q)).mp le_rfl
  rw [abs_le]
  constructor <;> linarith

theorem roundEquityPrice_of_lt_one {price : ℚ} (hpos : 0 < price) (h : price < 1) :
    roundEquityPrice price = roundHalfUp 10000 price := by
  rw [roundEquityPrice, if_neg (not_le.mpr hpos), if_neg (not_le.mpr h)]

theorem roundEquityPrice_of_one_le {price : ℚ} (h : 1 ≤ price) :
    roundEquityPrice price = roundHalfUp 100 price := by
  rw [roundEquityPrice, if_neg (by linarith), if_pos h]

theorem abs_roundEquityPrice_sub_le {price : ℚ} (hpos : 0 < price) :
    |roundEquityPrice price - price| ≤ if 1 ≤ price then 1 / 200 else 1 / 20000 := by
  split_ifs with h
  · rw [roundEquityPrice_of_one_le h]
    exact (abs_roundHalfUp_sub_le (by decide) price).trans (by norm_num)
  · rw [roundEquityPrice_of_lt_one hpos (not_le.mp h)]
    exact (abs_roundHalfUp_sub_le (by decide) price).trans (by norm_num)

end Investor.Market
