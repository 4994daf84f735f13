import Investor.Universe.Allocation
import Investor.Lib.Group
import Mathlib.Data.List.Rotate
import Mathlib.Data.String.Basic

/-!
# Membership: the names a watchlist is drawn from

The watchlist is drawn from a bounded pool (`candidates.py`): the allowlists, the configured
candidate pool or the bundled index snapshots. Every name the pool, the watchlist and the
proposals are written with is folded first, `raw.upper().strip()`; a `Ticker` is a text that is
its own folding, so that two spellings of one name are one ticker.

`rankedMembershipBook` fills a book of a bounded size: holdings first, then one name of each
sector, round after round. What a caller needs of it is in `Fills`: the book only grows, keeps its
names distinct and stays inside its bound.
-/

namespace Investor.Universe

open Lib Market

/-! ## Tickers -/

section Folding

variable [StripCasing]

/-- `raw.upper().strip()`. -/
def foldName (raw : String) : String := strip (Casing.upper raw)

@[simp] theorem upper_foldName (raw : String) : Casing.upper (foldName raw) = foldName raw :=
  StripCasing.upper_strip raw

@[simp] theorem foldName_foldName (raw : String) : foldName (foldName raw) = foldName raw := by
  show strip (Casing.upper (foldName raw)) = foldName raw
  rw [upper_foldName]
  exact strip_strip _

end Folding

structure Ticker [StripCasing] where
  text : String
  folded : foldName text = text
  deriving DecidableEq

namespace Ticker

variable [StripCasing]

instance : LawfulBEq Ticker := inferInstance

def ofText (raw : String) : Ticker := ⟨foldName raw, foldName_foldName raw⟩

theorem text_inj {t t' : Ticker} (h : t.text = t'.text) : t = t' := by
  cases t
  cases t'
  cases h
  rfl

@[simp] theorem text_ofText (raw : String) : (ofText raw).text = foldName raw := rfl

@[simp] theorem foldName_text (t : Ticker) : foldName t.text = t.text := t.folded

@[simp] theorem upper_text (t : Ticker) : Casing.upper t.text = t.text := by
  rw [← t.foldName_text, upper_foldName]

@[simp] theorem ofText_text (t : Ticker) : ofText t.text = t := text_inj t.foldName_text

end Ticker

/-! ## Settings and tables -/

/-- `Settings`, with the fields the universe service reads. -/
structure UniverseSettings extends Market.Settings where
  universeMode : String
  enabledVenues : List String
  universeWatchlistLimit : Int
  universeManagerEnabled : Bool
  universeRefreshMinIntervalDays : Int
  universeRefreshWeekendOnly : Bool
  universeCandidatePool : List String
  universeAllowCandidateAdds : Bool
  universeScreenerEnabled : Bool
  universeScreenerMinAvgVolume : ℚ
  universeScreenerMaxSpreadBps : ℚ
  universeScreenerMinPrice : ℚ
  universeScreenerFetchLive : Bool
  universeScreenerPauseIlliquid : Bool

/-- The bundled snapshots: the rows of `us_sp500.csv` (symbol, sector) and `asx50.txt`. -/
structure IndexSnapshots where
  sp500Rows : List (String × String)
  asx50Symbols : List String

/-- `DEFAULT_CANDIDATE_POOL_US`. -/
def DEFAULT_CANDIDATE_POOL_US : List String :=
  ["XLK", "XLF", "XLE", "XBI", "SMH", "SOXX", "ARKK", "IWM", "EEM", "JPM", "XOM", "UNH", "V",
    "MA", "COST", "NFLX", "CRM", "ORCL", "INTC", "MU", "PLTR", "UBER", "SHOP", "BA", "CAT",
    "GS", "WMT", "HD", "DIS", "PYPL", "COIN", "CRWD", "PANW", "NOW", "SNOW", "AMD", "AVGO"]

/-- `DEFAULT_CANDIDATE_POOL_AU`. -/
def DEFAULT_CANDIDATE_POOL_AU : List String :=
  ["WBC", "NAB", "ANZ", "MQG", "CSL", "WES", "WOW", "TLS", "RIO", "FMG", "GMG", "TCL", "ALL",
    "QAN", "STO", "ORG", "WDS", "MIN", "JHX", "XRO", "REA", "COL", "SUN", "QBE"]

/-- `THEME_SYMBOLS`. -/
def THEME_SYMBOLS : Dict (List String) :=
  [("tech", ["XLK", "SMH", "SOXX", "NVDA", "AMD", "AVGO", "AAPL", "MSFT", "GOOGL", "META",
      "CRM", "ORCL", "NOW", "SNOW", "XRO"]),
    ("semiconductor", ["SMH", "SOXX", "NVDA", "AMD", "AVGO", "MU", "INTC"]),
    ("ai", ["NVDA", "MSFT", "GOOGL", "META", "PLTR", "AMD", "AVGO", "SMH", "CRWD", "XRO"]),
    ("finance", ["XLF", "JPM", "GS", "V", "MA", "PYPL", "COIN", "WBC", "NAB", "ANZ", "MQG",
      "CBA", "QBE", "SUN"]),
    ("energy", ["XLE", "XOM", "STO", "ORG", "WDS"]),
    ("biotech", ["XBI", "UNH", "CSL"]),
    ("consumer", ["COST", "WMT", "HD", "DIS", "NFLX", "UBER", "SHOP", "WES", "WOW", "COL"]),
    ("cyber", ["CRWD", "PANW"]),
    ("growth", ["ARKK", "TSLA", "SHOP", "COIN", "PLTR", "NFLX", "XRO", "REA"]),
    ("resources", ["BHP", "RIO", "FMG", "MIN", "XLE", "XOM"]),
    ("asx_banks", ["CBA", "WBC", "NAB", "ANZ", "MQG"]),
    ("asx_etf", ["VAS", "IOZ", "NDQ", "JPEQ"]),
    ("risk_on", ["QQQ", "XLK", "SMH", "IWM", "ARKK", "NVDA", "TSLA", "NDQ", "XRO"]),
    ("risk_off", ["SPY", "DIA", "XLU", "TLT", "GLD", "JPM", "XOM", "WMT", "VAS", "IOZ", "CBA"]),
    ("deflation", ["TLT", "GLD", "XLU", "WMT", "COST", "VAS"]),
    ("inflation", ["XLE", "XOM", "GLD", "CAT", "BA", "BHP", "RIO", "FMG"])]

/-- `REGIME_THEMES`. -/
def REGIME_THEMES : Dict (List String) :=
  [("risk_on", ["risk_on", "tech", "growth", "asx_etf"]),
    ("risk_off", ["risk_off", "finance", "energy", "asx_banks"]),
    ("transition", ["tech", "finance", "consumer", "resources"]),
    ("crisis", ["risk_off", "energy", "asx_banks"])]

/-- `SECTOR_BY_SYMBOL`. -/
def SECTOR_BY_SYMBOL : Dict String :=
  [("SPY", "us_index"), ("QQQ", "us_index"), ("IWM", "us_index"), ("DIA", "us_index"),
    ("XLK", "tech"), ("SMH", "semiconductor"), ("SOXX", "semiconductor"),
    ("NVDA", "semiconductor"), ("AMD", "semiconductor"), ("AVGO", "semiconductor"),
    ("MU", "semiconductor"), ("INTC", "semiconductor"), ("AAPL", "tech"), ("MSFT", "tech"),
    ("GOOGL", "tech"), ("META", "tech"), ("AMZN", "consumer"), ("CRM", "software"),
    ("ORCL", "software"), ("NOW", "software"), ("SNOW", "software"), ("NFLX", "consumer"),
    ("TSLA", "growth"), ("IONQ", "growth"), ("PLTR", "ai"), ("CRWD", "cyber"),
    ("PANW", "cyber"), ("XLF", "finance"), ("JPM", "finance"), ("GS", "finance"),
    ("V", "finance"), ("MA", "finance"), ("PYPL", "finance"), ("COIN", "finance"),
    ("XLE", "energy"), ("XOM", "energy"), ("XBI", "biotech"), ("UNH", "biotech"),
    ("COST", "consumer"), ("WMT", "consumer"), ("HD", "consumer"), ("DIS", "consumer"),
    ("UBER", "consumer"), ("SHOP", "growth"), ("ARKK", "growth"), ("EEM", "international"),
    ("BA", "industrials"), ("CAT", "industrials"), ("VAS", "asx_index"), ("IOZ", "asx_index"),
    ("NDQ", "asx_index"), ("JPEQ", "asx_index"), ("BHP", "resources"), ("RIO", "resources"),
    ("FMG", "resources"), ("MIN", "resources"), ("CBA", "asx_banks"), ("WBC", "asx_banks"),
    ("NAB", "asx_banks"), ("ANZ", "asx_banks"), ("MQG", "asx_banks"), ("CSL", "biotech"),
    ("WES", "consumer"), ("WOW", "consumer"), ("COL", "consumer"), ("TLS", "telecom"),
    ("GMG", "property"), ("TCL", "infrastructure"), ("ALL", "consumer"), ("QAN", "industrials"),
    ("STO", "energy"), ("ORG", "energy"), ("WDS", "energy"), ("JHX", "industrials"),
    ("XRO", "software"), ("REA", "growth"), ("SUN", "finance"), ("QBE", "finance")]

/-- `_GICS_TO_BUCKET`. -/
def GICS_TO_BUCKET : Dict String :=
  [("information technology", "tech"), ("communication services", "communication"),
    ("consumer discretionary", "consumer"), ("consumer staples", "consumer"),
    ("energy", "energy"), ("financials", "finance"), ("health care", "healthcare"),
    ("industrials", "industrials"), ("materials", "materials"), ("real estate", "property"),
    ("utilities", "utilities")]

section Membership

variable [StripCasing]

/-! ## Pools -/

/-- `enabled_venues`. -/
def enabledVenues (cfg : UniverseSettings) : List Venue :=
  let out := (cfg.enabledVenues.filterMap fun item =>
    match parseVenue (some item) with
    | .venue v => some v
    | _ => none).eraseDups
  if out.isEmpty then [resolveVenue cfg.toSettings] else out

def distinctNames (raws : List String) : List Ticker :=
  ((raws.map Ticker.ofText).filter fun t => t.text ≠ "").eraseDups

/-- `combined_seed_pool`. -/
def combinedSeedPool (cfg : UniverseSettings) : List Ticker :=
  distinctNames (cfg.tradeAllowlist ++
    if Venue.au ∈ enabledVenues cfg then cfg.tradeAllowlistAu else [])

/-- `venue_for_universe_symbol`. -/
def venueForUniverseSymbol (cfg : UniverseSettings) (sym : Ticker) : Venue :=
  if Venue.au ∈ enabledVenues cfg ∧
      sym.text ∈ cfg.tradeAllowlistAu.map Casing.upper ++ DEFAULT_CANDIDATE_POOL_AU then .au
  else venueForSymbol sym.text cfg.toSettings none

/-- `curated_candidate_pool`: the configured pool, or the snapshots and the overlays. -/
def curatedCandidatePool (cfg : UniverseSettings) (idx : IndexSnapshots) : List Ticker :=
  if cfg.universeCandidatePool ≠ [] then
    (cfg.universeCandidatePool.filter fun s => strip s ≠ "").map Ticker.ofText
  else
    let index := idx.sp500Rows.map (·.1)
    distinctNames ((if index ≠ [] then index else DEFAULT_CANDIDATE_POOL_US) ++
      DEFAULT_CANDIDATE_POOL_US ++
      if Venue.au ∈ enabledVenues cfg then idx.asx50Symbols ++ DEFAULT_CANDIDATE_POOL_AU else [])

/-- The aliases of `themes_for_regime`. -/
def REGIME_ALIASES : Dict String :=
  [("strong_risk_on", "risk_on"), ("risk_on", "risk_on"), ("neutral", "transition"),
    ("risk_off", "risk_off"), ("strong_risk_off", "risk_off"), ("crisis", "crisis"),
    ("transition", "transition"), ("insufficient_data", "")]

/-- `themes_for_regime`. -/
def themesForRegime (marketRegime : Option String) : List String :=
  let key := String.ofList ((Casing.lower (strip (marketRegime.getD ""))).toList.map fun c =>
    if c = '-' ∨ c = ' ' then '_' else c)
  if marketRegime.getD "" = "" then []
  else (Dict.get? REGIME_THEMES ((Dict.get? REGIME_ALIASES key).getD key)).getD []

/-- `ranked_candidate_pool`: the names of the themes first. -/
def rankedCandidatePool (cfg : UniverseSettings) (idx : IndexSnapshots) (themes : List String)
    (marketRegime : Option String) : List Ticker :=
  let base := curatedCandidatePool cfg idx
  let tags := ((themes.filter fun t => strip t ≠ "").map fun t => Casing.lower (strip t)) ++
    themesForRegime marketRegime
  if tags = [] then base
  else
    let boosted := (tags.flatMap fun tag => (Dict.get? THEME_SYMBOLS tag).getD []).map Ticker.ofText
    ((boosted.filter (· ∈ base)) ++ base).eraseDups

/-- `membership_symbols`: the seeds and the candidates, of one venue if one is given. -/
def membershipSymbols (cfg : UniverseSettings) (idx : IndexSnapshots) (venue : Option Venue) :
    List Ticker :=
  let pool := (combinedSeedPool cfg ++ curatedCandidatePool cfg idx).eraseDups
  match venue with
  | none => pool
  | some want => pool.filter fun t => venueForUniverseSymbol cfg t = want

/-- `gics_sector_buckets`. -/
def gicsSectorBuckets (idx : IndexSnapshots) : Dict String :=
  Dict.ofPairs (idx.sp500Rows.map fun r =>
    (r.1, (Dict.get? GICS_TO_BUCKET (Casing.lower (strip r.2))).getD "other"))

def sectorOf (idx : IndexSnapshots) (t : Ticker) : String :=
  (Dict.get? SECTOR_BY_SYMBOL t.text).getD ((Dict.get? (gicsSectorBuckets idx) t.text).getD "other")

/-- `membership_by_sector`: the names in order, under their sectors. -/
def membershipBySector (cfg : UniverseSettings) (idx : IndexSnapshots) :
    List (String × List Ticker) :=
  groupsBy (sectorOf idx) (sortedBy Ticker.text (membershipSymbols cfg idx none))

/-- `addable_universe`. -/
def addableUniverse (cfg : UniverseSettings) (known : List Ticker) (candidates : List String) :
    List String :=
  let seed := (combinedSeedPool cfg).map Ticker.text
  if cfg.universeAllowCandidateAdds then
    seed ++ known.map Ticker.text ++ candidates.map Casing.upper
  else seed ++ known.map Ticker.text

/-! ## The book -/

def addHolding (book : List Ticker) (sym : Ticker) : List Ticker :=
  if sym.text ≠ "" ∧ sym ∉ book then book ++ [sym] else book

def bookHoldings (cap : ℕ) : List String → List Ticker → List Ticker
  | [], book => book
  | h :: holdings, book =>
    let book' := addHolding book (Ticker.ofText h)
    if cap ≤ book'.length then book' else bookHoldings cap holdings book'

def rotationRound (cap week roundIdx : ℕ) :
    List (String × List Ticker) → List Ticker → List Ticker
  | [], book => book
  | (_, names) :: items, book =>
    let ordered := names.rotate week
    let picked := ordered.filter (· ∉ book)
    match picked[roundIdx]? with
    | none => rotationRound cap week roundIdx items book
    | some sym =>
      let book' := book ++ [sym]
      if cap ≤ book'.length then book' else rotationRound cap week roundIdx items book'

def rotation (cap week : ℕ) (items : List (String × List Ticker)) :
    ℕ → ℕ → List Ticker → List Ticker
  | 0, _, book => book
  | fuel + 1, roundIdx, book =>
    if cap ≤ book.length then book
    else
      let book' := rotationRound cap week roundIdx items book
      if book'.length = book.length then book' else rotation cap week items fuel (roundIdx + 1) book'

/-- `ranked_membership_book`. Every round but the last adds a name, so `cap` rounds are enough
    (`rotation_fuel`). -/
def rankedMembershipBook (cfg : UniverseSettings) (idx : IndexSnapshots) (holdings : List String)
    (limit : Int) (isoWeek : ℕ) (eligible : List String) : List Ticker :=
  let cap := (max 1 limit).toNat
  let book := bookHoldings cap holdings []
  if cap ≤ book.length then book.take cap
  else
    let allow := eligible.map Casing.upper
    let items := ((membershipBySector cfg idx).map fun (sector, names) =>
      (sector, names.filter fun n => n.text ∈ allow)).filter fun (_, names) => names ≠ []
    (rotation cap isoWeek (items.rotate isoWeek) cap 0 book).take cap

/-- The book grew from `book` inside its bound, and its names stay distinct. -/
structure Fills (cap : ℕ) (book book' : List Ticker) : Prop where
  grows : List.IsPrefix book book'
  nodup : book.Nodup → book'.Nodup
  bounded : book.length ≤ cap → book'.length ≤ cap

theorem Fills.refl (cap : ℕ) (book : List Ticker) : Fills cap book book :=
  ⟨List.prefix_refl book, id, id⟩

variable {cap : ℕ}

theorem Fills.trans {b₁ b₂ b₃ : List Ticker} (h : Fills cap b₁ b₂) (h' : Fills cap b₂ b₃) :
    Fills cap b₁ b₃ :=
  ⟨h.grows.trans h'.grows, h'.nodup ∘ h.nodup, h'.bounded ∘ h.bounded⟩

variable {book : List Ticker}

theorem Fills.snoc {sym : Ticker} (hroom : book.length < cap) (hnew : sym ∉ book) :
    Fills cap book (book ++ [sym]) := by
  refine ⟨List.prefix_append book [sym], fun hnodup => ?_, fun _ => ?_⟩
  · rw [List.nodup_append]
    exact ⟨hnodup, List.nodup_singleton sym, fun a ha b hb hab =>
      hnew (List.mem_singleton.mp hb ▸ hab ▸ ha)⟩
  · rw [List.length_append, List.length_singleton]
    exact hroom

theorem fills_addHolding (sym : Ticker) (hroom : book.length < cap) :
    Fills cap book (addHolding book sym) := by
  unfold addHolding
  split
  · rename_i hnew
    exact Fills.snoc hroom hnew.2
  · exact Fills.refl cap book

theorem mem_addHolding {sym : Ticker} (hname : sym.text ≠ "") : sym ∈ addHolding book sym := by
  unfold addHolding
  by_cases hin : sym ∈ book
  · rw [if_neg fun hnew => hnew.2 hin]
    exact hin
  · rw [if_pos ⟨hname, hin⟩]
    exact List.mem_append_right book (List.mem_singleton_self sym)

theorem length_addHolding_le (book : List Ticker) (sym : Ticker) :
    (addHolding book sym).length ≤ book.length + 1 := by
  unfold addHolding
  split <;> simp

theorem bookHoldings_cons (cap : ℕ) (h : String) (holdings : List String) (book : List Ticker) :
    bookHoldings cap (h :: holdings) book =
      if cap ≤ (addHolding book (Ticker.ofText h)).length then addHolding book (Ticker.ofText h)
      else bookHoldings cap holdings (addHolding book (Ticker.ofText h)) := rfl

theorem fills_bookHoldings {holdings : List String} (hroom : book.length < cap) :
    Fills cap book (bookHoldings cap holdings book) := by
  induction holdings generalizing book with
  | nil => exact Fills.refl cap book
  | cons h holdings ih =>
    have hstep := fills_addHolding (Ticker.ofText h) hroom
    rw [bookHoldings_cons]
    split
    · exact hstep
    · rename_i hfull
      exact hstep.trans (ih (Nat.lt_of_not_le hfull))

theorem mem_bookHoldings {holdings : List String} (hroom : book.length + holdings.length ≤ cap)
    {h : String} (hh : h ∈ holdings) (hname : foldName h ≠ "") :
    Ticker.ofText h ∈ bookHoldings cap holdings book := by
  induction holdings generalizing book with
  | nil => cases hh
  | cons h' holdings ih =>
    have hlength := length_addHolding_le book (Ticker.ofText h')
    rw [List.length_cons] at hroom
    rw [bookHoldings_cons]
    rcases List.mem_cons.mp hh with rfl | hrest
    · split
      · exact mem_addHolding hname
      · rename_i hfull
        exact (fills_bookHoldings (Nat.lt_of_not_le hfull)).grows.subset (mem_addHolding hname)
    · split
      · rename_i hfull
        have hnone : holdings = [] := List.eq_nil_of_length_eq_zero (by omega)
        rw [hnone] at hrest
        cases hrest
      · exact ih (by omega) hrest

theorem fills_rotationRound {cap week roundIdx : ℕ} {items : List (String × List Ticker)}
    {book : List Ticker} (hroom : book.length < cap) :
    Fills cap book (rotationRound cap week roundIdx items book) := by
  induction items generalizing book with
  | nil => exact Fills.refl cap book
  | cons item items ih =>
    obtain ⟨sector, names⟩ := item
    rw [rotationRound]
    dsimp only
    split
    · exact ih hroom
    · rename_i sym hpick
      have hnew : sym ∉ book := by
        simpa using (List.mem_filter.mp (List.mem_of_getElem? hpick)).2
      have hsnoc : Fills cap book (book ++ [sym]) := Fills.snoc hroom hnew
      split
      · exact hsnoc
      · rename_i hfull
        exact hsnoc.trans (ih (Nat.lt_of_not_le hfull))

theorem rotation_succ (cap week fuel roundIdx : ℕ) (items : List (String × List Ticker))
    (book : List Ticker) : rotation cap week items (fuel + 1) roundIdx book =
      if cap ≤ book.length then book
      else if (rotationRound cap week roundIdx items book).length = book.length then
        rotationRound cap week roundIdx items book
      else rotation cap week items fuel (roundIdx + 1)
        (rotationRound cap week roundIdx items book) := rfl

theorem fills_rotation {cap week fuel roundIdx : ℕ} {items : List (String × List Ticker)}
    {book : List Ticker} : Fills cap book (rotation cap week items fuel roundIdx book) := by
  induction fuel generalizing roundIdx book with
  | zero => exact Fills.refl cap book
  | succ fuel ih =>
    rw [rotation_succ]
    split
    · exact Fills.refl cap book
    · rename_i hfull
      have hround := @fills_rotationRound _ cap week roundIdx items book (Nat.lt_of_not_le hfull)
      split
      · exact hround
      · exact hround.trans ih

/-- One round more than there is room for changes nothing. -/
theorem rotation_fuel {week : ℕ} {items : List (String × List Ticker)} (fuel : ℕ) :
    ∀ {roundIdx : ℕ} {book : List Ticker}, cap ≤ book.length + fuel →
      rotation cap week items (fuel + 1) roundIdx book =
        rotation cap week items fuel roundIdx book := by
  induction fuel with
  | zero =>
    intro roundIdx book hroom
    rw [rotation_succ, if_pos (by omega), rotation]
  | succ fuel ih =>
    intro roundIdx book hroom
    rw [rotation_succ cap week (fuel + 1) roundIdx, rotation_succ cap week fuel roundIdx]
    by_cases hfull : cap ≤ book.length
    · rw [if_pos hfull, if_pos hfull]
    · rw [if_neg hfull, if_neg hfull]
      by_cases hsame : (rotationRound cap week roundIdx items book).length = book.length
      · rw [if_pos hsame, if_pos hsame]
      · have hgrows := (@fills_rotationRound _ cap week roundIdx items book
          (Nat.lt_of_not_le hfull)).grows.length_le
        rw [if_neg hsame, if_neg hsame, ih (by omega)]

/-- The book keeps its limit, repeats nothing and has the holdings that fit. -/
theorem rankedMembershipBook_spec (cfg : UniverseSettings) (idx : IndexSnapshots)
    (holdings : List String) (limit : Int) (isoWeek : ℕ) (eligible : List String) :
    (rankedMembershipBook cfg idx holdings limit isoWeek eligible).length ≤ (max 1 limit).toNat ∧
      (rankedMembershipBook cfg idx holdings limit isoWeek eligible).Nodup ∧
      (holdings.length ≤ (max 1 limit).toNat → ∀ h ∈ holdings, foldName h ≠ "" →
        Ticker.ofText h ∈ rankedMembershipBook cfg idx holdings limit isoWeek eligible) := by
  have hcap : ([] : List Ticker).length < (max 1 limit).toNat := by
    rw [List.length_nil]
    omega
  unfold rankedMembershipBook
  dsimp only
  generalize (max 1 limit).toNat = cap at hcap ⊢
  have hheld : Fills cap [] (bookHoldings cap holdings []) := fills_bookHoldings hcap
  have hlength : (bookHoldings cap holdings []).length ≤ cap := hheld.bounded hcap.le
  split
  · rw [List.take_of_length_le hlength]
    exact ⟨hlength, hheld.nodup List.nodup_nil, fun hroom h hh hname =>
      mem_bookHoldings (by simpa using hroom) hh hname⟩
  · rw [List.take_of_length_le (fills_rotation.bounded hlength)]
    exact ⟨fills_rotation.bounded hlength, fills_rotation.nodup (hheld.nodup List.nodup_nil),
      fun hroom h hh hname => fills_rotation.grows.subset
        (mem_bookHoldings (by simpa using hroom) hh hname)⟩

end Membership

end Investor.Universe
