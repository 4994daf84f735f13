import Investor.Universe.WatchlistRuns
import Investor.Lib.Datetime

/-!
# The names a cycle looks at

A held position must stay in sight: its bars are collected (`collectionUniverse`) and its name is
in the stored focus (`persistFocus`). The tape scan, the manager or the rotation proposes names,
and both functions merge the holdings into them.

`persistFocus` puts the holdings nobody proposed in front, and leaves those that were proposed
where they stand; the cut at the end is long enough for the holdings alone, and drops a holding
proposed late. `collectionUniverse` first scopes the holdings to the membership of its venue, so
one outside it is only collected where an index overlay or the benchmark brings it back. What
has to hold of the inputs is said by `FitsFocus` and `InScope` (`coversHoldings_iff`).
-/

namespace Investor.Universe

open Lib Market

/-- `Settings`, with what the focus and the collection read on top. -/
structure FocusSettings extends UniverseSettings where
  universeFocusLimit : Int
  primaryBenchmark : String
  primaryBenchmarkAu : String

/-- `FocusSetSnapshot`. -/
structure FocusSetSnapshot where
  asOf : Datetime
  sessionDate : String
  symbols : List String
  holdings : List String
  rationale : String
  source : String
  payload : Dict Json

/-- `xs[:n]`. -/
def takeTo {α : Type*} (n : Int) (xs : List α) : List α :=
  if 0 ≤ n then xs.take n.toNat else xs.take (xs.length - (-n).toNat)

/-! ## Merging -/

def insertHeld (cleaned : List String) (h : String) : List String :=
  if h ∈ cleaned then cleaned else h :: cleaned

theorem foldl_insertHeld (held cleaned : List String) :
    held.foldl insertHeld cleaned = (held.filter (· ∉ cleaned)).eraseDups.reverse ++ cleaned := by
  induction held using List.reverseRecOn with
  | nil => rfl
  | append_singleton held h ih =>
    rw [List.foldl_append, ih, List.foldl_cons, List.foldl_nil, List.filter_append]
    unfold insertHeld
    by_cases hin : h ∈ cleaned
    · rw [if_pos (List.mem_append_right _ hin)]
      simp [hin]
    · have hsingle : [h].filter (· ∉ cleaned) = [h] := by simp [hin]
      rw [hsingle, eraseDups_snoc]
      by_cases hseen : h ∈ held.filter (· ∉ cleaned)
      · rw [if_pos hseen, if_pos]
        exact List.mem_append_left _ (List.mem_reverse.mpr (List.mem_eraseDups.mpr hseen))
      · rw [if_neg hseen, if_neg, List.reverse_append]
        · rfl
        · rw [List.mem_append, List.mem_reverse, List.mem_eraseDups]
          exact not_or.mpr ⟨hseen, hin⟩

def appendHeld (chosen : List String) (h : String) : List String :=
  if h ∈ chosen then chosen else chosen ++ [h]

variable {sym : String}

theorem mem_foldl_appendHeld {held chosen : List String} :
    sym ∈ held.foldl appendHeld chosen ↔
      sym ∈ chosen ∨ sym ∈ held := by
  induction held generalizing chosen with
  | nil => simp
  | cons h held ih =>
    rw [List.foldl_cons, ih]
    unfold appendHeld
    split
    · rename_i hin
      rw [List.mem_cons]
      constructor
      · exact Or.imp_right Or.inr
      · rintro (hchosen | rfl | hheld)
        · exact Or.inl hchosen
        · exact Or.inl hin
        · exact Or.inr hheld
    · rw [List.mem_append, List.mem_singleton, List.mem_cons, or_assoc]

section Focus

variable [StripCasing]

/-! ## The stored focus -/

/-- What a focus may name: the active watch, the holdings and the membership. -/
def focusAllowed (cfg : UniverseSettings) (idx : IndexSnapshots) (holdings : List String)
    (w : Watchlist) : List String :=
  (listActive w).map (·.symbol.text) ++ holdings.map Casing.upper ++
    (membershipSymbols cfg idx none).map Ticker.text

def namedFocus (allowed symbols : List String) : List String :=
  (symbols.map foldName).filter fun u => u ≠ "" ∧ u ∈ allowed

/-- `_persist_focus`: the snapshot it stores. The clock is in UTC. -/
def persistFocus (cfg : FocusSettings) (idx : IndexSnapshots) (now : Datetime)
    (symbols holdings : List String) (rationale : String) (sessionDate : Option String)
    (source : String) (extra : Dict Json) (w : Watchlist) : FocusSetSnapshot :=
  let today := String.ofList (dateText now.year now.month now.day)
  let held := holdings.map Casing.upper
  let allowed := focusAllowed cfg.toUniverseSettings idx holdings w
  let merged := held.foldl insertHeld (namedFocus allowed symbols).eraseDups
  let cleaned :=
    -- only stale names: the active rows, which are listed by priority
    if merged = [] then (takeTo cfg.universeFocusLimit (listActive w)).map (·.symbol.text)
    else merged
  { asOf := now
    sessionDate := (sessionDate.filter (· ≠ "")).getD today
    symbols := takeTo (max cfg.universeFocusLimit held.length) cleaned
    holdings := held, rationale := rationale, source := source, payload := extra }

/-! ## The collected names -/

def benchmark (cfg : FocusSettings) : Option Venue → String
  | some .au => Casing.upper (if cfg.primaryBenchmarkAu = "" then "VAS" else cfg.primaryBenchmarkAu)
  | _ => Casing.upper (if cfg.primaryBenchmark = "" then "SPY" else cfg.primaryBenchmark)

/-- `index_symbols_for_venue`. -/
def indexSymbolsForVenue (cfg : FocusSettings) : Venue → List String
  | .au => benchmark cfg (some .au) :: ["IOZ", "NDQ"].filter (· ≠ benchmark cfg (some .au))
  | .us => ["SPY", "QQQ", "IWM", "DIA"]

/-- What `_watch_context` finds, beside venue and benchmark. -/
structure WatchContext where
  held : List String
  horizons : Dict String
  watch : List String

def scopeHoldings (cfg : FocusSettings) (idx : IndexSnapshots) (want : Option Venue)
    (held : List String) : List String :=
  match want with
  | none => held
  | some v => held.filter fun h =>
      h ∈ (membershipSymbols cfg.toUniverseSettings idx (some v)).map Ticker.text ∨
        h = benchmark cfg want

def inContext (cfg : FocusSettings) (idx : IndexSnapshots) (want : Option Venue)
    (held : List String) (r : WatchlistSymbol) : Bool :=
  match want with
  | none => true
  | some v => r.symbol ∈ membershipSymbols cfg.toUniverseSettings idx (some v) ∨
      r.symbol.text ∈ held

/-- `_watch_context`. -/
def watchContext (cfg : FocusSettings) (idx : IndexSnapshots) (holdings : List String)
    (want : Option Venue) (w : Watchlist) : WatchContext :=
  let held := scopeHoldings cfg idx want ((holdings.filter (· ≠ "")).map Casing.upper)
  let rows := (listActive w).filter (inContext cfg idx want held)
  { held := held
    horizons := rows.map fun r => (r.symbol.text, r.horizon)
    watch := (rows.filter fun r =>
        r.symbol.text ∈ held ∨ isActiveStrategyHorizon r.horizon).map (·.symbol.text) ++ held }

/-- `_finalize_collection_symbols`: the index overlays of the venue. -/
def withIndexSymbols (cfg : FocusSettings) (want : Option Venue) (symbols : List String) :
    List String :=
  match want with
  | none => symbols
  | some v => sortedBy id (symbols.map Casing.upper ++ indexSymbolsForVenue cfg v).dedup

/-- `_filter_collection_symbols`, of the horizons read. -/
def filterCollectionSymbols (hz : Dict String) (held : List String) (bench : String)
    (symbols : List String) : List String :=
  symbols.filter fun sym =>
    (sym ∈ held ∨ sym = bench) ∨ (Dict.get? hz sym).any isActiveStrategyHorizon

/-- The scan of the stored tape: the names of a watch that pass, `none` without a bar. -/
abbrev TapeScan := WatchContext → Option (List String)

def collectVenue (cfg : FocusSettings) (idx : IndexSnapshots) (found : ℕ → Moment)
    (scan : TapeScan) (holdings : List String) (w : Watchlist) (want : Option Venue) :
    Watchlist × List String :=
  let held := sortedBy id ((holdings.filter (· ≠ "")).map Casing.upper).dedup
  let bench := benchmark cfg want
  if isDynamic cfg.toUniverseSettings then
    let w₁ := (ensureSeeded cfg.toUniverseSettings (found 0) w).1
    let ctx := watchContext cfg idx held want w₁
    let selected := (scan ctx).getD
      ((rankedMembershipBook cfg.toUniverseSettings idx ctx.held cfg.universeFocusLimit
        (found 0).isoWeek ctx.watch).map Ticker.text)
    let chosen := selected.filter (· ∈ ctx.watch ++ ctx.held ++ [bench])
    let merged := ctx.held.foldl appendHeld chosen
    let (w₂, hz) := horizonBySymbol cfg.toUniverseSettings (found 1) w₁
    (w₂, withIndexSymbols cfg want (filterCollectionSymbols hz ctx.held bench merged))
  else
    let allow := (want.map cfg.toSettings.allowlistForVenue).getD cfg.tradeAllowlist
    (w, withIndexSymbols cfg want (sortedBy id (allow ++ held ++ [bench]).dedup))

/-- `collection_universe`: `ValueError` for an unknown venue. -/
def collectionUniverse (cfg : FocusSettings) (idx : IndexSnapshots) (found : ℕ → Moment)
    (scan : TapeScan) (holdings : List String) (venue : Option String) (w : Watchlist) :
    Watchlist × Except String (List String) :=
  match parseVenue venue with
  | .absent => (collectVenue cfg idx found scan holdings w none).map id .ok
  | .venue v => (collectVenue cfg idx found scan holdings w (some v)).map id .ok
  | .unknown => (w, .error ("unknown_venue:" ++ venue.getD ""))

/-! ## What must hold of the inputs -/

/-- Every holding that is proposed stands early enough: the holdings nobody proposed and the
    names proposed before it leave a place in front of the cut. -/
def FitsFocus (cfg : FocusSettings) (idx : IndexSnapshots) (symbols holdings : List String)
    (w : Watchlist) : Prop :=
  let named := namedFocus (focusAllowed cfg.toUniverseSettings idx holdings w) symbols
  let unnamed := (holdings.map Casing.upper).filter (· ∉ named)
  ∀ h ∈ holdings, Casing.upper h ∈ named →
    ((unnamed.eraseDups.length + (named.takeWhile (· ≠ Casing.upper h)).eraseDups.length : ℕ) : Int) <
      max cfg.universeFocusLimit holdings.length

/-- In dynamic mode and for one venue, every holding is of the venue's membership, its benchmark
    or one of its index overlays. -/
def InScope (cfg : FocusSettings) (idx : IndexSnapshots) (holdings : List String)
    (venue : Option String) : Prop :=
  ∀ v, parseVenue venue = .venue v → isDynamic cfg.toUniverseSettings = true →
    ∀ h ∈ holdings, h ≠ "" →
      Casing.upper h ∈ (membershipSymbols cfg.toUniverseSettings idx (some v)).map Ticker.text ∨
        Casing.upper h = benchmark cfg (some v) ∨ Casing.upper h ∈ indexSymbolsForVenue cfg v

/-! ## The focus keeps what fits -/

variable {cfg : FocusSettings} {idx : IndexSnapshots} {w : Watchlist} {holdings symbols : List String}

/-- The focus row names the holdings exactly if those proposed stand before the cut. -/
theorem mem_persistFocus {now : Datetime} {rationale source : String} {sessionDate : Option String}
    {extra : Dict Json} :
    (∀ h ∈ holdings, Casing.upper h ∈ (persistFocus cfg idx now symbols holdings rationale
      sessionDate source extra w).symbols) ↔ FitsFocus cfg idx symbols holdings w := by
  unfold FitsFocus persistFocus
  dsimp only
  generalize namedFocus (focusAllowed cfg.toUniverseSettings idx holdings w) symbols = named
  rw [foldl_insertHeld]
  have hfilter : (holdings.map Casing.upper).filter (· ∉ named.eraseDups) =
      (holdings.map Casing.upper).filter (· ∉ named) := by
    simp only [List.mem_eraseDups]
  rw [hfilter]
  refine forall₂_congr fun h hh => ?_
  have hheld : Casing.upper h ∈ holdings.map Casing.upper := List.mem_map_of_mem hh
  have hcut : (0 : Int) ≤ max cfg.universeFocusLimit (holdings.map Casing.upper).length := by
    omega
  have hsome : ((holdings.map Casing.upper).filter (· ∉ named)).eraseDups.reverse ++
      named.eraseDups ≠ [] := by
    refine List.ne_nil_of_mem (a := Casing.upper h) ?_
    rw [List.mem_append, List.mem_reverse, List.mem_eraseDups, List.mem_eraseDups, List.mem_filter]
    by_cases hin : Casing.upper h ∈ named
    · exact Or.inr hin
    · exact Or.inl ⟨hheld, by simpa using hin⟩
  rw [if_neg hsome, takeTo, if_pos hcut]
  by_cases hin : Casing.upper h ∈ named
  · obtain ⟨rest, hrest⟩ := eraseDups_split hin
    have hfront : Casing.upper h ∉ ((holdings.map Casing.upper).filter (· ∉ named)).eraseDups.reverse ++
        (named.takeWhile (· ≠ Casing.upper h)).eraseDups := by
      rw [List.mem_append, List.mem_reverse, List.mem_eraseDups, List.mem_eraseDups,
        List.mem_filter]
      rintro (hunnamed | hbefore)
      · exact absurd hin (by simpa using hunnamed.2)
      · simpa using List.mem_takeWhile_imp hbefore
    rw [hrest, ← List.append_assoc, mem_take_append_cons hfront, List.length_append,
      List.length_reverse, List.length_map]
    simp only [hin, true_imp_iff]
    omega
  · simp only [hin, false_imp_iff, iff_true]
    have hunnamed : Casing.upper h ∈
        ((holdings.map Casing.upper).filter (· ∉ named)).eraseDups.reverse := by
      rw [List.mem_reverse, List.mem_eraseDups, List.mem_filter]
      exact ⟨hheld, by simpa using hin⟩
    have hcount := length_eraseDups_le ((holdings.map Casing.upper).filter (· ∉ named))
    have hfits : ((holdings.map Casing.upper).filter (· ∉ named)).eraseDups.reverse.length ≤
        (max cfg.universeFocusLimit (holdings.map Casing.upper).length).toNat := by
      have hsub := List.length_filter_le (· ∉ named) (holdings.map Casing.upper)
      rw [List.length_reverse]
      omega
    rw [List.take_append, List.take_of_length_le hfits]
    exact List.mem_append_left _ hunnamed

/-! ## The collection keeps what is in scope -/

variable {want : Option Venue}

theorem mem_withIndexSymbols {names : List String} :
    sym ∈ withIndexSymbols cfg want names ↔
      (want = none ∧ sym ∈ names) ∨
        ∃ v, want = some v ∧ (sym ∈ names.map Casing.upper ∨ sym ∈ indexSymbolsForVenue cfg v) := by
  cases want with
  | none => simp [withIndexSymbols]
  | some v =>
    unfold withIndexSymbols
    dsimp only
    rw [(sortedBy_perm _ _).mem_iff, List.mem_dedup, List.mem_append]
    simp

theorem mem_sortedHeld :
    sym ∈ sortedBy id ((holdings.filter (· ≠ "")).map Casing.upper).dedup ↔
      ∃ h ∈ holdings, h ≠ "" ∧ Casing.upper h = sym := by
  rw [(sortedBy_perm _ _).mem_iff, List.mem_dedup, List.mem_map]
  simp only [List.mem_filter, decide_eq_true_eq, and_assoc]

theorem mem_upperHeld :
    sym ∈ ((sortedBy id ((holdings.filter (· ≠ "")).map Casing.upper).dedup).filter
        (· ≠ "")).map Casing.upper ↔ ∃ h ∈ holdings, h ≠ "" ∧ Casing.upper h = sym := by
  rw [List.mem_map]
  constructor
  · rintro ⟨s, hs, rfl⟩
    obtain ⟨h, hh, hname, rfl⟩ := mem_sortedHeld.mp (List.mem_filter.mp hs).1
    exact ⟨h, hh, hname, (Casing.upper_upper h).symm⟩
  · rintro ⟨h, hh, hname, rfl⟩
    refine ⟨Casing.upper h, List.mem_filter.mpr ⟨mem_sortedHeld.mpr ⟨h, hh, hname, rfl⟩, ?_⟩,
      Casing.upper_upper h⟩
    exact decide_eq_true fun hempty => hname (StripCasing.upper_eq_empty h hempty)

theorem mem_watch {v : Venue} (hwant : want = some v)
    (h : sym ∈ (watchContext cfg idx holdings want w).watch) :
    sym ∈ (membershipSymbols cfg.toUniverseSettings idx (some v)).map Ticker.text ∨
      sym ∈ (watchContext cfg idx holdings want w).held := by
  subst hwant
  unfold watchContext at h ⊢
  dsimp only at h ⊢
  rcases List.mem_append.mp h with hrow | hheld
  · obtain ⟨r, hr, rfl⟩ := List.mem_map.mp hrow
    have hcontext := (List.mem_filter.mp (List.mem_filter.mp hr).1).2
    rw [inContext, decide_eq_true_eq] at hcontext
    exact hcontext.imp_left List.mem_map_of_mem
  · exact Or.inr hheld

theorem mem_heldScoped :
    sym ∈ (watchContext cfg idx (sortedBy id ((holdings.filter (· ≠ "")).map Casing.upper).dedup)
        want w).held ↔
      (∃ h ∈ holdings, h ≠ "" ∧ Casing.upper h = sym) ∧ ∀ v, want = some v →
        sym ∈ (membershipSymbols cfg.toUniverseSettings idx (some v)).map Ticker.text ∨
          sym = benchmark cfg want := by
  unfold watchContext scopeHoldings
  dsimp only
  cases want with
  | none =>
    rw [mem_upperHeld]
    simp
  | some v =>
    dsimp only
    rw [List.mem_filter, mem_upperHeld, decide_eq_true_eq]
    simp

theorem upper_benchmark : Casing.upper (benchmark cfg want) = benchmark cfg want := by
  unfold benchmark
  split <;> exact Casing.upper_upper _

theorem mem_collected {v : Venue} {hz : Dict String} {selected : List String}
    {h : String} (hh : h ∈ holdings) (hname : h ≠ "") :
    let ctx := watchContext cfg idx
      (sortedBy id ((holdings.filter (· ≠ "")).map Casing.upper).dedup) (some v) w
    Casing.upper h ∈ withIndexSymbols cfg (some v) (filterCollectionSymbols hz ctx.held
        (benchmark cfg (some v))
        (ctx.held.foldl appendHeld
          (selected.filter (· ∈ ctx.watch ++ ctx.held ++ [benchmark cfg (some v)])))) ↔
      Casing.upper h ∈ (membershipSymbols cfg.toUniverseSettings idx (some v)).map Ticker.text ∨
        Casing.upper h = benchmark cfg (some v) ∨ Casing.upper h ∈ indexSymbolsForVenue cfg v := by
  intro ctx
  have hheld : Casing.upper h ∈ ctx.held ↔
      Casing.upper h ∈ (membershipSymbols cfg.toUniverseSettings idx (some v)).map Ticker.text ∨
        Casing.upper h = benchmark cfg (some v) := by
    rw [mem_heldScoped]
    constructor
    · exact fun hscoped => hscoped.2 v rfl
    · rintro hscope
      refine ⟨⟨h, hh, hname, rfl⟩, ?_⟩
      rintro _ ⟨⟩
      exact hscope
  have hfilter : Casing.upper h ∈ (filterCollectionSymbols hz ctx.held (benchmark cfg (some v))
      (ctx.held.foldl appendHeld
        (selected.filter (· ∈ ctx.watch ++ ctx.held ++ [benchmark cfg (some v)])))).map
          Casing.upper ↔ Casing.upper h ∈ ctx.held := by
    constructor
    · intro hmem
      obtain ⟨s, hs, hupper⟩ := List.mem_map.mp hmem
      have hmerged := mem_foldl_appendHeld.mp (List.mem_filter.mp hs).1
      have hallowed : s ∈ ctx.watch ∨ s ∈ ctx.held ∨ s = benchmark cfg (some v) := by
        rcases hmerged with hchosen | hkept
        · have h' := (List.mem_filter.mp hchosen).2
          simpa [or_assoc] using h'
        · exact Or.inr (Or.inl hkept)
      have hscope : s ∈ (membershipSymbols cfg.toUniverseSettings idx (some v)).map Ticker.text ∨
          s ∈ ctx.held ∨ s = benchmark cfg (some v) :=
        hallowed.elim (fun hwatch => (mem_watch rfl hwatch).imp_right Or.inl) Or.inr
      rcases hscope with hmember | hkept | hbench
      · obtain ⟨t, ht, rfl⟩ := List.mem_map.mp hmember
        rw [Ticker.upper_text] at hupper
        exact hheld.mpr (Or.inl (hupper ▸ hmember))
      · obtain ⟨⟨h', -, -, rfl⟩, -⟩ := mem_heldScoped.mp hkept
        rw [Casing.upper_upper] at hupper
        exact hupper ▸ hkept
      · rw [hbench, upper_benchmark] at hupper
        exact hheld.mpr (Or.inr hupper.symm)
    · intro hkept
      refine List.mem_map.mpr ⟨Casing.upper h, List.mem_filter.mpr ⟨?_, ?_⟩, Casing.upper_upper h⟩
      · exact mem_foldl_appendHeld.mpr (Or.inr hkept)
      · exact decide_eq_true (Or.inl (Or.inl hkept))
  rw [mem_withIndexSymbols, ← or_assoc, ← hheld]
  constructor
  · rintro (⟨hnone, -⟩ | ⟨_, ⟨⟩, hmem⟩)
    · cases hnone
    · exact hmem.imp_left hfilter.mp
  · exact fun hmem => Or.inr ⟨v, rfl, hmem.imp_left hfilter.mpr⟩

theorem mem_collectVenue_unscoped {found : ℕ → Moment} {scan : TapeScan}
    (h : want = none ∨ isDynamic cfg.toUniverseSettings = false)
    (hsym : ∃ h ∈ holdings, h ≠ "" ∧ Casing.upper h = sym) :
    sym ∈ (collectVenue cfg idx found scan holdings w want).2 := by
  unfold collectVenue
  dsimp only
  split
  · rename_i hdynamic
    rcases h with rfl | hstatic
    · have hheld : sym ∈ (watchContext cfg idx
          (sortedBy id ((holdings.filter (· ≠ "")).map Casing.upper).dedup) none
          (ensureSeeded cfg.toUniverseSettings (found 0) w).1).held :=
        mem_heldScoped.mpr ⟨hsym, fun _ hnone => by cases hnone⟩
      refine List.mem_filter.mpr ⟨?_, ?_⟩
      · exact mem_foldl_appendHeld.mpr (Or.inr hheld)
      · exact decide_eq_true (Or.inl (Or.inl hheld))
    · rw [hdynamic] at hstatic
      cases hstatic
  · have hmem : sym ∈ sortedBy id ((want.map cfg.toSettings.allowlistForVenue).getD
        cfg.tradeAllowlist ++ sortedBy id ((holdings.filter (· ≠ "")).map Casing.upper).dedup ++
          [benchmark cfg want]).dedup := by
      rw [(sortedBy_perm _ _).mem_iff, List.mem_dedup]
      exact List.mem_append_left _ (List.mem_append_right _ (mem_sortedHeld.mpr hsym))
    rw [mem_withIndexSymbols]
    cases want with
    | none => exact Or.inl ⟨rfl, hmem⟩
    | some v =>
      obtain ⟨h', -, -, rfl⟩ := hsym
      exact Or.inr ⟨v, rfl, Or.inl (List.mem_map.mpr ⟨_, hmem, Casing.upper_upper h'⟩)⟩

/-- The holdings are collected exactly if the venue's scope has them. -/
theorem mem_collectionUniverse {found : ℕ → Moment} {scan : TapeScan} {venue : Option String} :
    (∀ names, (collectionUniverse cfg idx found scan holdings venue w).2 = .ok names →
      ∀ h ∈ holdings, h ≠ "" → Casing.upper h ∈ names) ↔ InScope cfg idx holdings venue := by
  unfold InScope collectionUniverse
  cases hvenue : parseVenue venue with
  | absent =>
    refine iff_of_true ?_ fun v hv => by cases hv
    rintro _ ⟨⟩ h hh hname
    exact mem_collectVenue_unscoped (Or.inl rfl) ⟨h, hh, hname, rfl⟩
  | unknown => exact iff_of_true (fun _ h => by cases h) fun v hv => by cases hv
  | venue v =>
    cases hdynamic : isDynamic cfg.toUniverseSettings with
    | false =>
      refine iff_of_true ?_ fun _ _ h => by cases h
      rintro _ ⟨⟩ h hh hname
      exact mem_collectVenue_unscoped (Or.inr hdynamic) ⟨h, hh, hname, rfl⟩
    | true =>
      have hread : ∀ h ∈ holdings, h ≠ "" →
          (Casing.upper h ∈ (collectVenue cfg idx found scan holdings w (some v)).2 ↔
            Casing.upper h ∈ (membershipSymbols cfg.toUniverseSettings idx (some v)).map Ticker.text ∨
              Casing.upper h = benchmark cfg (some v) ∨
                Casing.upper h ∈ indexSymbolsForVenue cfg v) := by
        intro h hh hname
        unfold collectVenue
        dsimp only
        rw [if_pos hdynamic]
        exact mem_collected hh hname
      constructor
      · rintro hall _ ⟨⟩ - h hh hname
        exact (hread h hh hname).mp (hall _ rfl h hh hname)
      · rintro hscope _ ⟨⟩ h hh hname
        exact (hread h hh hname).mpr (hscope v rfl rfl h hh hname)

/-- **Every holding stays in the stored focus exactly when those that were proposed stand early
    enough, and in the collected names exactly when it is in the scope of the venue.** -/
theorem coversHoldings_iff (cfg : FocusSettings) (idx : IndexSnapshots) (now : Datetime)
    (symbols holdings : List String) (rationale : String) (sessionDate : Option String)
    (source : String) (extra : Dict Json) (found : ℕ → Moment) (scan : TapeScan)
    (venue : Option String) (w : Watchlist) :
    ((∀ h ∈ holdings, Casing.upper h ∈ (persistFocus cfg idx now symbols holdings rationale
        sessionDate source extra w).symbols) ↔ FitsFocus cfg idx symbols holdings w) ∧
      ((∀ names, (collectionUniverse cfg idx found scan holdings venue w).2 = .ok names →
        ∀ h ∈ holdings, h ≠ "" → Casing.upper h ∈ names) ↔ InScope cfg idx holdings venue) :=
  ⟨mem_persistFocus, mem_collectionUniverse⟩

end Focus

section Sample

attribute [local instance] asciiStripCasing

def sampleFocusSettings : FocusSettings :=
  { sampleUniverse ["AAPL"] "dynamic" 3 with
    universeFocusLimit := 1, primaryBenchmark := "SPY", primaryBenchmarkAu := "VAS" }

def sampleClock : Datetime :=
  { year := 2024, month := 3, day := 5, hour := 14, minute := 30, second := 0, microsecond := 0,
    valid := by decide, zone := Zone.utc }

/-- **A holding proposed second is cut from a focus of one name, and one outside the membership
    is not collected.** -/
theorem late_holding_dropped :
    ¬ (∀ h ∈ ["AAPL"], Casing.upper h ∈ (persistFocus sampleFocusSettings sampleSnapshots
        sampleClock ["MSFT", "AAPL"] ["AAPL"] "" none "universe_manager" []
        KeyedTable.empty).symbols) ∧
      ¬ (∀ names, (collectionUniverse sampleFocusSettings sampleSnapshots
          (fun _ => sampleMoment "") (fun _ => some ["MSFT"]) ["TSLA"] (some "US")
          KeyedTable.empty).2 = .ok names →
        ∀ h ∈ ["TSLA"], h ≠ "" → Casing.upper h ∈ names) := by
  constructor
  · decide +kernel
  · intro hall
    have hnames : (collectionUniverse sampleFocusSettings sampleSnapshots
        (fun _ => sampleMoment "") (fun _ => some ["MSFT"]) ["TSLA"] (some "US")
        KeyedTable.empty).2.toOption = some ["DIA", "IWM", "QQQ", "SPY"] := by
      decide +kernel
    cases hread : (collectionUniverse sampleFocusSettings sampleSnapshots
        (fun _ => sampleMoment "") (fun _ => some ["MSFT"]) ["TSLA"] (some "US")
        KeyedTable.empty).2 with
    | error e =>
      rw [hread] at hnames
      cases hnames
    | ok names =>
      rw [hread] at hnames
      cases hnames
      exact absurd (hall _ hread "TSLA" List.mem_cons_self (by decide)) (by decide)

end Sample

end Investor.Universe
