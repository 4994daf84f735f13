import Investor.Universe.Watchlist

/-!
# A refresh of the universe, and the reads after it

`UniverseService.refresh` runs the Universe Manager at most once in an interval, and between
runs only keeps the table clean. Whatever the manager proposes, its run ends with a
reconstitution and the liquidity screen, so a refresh that ran it leaves at most
`universe_watchlist_limit` rows active. A refresh that skips the manager leaves that to the next
one.

Every read of the universe begins with `ensureSeeded`, and that puts the standing sleeve roster
back on its books, paused or not. A name the screen paused is out of the entry universe until the
next refresh if it has no standing book (`refresh_keeps_book`); one of the roster comes back at
the next read (`paused_name_returns`).
-/

namespace Investor.Universe

open Lib Market

section Runs

variable [StripCasing]

/-! ## Reads -/

/-- The writes of `n` calls of `ensureSeeded`, each at its own moment. -/
def seedTimes (cfg : UniverseSettings) (found : ℕ → Moment) : ℕ → Watchlist → Watchlist
  | 0, w => w
  | n + 1, w => (ensureSeeded cfg (found n) (seedTimes cfg found n w)).1

/-- How often `build_session_focus` seeds: by itself, for the tape, and in `build_focus_without_llm`
    where there is no tape. An unknown venue raises after the first two. -/
def sessionFocusSeedings (cfg : UniverseSettings) (venue : Option String)
    (hasTape allowRotation : Bool) : ℕ :=
  1 + (if isDynamic cfg ∧ cfg.enableExternalData ∧ cfg.enableMarketDataCollection then 1 else 0) +
    (if parseVenue venue ≠ .unknown ∧ hasTape = false ∧ allowRotation then 1 else 0)

inductive ReadOp
  | entryUniverse (venue : Option String)
  | horizonBySymbol
  | snapshot
  | collectionUniverse (venue : Option String)
  | buildSessionFocus (venue : Option String) (hasTape allowRotation : Bool)

/-- How often an operation seeds. `snapshot` and `collection_universe` read the horizons, which
    seeds once more. -/
def ReadOp.seedings (cfg : UniverseSettings) : ReadOp → ℕ
  | .entryUniverse venue => if parseVenue venue ≠ .unknown ∧ isDynamic cfg then 1 else 0
  | .horizonBySymbol => 1
  | .snapshot => 2
  | .collectionUniverse venue => if parseVenue venue ≠ .unknown ∧ isDynamic cfg then 2 else 0
  | .buildSessionFocus venue hasTape allowRotation =>
    sessionFocusSeedings cfg venue hasTape allowRotation

def read (cfg : UniverseSettings) (w : Watchlist) (step : ReadOp × (ℕ → Moment)) : Watchlist :=
  seedTimes cfg step.2 (step.1.seedings cfg) w

def runReads (cfg : UniverseSettings) (steps : List (ReadOp × (ℕ → Moment))) (w : Watchlist) :
    Watchlist := steps.foldl (read cfg) w

/-! ## The refresh -/

/-- `UniverseManagerOutput`, what the service reads of it. -/
structure UniverseManagerOutput where
  proposals : List WatchlistProposal
  notes : List String
  focusRationale : String

/-- `_is_fallback_output`. -/
def isFallbackOutput (out : UniverseManagerOutput) : Bool :=
  (out.notes.any fun n => hasPrefix n "fallback:") ||
    hasPrefix (Casing.lower out.focusRationale) "fallback"

inductive Stage
  | opening | gate | interval | screen | firstBook | proposals | book | hygiene
  | focus (n : ℕ)

/-- One call of `refresh`, and what it finds: the calendar, the last run of the manager, the
    tape, the manager's reply and the outcome statistics. -/
structure RefreshCall where
  holdings : List String
  themes : List String
  marketRegime : Option String
  force : Bool
  weekend : Bool
  liveTape : Bool
  lastLlmAt : Option Int
  hasTape : Bool
  reply : UniverseManagerOutput
  outcomes : OutcomeStats
  found : Stage → Moment

structure RefreshReport where
  skipped : Bool
  reason : Option String
  proposals : Option ℕ
  fallback : Option Bool
  reconstitute : Option Reconstituted
  hygiene : Option HygieneReport

/-- `llm_refresh_due`. -/
def llmRefreshDue (cfg : UniverseSettings) (lastLlmAt : Option Int) (now : Int) : Bool :=
  match lastLlmAt with
  | none => true
  | some last => decide (max 1 cfg.universeRefreshMinIntervalDays * 86400 ≤ now - last)

/-- The writes of `build_session_focus` in a refresh, which names no venue. -/
def sessionFocus (cfg : UniverseSettings) (call : RefreshCall) (w : Watchlist) : Watchlist :=
  seedTimes cfg (fun n => call.found (.focus n)) (sessionFocusSeedings cfg none call.hasTape true) w

def runManager (cfg : UniverseSettings) (idx : IndexSnapshots) (call : RefreshCall)
    (w : Watchlist) : Watchlist × RefreshReport :=
  let screened := (screenedCandidatePool cfg idx (call.found .screen).quotes call.themes
    call.marketRegime).passed
  let w₁ := (reconstituteWatchlist cfg idx (call.found .firstBook) call.holdings
    (some screened) w).1
  let fallback := isFallbackOutput call.reply
  let w₂ :=
    if fallback then w₁
    else applyProposals cfg (call.found .proposals).now call.reply.proposals screened true w₁
  let (w₃, recon) := reconstituteWatchlist cfg idx (call.found .book) call.holdings
    (some screened) w₂
  let w₄ := stampOutcomeStats call.outcomes w₃
  let (w₅, hygiene) := hygieneActiveWatchlist cfg (call.found .hygiene) call.holdings w₄
  (w₅,
    { skipped := false, reason := none,
      proposals := some (if fallback then 0 else call.reply.proposals.length),
      fallback := some fallback, reconstitute := some recon, hygiene := some hygiene })

/-- `refresh`. -/
def refresh (cfg : UniverseSettings) (idx : IndexSnapshots) (call : RefreshCall)
    (w : Watchlist) : Watchlist × RefreshReport :=
  let w₀ := (ensureSeeded cfg (call.found .opening) w).1
  let due := fun stage => llmRefreshDue cfg call.lastLlmAt (call.found stage).now
  let skip := fun reason recon hygiene =>
    ({ skipped := true, reason := some reason, proposals := none, fallback := none,
       reconstitute := recon, hygiene := hygiene } : RefreshReport)
  if cfg.universeManagerEnabled = false then
    let (w₁, recon) := reconstituteWatchlist cfg idx (call.found .book) call.holdings none w₀
    (sessionFocus cfg call w₁, skip "universe_manager_disabled" (some recon) none)
  else if call.force = false ∧ cfg.universeRefreshWeekendOnly ∧ call.weekend = false ∧
      ¬ (due .gate ∧ call.liveTape = false) then
    -- a weekday: the book is only rebuilt when the manager is due and the tape is live
    if due .gate then
      let (w₁, recon) := reconstituteWatchlist cfg idx (call.found .book) call.holdings none w₀
      let (w₂, hygiene) := hygieneActiveWatchlist cfg (call.found .hygiene) call.holdings w₁
      (sessionFocus cfg call w₂, skip "weekend_only_live" (some recon) (some hygiene))
    else
      let (w₂, hygiene) := hygieneActiveWatchlist cfg (call.found .hygiene) call.holdings w₀
      (sessionFocus cfg call w₂, skip "weekend_only" none (some hygiene))
  else if call.force = false ∧ due .interval = false then
    let (w₂, hygiene) := hygieneActiveWatchlist cfg (call.found .hygiene) call.holdings w₀
    (sessionFocus cfg call w₂, skip "min_interval" none (some hygiene))
  else runManager cfg idx call w₀

def RefreshReport.pausedByScreen (report : RefreshReport) : List Ticker :=
  ((report.hygiene.map (·.paused)).getD []).map (·.1)

/-! ## What reads keep -/

variable {cfg : UniverseSettings} {idx : IndexSnapshots} {call : RefreshCall} {w : Watchlist}
  {sym : Ticker}

theorem active_seedTimes {found : ℕ → Moment} {n : ℕ} (h : statusOf w sym = some .active) :
    statusOf (seedTimes cfg found n w) sym = some .active := by
  induction n with
  | zero => exact h
  | succ n ih => exact active_ensureSeeded ih

theorem statusOf_seedTimes {found : ℕ → Moment} {n : ℕ} {status : WatchStatus}
    (hbook : assignedHorizon sym.text = none) (h : statusOf w sym = some status) :
    statusOf (seedTimes cfg found n w) sym = some status := by
  induction n with
  | zero => exact h
  | succ n ih => exact statusOf_ensureSeeded hbook ih

theorem statusOf_runReads {steps : List (ReadOp × (ℕ → Moment))} {status : WatchStatus}
    (hbook : assignedHorizon sym.text = none) (h : statusOf w sym = some status) :
    statusOf (runReads cfg steps w) sym = some status := by
  unfold runReads
  induction steps generalizing w with
  | nil => exact h
  | cons step steps ih => exact ih (statusOf_seedTimes hbook h)

/-! ## What a refresh leaves -/

def IsName (h : String) : Prop := h ≠ "" ∧ foldName h = Casing.upper h

instance (h : String) : Decidable (IsName h) :=
  inferInstanceAs (Decidable (h ≠ "" ∧ foldName h = Casing.upper h))

variable {holdings : List String} {h : String}

theorem mem_heldNames (hh : h ∈ holdings) (hname : IsName h) :
    (Ticker.ofText h).text ∈ heldNames holdings := by
  rw [Ticker.text_ofText, hname.2]
  exact List.mem_map_of_mem (List.mem_filter.mpr ⟨hh, decide_eq_true hname.1⟩)

theorem mem_upper (hh : h ∈ holdings) (hname : IsName h) :
    (Ticker.ofText h).text ∈ holdings.map Casing.upper := by
  rw [Ticker.text_ofText, hname.2]
  exact List.mem_map_of_mem hh

theorem active_reconstitute {m : Moment} {screened : Option (List String)}
    (hcount : (holdings.length : Int) ≤ cfg.universeWatchlistLimit) (hh : h ∈ holdings)
    (hname : IsName h) :
    statusOf (reconstituteWatchlist cfg idx m holdings screened w).1 (Ticker.ofText h) =
      some .active :=
  statusOf_reconstitute.1 (mem_desiredBook hcount (mem_heldNames hh hname))

theorem mem_of_active_reconstitute {m : Moment} {screened : Option (List String)}
    (hcount : (holdings.length : Int) ≤ cfg.universeWatchlistLimit)
    (h : statusOf (reconstituteWatchlist cfg idx m holdings screened w).1 sym = some .active) :
    sym ∈ desiredBook cfg idx m holdings screened :=
  (statusOf_reconstitute.2 h).elim id (mem_desiredBook hcount)

theorem length_active_runManager (hlimit : 1 ≤ cfg.universeWatchlistLimit)
    (hcount : (call.holdings.length : Int) ≤ cfg.universeWatchlistLimit) :
    ((activeRows (runManager cfg idx call w).1).length : Int) ≤ cfg.universeWatchlistLimit := by
  let screened := (screenedCandidatePool cfg idx (call.found .screen).quotes call.themes
    call.marketRegime).passed
  have hbook : ∀ sym, statusOf (runManager cfg idx call w).1 sym = some .active →
      sym ∈ desiredBook cfg idx (call.found .book) call.holdings (some screened) := by
    intro sym hsym
    unfold runManager at hsym
    have hbefore := statusOf_hygiene.1 hsym
    rw [statusOf_stampOutcomeStats] at hbefore
    exact mem_of_active_reconstitute hcount hbefore
  have hactive := length_activeRows_le hbook
  have hlength := @length_desiredBook_le _ cfg idx (call.found .book) call.holdings (some screened)
  omega

theorem active_runManager (hcount : (call.holdings.length : Int) ≤ cfg.universeWatchlistLimit)
    (hh : h ∈ call.holdings) (hname : IsName h) :
    statusOf (runManager cfg idx call w).1 (Ticker.ofText h) = some .active := by
  unfold runManager
  refine statusOf_hygiene.2.1 (mem_upper hh hname) ?_
  rw [statusOf_stampOutcomeStats]
  exact active_reconstitute hcount hh hname

theorem refresh_eq_runManager (h : (refresh cfg idx call w).2.skipped = false) :
    (refresh cfg idx call w).1 =
      (runManager cfg idx call (ensureSeeded cfg (call.found .opening) w).1).1 := by
  unfold refresh at h ⊢
  dsimp only at h ⊢
  split
  · rename_i hoff
    rw [if_pos hoff] at h
    cases h
  rename_i hon
  rw [if_neg hon] at h
  split
  · rename_i hday
    rw [if_pos hday] at h
    split at h <;> cases h
  rename_i hday
  rw [if_neg hday] at h
  split
  · rename_i hrecent
    rw [if_pos hrecent] at h
    cases h
  · rfl

theorem active_refresh (hcount : (call.holdings.length : Int) ≤ cfg.universeWatchlistLimit)
    (hrebuilt : (refresh cfg idx call w).2.reconstitute.isSome) (hh : h ∈ call.holdings)
    (hname : IsName h) : statusOf (refresh cfg idx call w).1 (Ticker.ofText h) = some .active := by
  have hkept : ∀ {w' : Watchlist}, statusOf w' (Ticker.ofText h) = some .active →
      statusOf (hygieneActiveWatchlist cfg (call.found .hygiene) call.holdings w').1
        (Ticker.ofText h) = some .active := statusOf_hygiene.2.1 (mem_upper hh hname)
  unfold refresh at hrebuilt ⊢
  dsimp only at hrebuilt ⊢
  split
  · exact active_seedTimes (active_reconstitute hcount hh hname)
  rename_i hon
  rw [if_neg hon] at hrebuilt
  split
  · rename_i hday
    rw [if_pos hday] at hrebuilt
    split
    · exact active_seedTimes (hkept (active_reconstitute hcount hh hname))
    · rename_i hdue
      rw [if_neg hdue] at hrebuilt
      cases hrebuilt
  rename_i hday
  rw [if_neg hday] at hrebuilt
  split
  · rename_i hrecent
    rw [if_pos hrecent] at hrebuilt
    cases hrebuilt
  · exact active_runManager hcount hh hname

theorem paused_refresh (hbook : assignedHorizon sym.text = none)
    (h : sym ∈ (refresh cfg idx call w).2.pausedByScreen) :
    statusOf (refresh cfg idx call w).1 sym = some .paused := by
  unfold refresh at h ⊢
  dsimp only at h ⊢
  split
  · rename_i hoff
    rw [if_pos hoff] at h
    cases h
  rename_i hon
  rw [if_neg hon] at h
  split
  · rename_i hday
    rw [if_pos hday] at h
    split
    · rename_i hdue
      rw [if_pos hdue] at h
      exact statusOf_seedTimes hbook (statusOf_hygiene.2.2 h)
    · rename_i hdue
      rw [if_neg hdue] at h
      exact statusOf_seedTimes hbook (statusOf_hygiene.2.2 h)
  rename_i hday
  rw [if_neg hday] at h
  split
  · rename_i hrecent
    rw [if_pos hrecent] at h
    exact statusOf_seedTimes hbook (statusOf_hygiene.2.2 h)
  · rename_i hrecent
    rw [if_neg hrecent] at h
    unfold runManager at h ⊢
    exact statusOf_hygiene.2.2 h

/-- **What a refresh promises.** With holdings that fit in: if it ran the manager, at most the
    limit is active; if it rebuilt the book, every holding is active; and a name its screen
    paused, if it has no standing book, stays out of the entry universe through any reads, in
    dynamic mode and as long as some name is active. -/
theorem refresh_keeps_book (cfg : UniverseSettings) (idx : IndexSnapshots) (call : RefreshCall)
    (w : Watchlist) (hlimit : 1 ≤ cfg.universeWatchlistLimit)
    (hcount : (call.holdings.length : Int) ≤ cfg.universeWatchlistLimit)
    (hnames : ∀ h ∈ call.holdings, IsName h) :
    ((refresh cfg idx call w).2.skipped = false →
        ((activeRows (refresh cfg idx call w).1).length : Int) ≤ cfg.universeWatchlistLimit) ∧
      ((refresh cfg idx call w).2.reconstitute.isSome →
        ∀ h ∈ call.holdings,
          statusOf (refresh cfg idx call w).1 (Ticker.ofText h) = some .active) ∧
      ∀ sym ∈ (refresh cfg idx call w).2.pausedByScreen, assignedHorizon sym.text = none →
        isDynamic cfg →
          ∀ (reads : List (ReadOp × (ℕ → Moment))) (m : Moment) (venue : Option String)
            (names : List String),
            (∃ r ∈ (ensureSeeded cfg m (runReads cfg reads (refresh cfg idx call w).1)).1.rows,
              r.status = .active) →
            (entryUniverse cfg idx m venue
              (runReads cfg reads (refresh cfg idx call w).1)).2 = .ok names →
            sym.text ∉ names := by
  refine ⟨fun hran => ?_, fun hrebuilt h hh => active_refresh hcount hrebuilt hh (hnames h hh), ?_⟩
  · rw [refresh_eq_runManager hran]
    exact length_active_runManager hlimit hcount
  · intro sym hsym hbook hdynamic reads m venue names hsome hread
    refine not_mem_entryUniverse hdynamic hsome ?_ hread
    have hpaused : statusOf (runReads cfg reads (refresh cfg idx call w).1) sym = some .paused :=
      statusOf_runReads hbook (paused_refresh hbook hsym)
    rw [statusOf_ensureSeeded hbook hpaused]
    exact fun h => by cases h

end Runs

section Sample

attribute [local instance] asciiStripCasing

/-! ## One refresh -/

/-- `allow` is the allowlist, and the pool adds two names. -/
def sampleUniverse (allow : List String) (mode : String) (limit : Int) : UniverseSettings :=
  { mockSettings with
    tradeAllowlist := allow, universeMode := mode, enabledVenues := ["US"],
    universeWatchlistLimit := limit, universeManagerEnabled := true,
    universeRefreshMinIntervalDays := 7, universeRefreshWeekendOnly := true,
    universeCandidatePool := ["MSFT", "JPM"], universeAllowCandidateAdds := true,
    universeScreenerEnabled := true, universeScreenerMinAvgVolume := 1000000,
    universeScreenerMaxSpreadBps := 40, universeScreenerMinPrice := 5,
    universeScreenerFetchLive := false, universeScreenerPauseIlliquid := true }

def sampleSnapshots : IndexSnapshots := { sp500Rows := [], asx50Symbols := [] }

/-- Only the spread of `wide` fails the screen. -/
def sampleMoment (wide : String) : Moment :=
  { now := 0, isoWeek := 0, positions := [],
    quotes :=
      { snapshots := fun s => some
          { last := some 100, avgVolume20d := some 5000000,
            spreadBps := some (if s = wide then 500 else 5) }
        provider := none } }

def sampleProposals : List WatchlistProposal :=
  [{ symbol := "MSFT", horizon := .short, action := "remove", priority := 50, thesis := "",
     invalidation := "", rationale := "" },
    { symbol := "tsla", horizon := .scalp, action := "ADD", priority := 90, thesis := "",
      invalidation := "", rationale := "" }]

def sampleRefresh (holdings : List String) (wide : String) (force : Bool)
    (proposals : List WatchlistProposal) : RefreshCall :=
  { holdings := holdings, themes := [], marketRegime := none, force := force, weekend := true,
    liveTape := false, lastLlmAt := some 0, hasTape := true,
    reply := { proposals := proposals, notes := [], focusRationale := "" },
    outcomes := { bySymbol := [], periodEnd := .null, lookbackDays := .num 90 },
    found := fun _ => sampleMoment wide }

/-- AMD fails the screen: three names are watched, MSFT is held, and after a snapshot AMD is not
    in the entry universe. -/
theorem refresh_keeps_book_amd :
    let cfg := sampleUniverse ["AAPL", "AMD"] "dynamic" 3
    let w := (refresh cfg sampleSnapshots
      (sampleRefresh ["MSFT"] "AMD" true sampleProposals) KeyedTable.empty).1
    ((activeRows w).length : Int) ≤ 3 ∧ statusOf w (Ticker.ofText "MSFT") = some .active ∧
      ∀ names, (entryUniverse cfg sampleSnapshots (sampleMoment "AMD") none
        (runReads cfg [(.snapshot, fun _ => sampleMoment "AMD")] w)).2 = .ok names →
          "AMD" ∉ names := by
  obtain ⟨hlength, hheld, hpaused⟩ := refresh_keeps_book
    (sampleUniverse ["AAPL", "AMD"] "dynamic" 3) sampleSnapshots
    (sampleRefresh ["MSFT"] "AMD" true sampleProposals) KeyedTable.empty (by decide +kernel)
    (by decide +kernel) (by decide +kernel)
  refine ⟨hlength (by decide +kernel), hheld (by decide +kernel) "MSFT" List.mem_cons_self, ?_⟩
  intro names hread
  exact hpaused (Ticker.ofText "AMD") (by decide +kernel) (by decide +kernel) (by decide +kernel)
    [(.snapshot, fun _ => sampleMoment "AMD")] (sampleMoment "AMD") none names
    (by decide +kernel) hread

def firstRead (cfg : UniverseSettings) (call : RefreshCall) (wide : String) :
    Option (List String) :=
  (entryUniverse cfg sampleSnapshots (sampleMoment wide) none
    (refresh cfg sampleSnapshots call KeyedTable.empty).1).2.toOption

/-- **The promise fails without its conditions.** NVDA is of the standing roster, and comes back
    at the first read after the screen paused it; with no name active, and in static mode, the
    allowlist is the entry universe; a refresh that skips the manager leaves two names active
    under a limit of one, and the holding unwatched; under a limit of zero one name is active;
    and a holding written with white space is paused. -/
theorem paused_name_returns :
    (let cfg := sampleUniverse ["AAPL", "NVDA"] "dynamic" 3;
      let call := sampleRefresh [] "NVDA" true sampleProposals;
      Ticker.ofText "NVDA" ∈
          (refresh cfg sampleSnapshots call KeyedTable.empty).2.pausedByScreen ∧
        firstRead cfg call "NVDA" = some ["AAPL", "NVDA", "JPM"]) ∧
    (let cfg := sampleUniverse ["AAPL"] "dynamic" 1;
      let call := sampleRefresh [] "AAPL" true [];
      Ticker.ofText "AAPL" ∈
          (refresh cfg sampleSnapshots call KeyedTable.empty).2.pausedByScreen ∧
        firstRead cfg call "AAPL" = some ["AAPL"]) ∧
    (let cfg := sampleUniverse ["AAPL", "AMD"] "static" 3;
      let call := sampleRefresh [] "AAPL" true sampleProposals;
      Ticker.ofText "AAPL" ∈
          (refresh cfg sampleSnapshots call KeyedTable.empty).2.pausedByScreen ∧
        firstRead cfg call "AAPL" = some ["AAPL", "AMD"]) ∧
    (let after := (refresh (sampleUniverse ["AAPL", "NVDA"] "dynamic" 1) sampleSnapshots
        (sampleRefresh ["MSFT"] "" false sampleProposals) KeyedTable.empty).1;
      (activeRows after).length = 2 ∧ statusOf after (Ticker.ofText "MSFT") = none) ∧
    (activeRows (refresh (sampleUniverse ["AAPL"] "dynamic" 0) sampleSnapshots
        (sampleRefresh [] "" true sampleProposals) KeyedTable.empty).1).length = 1 ∧
    statusOf (refresh (sampleUniverse ["AAPL"] "dynamic" 3) sampleSnapshots
        (sampleRefresh [" AAPL"] "AAPL" true sampleProposals) KeyedTable.empty).1
        (Ticker.ofText "AAPL") = some .paused := by
  decide +kernel

end Sample

end Investor.Universe
