import Investor.Agents.ReplyModels

/-!
# Where the sanitizer raises

Value by value: what `float()` cannot take, which importance cannot be rounded, and which edits of
an object return. A value that has come out of the walk is `Walked`, and on such a value the
repairs that are made a second time return.
-/

namespace Investor.Agents.Reply

open Lib Schema Market Universe

section Returning

/-! ## Single values -/

variable {v : PyJson}

theorem returns_floatOr {α : Type} {missing : α} {use : PyFloat → Except PyRaise α} :
    Returns (v.floatOr missing use) ↔
      v.isHuge = false ∧ ∀ x, v.toFloat = .ok x → Returns (use x) := by
  unfold PyJson.floatOr
  cases v with
  | int n =>
    unfold PyJson.toFloat PyJson.isHuge
    by_cases hhuge : floatLimit ≤ n.natAbs
    · simp [hhuge]
    · simp [hhuge]
  | str s => cases hparse : parsePyFloat s <;> simp [PyJson.toFloat, PyJson.isHuge, hparse]
  | _ => simp [PyJson.toFloat, PyJson.isHuge]

theorem returns_toFloat (hnumber : v.isNumber = true) : Returns v.toFloat ↔ v.isHuge = false := by
  cases v with
  | int n =>
    unfold PyJson.toFloat PyJson.isHuge
    by_cases hhuge : floatLimit ≤ n.natAbs <;> simp [hhuge]
  | bool b => simp [PyJson.toFloat, PyJson.isHuge]
  | float x => simp [PyJson.toFloat, PyJson.isHuge]
  | _ => cases hnumber

@[simp] theorem returns_clampUnit {percentOk : Bool} :
    Returns (clampUnit v percentOk) ↔ v.isHuge = false := by
  unfold clampUnit
  simp [returns_floatOr]

@[simp] theorem returns_clampCash : Returns (clampCash v) ↔ v.isHuge = false := by
  unfold clampCash
  simp [returns_floatOr]

/-- A zone in which a bound is too large for a float, and is converted. -/
def zoneOverflows : PyJson → Bool
  | .arr (lo :: hi :: _) => lo.isHuge || (lo.toFloat.isOk && hi.isHuge)
  | v => v.isHuge

@[simp] theorem returns_normalizePriceZone :
    Returns (normalizePriceZone v) ↔ zoneOverflows v = false := by
  cases v with
  | arr items =>
    match items with
    | [] => simp [normalizePriceZone, zoneOverflows, PyJson.isHuge]
    | [lo] => simp [normalizePriceZone, zoneOverflows, PyJson.isHuge]
    | lo :: hi :: rest =>
      have hzone : zoneOverflows (.arr (lo :: hi :: rest)) =
          (lo.isHuge || (lo.toFloat.isOk && hi.isHuge)) := rfl
      unfold normalizePriceZone
      rw [returns_floatOr, hzone]
      cases hlo : lo.toFloat with
      | error e => simp [Except.isOk, Except.toBool]
      | ok x => simp [Except.isOk, Except.toBool, returns_floatOr]
  | null => simp [normalizePriceZone, zoneOverflows, PyJson.isHuge]
  | str s => simp [normalizePriceZone, zoneOverflows, PyJson.isHuge]
  | obj entries => simp [normalizePriceZone, zoneOverflows, PyJson.isHuge]
  | _ =>
    simp only [normalizePriceZone, zoneOverflows, bind_pure_comp, returns_map]
    exact returns_toFloat rfl

/-- A scenario that can be normalized: no number too large for a float stands for the whole or for its
    probability. -/
def ScenarioFits (v : PyJson) : Prop :=
  v.isHuge = false ∧ ∀ entries, v = .obj entries → (Dict.read entries "probability").isHuge = false

theorem sameBut_scenarioWords (entries : Dict PyJson) :
    Dict.SameBut ["target", "target_price", "name", "description"] entries
      (scenarioWords entries) := by
  have htarget : Dict.SameBut ["target", "target_price"] entries
      (if Dict.contains entries "target" ∧ ¬ Dict.contains entries "target_price" then
        Dict.set (Dict.erase entries "target") "target_price" (Dict.read entries "target")
      else entries) := by
    split
    · exact (Dict.sameBut_erase _ _).trans (Dict.sameBut_set _ _ _)
    · exact Dict.SameBut.refl
  exact (htarget.trans (Dict.sameBut_ensure _ _ _)).trans (Dict.sameBut_ensure _ _ _)

@[simp] theorem returns_normalizeScenario : Returns (normalizeScenario v) ↔ ScenarioFits v := by
  unfold ScenarioFits
  cases v with
  | null => simp [normalizeScenario, PyJson.isHuge]
  | str s => simp [normalizeScenario, PyJson.isHuge]
  | arr items => simp [normalizeScenario, PyJson.isHuge]
  | obj entries =>
    have hread : Dict.get? (scenarioWords entries) "probability" = Dict.get? entries "probability" :=
      sameBut_scenarioWords entries "probability" (by decide)
    simp only [normalizeScenario, scenarioProbability, bind_pure_comp, returns_map, hread]
    cases hp : Dict.get? entries "probability" with
    | none => simp [Dict.read, hp]
    | some p => simp [Dict.read, hp]
  | _ =>
    simp only [normalizeScenario, bind_pure_comp, returns_map]
    rw [returns_toFloat rfl]
    simp

/-- An importance that cannot be rounded: no number, or an integer too large for a float. -/
def badImportance (v : PyJson) : Bool := v.isHuge || decide (v.toFloat = .ok .nan)

@[simp] theorem returns_clampImportance :
    Returns (clampImportance v) ↔ badImportance v = false := by
  unfold clampImportance badImportance
  rw [returns_floatOr]
  cases hfloat : v.toFloat with
  | error e => simp
  | ok x =>
    cases x with
    | fin q =>
      simp
      intro _
      split_ifs <;> simp
    | _ => simp

/-- The keys that `_normalize_market_event` may touch. -/
def EVENT_KEYS : List String :=
  ["headline", "interpretation", "interpretations", "facts", "themes", "conflicts",
    "missing_information", "data_quality_score", "as_of", "title", "summary", "text", "importance",
    "uncertainties", "source", "symbols", "category", "sentiment", "published_at"]

section

variable [Casing] {t : Runtime}

theorem sameBut_otherHeadline (ev : Dict PyJson) :
    Dict.SameBut ["headline"] ev (otherHeadline t ev) := by
  unfold otherHeadline
  split
  · exact Dict.sameBut_set _ _ _
  · exact Dict.SameBut.refl

theorem sameBut_firstInterpretation (ev : Dict PyJson) :
    Dict.SameBut ["interpretations", "interpretation"] ev (firstInterpretation t ev) := by
  have herase := Dict.sameBut_erase ev "interpretations"
  unfold firstInterpretation
  split
  · exact Dict.SameBut.refl
  · dsimp only
    split
    · exact herase.mono (by decide)
    · split
      · exact herase.trans (Dict.sameBut_set _ _ _)
      · exact herase.trans (Dict.sameBut_set _ _ _)

theorem sameBut_lastHeadline (ev : Dict PyJson) :
    Dict.SameBut ["headline"] ev (lastHeadline t ev) := by
  unfold lastHeadline
  split
  · split
    · dsimp only
      split
      · exact ((Dict.sameBut_set _ _ _).trans (Dict.sameBut_set _ _ _)).mono (by decide)
      · exact Dict.sameBut_set _ _ _
    · exact Dict.sameBut_set _ _ _
  · exact Dict.SameBut.refl

theorem sameBut_eventTexts (ev : Dict PyJson) :
    Dict.SameBut ["headline", "interpretations", "interpretation", "facts", "themes", "conflicts",
      "missing_information", "data_quality_score", "as_of", "title", "summary", "text"] ev
      (eventTexts t ev) :=
  ((((sameBut_otherHeadline ev).trans (sameBut_firstInterpretation _)).trans
    (Dict.sameBut_set _ _ _)).trans (sameBut_lastHeadline _)).trans (Dict.sameBut_without _ _)
    |>.mono (by decide)

theorem sameBut_eventLists (ev : Dict PyJson) :
    Dict.SameBut ["uncertainties", "source", "symbols"] ev (eventLists t ev) := by
  unfold eventLists
  extract_lets ev₁ ev₂
  have huncertainties : Dict.SameBut ["uncertainties"] ev ev₁ := by
    dsimp only [ev₁]
    split
    · exact Dict.SameBut.refl
    · exact Dict.SameBut.refl
    · exact Dict.SameBut.refl
    · exact Dict.SameBut.refl
    · exact Dict.sameBut_set _ _ _
  have hsource : Dict.SameBut (["uncertainties"] ++ ["source"]) ev ev₂ :=
    huncertainties.trans (Dict.sameBut_ensure _ "source" _)
  split
  · exact hsource.trans (Dict.sameBut_set _ _ _)
  · exact hsource.trans (Dict.sameBut_set _ _ _)
  · exact hsource.mono (by decide)

theorem sameBut_eventDefaults (ev : Dict PyJson) :
    Dict.SameBut ["uncertainties", "source", "symbols", "facts", "category", "sentiment",
      "published_at"] ev (eventDefaults t ev) :=
  (((((((sameBut_eventLists ev).trans (Dict.sameBut_ensure _ _ _)).trans
    (Dict.sameBut_ensure _ _ _)).trans (Dict.sameBut_ensure _ _ _)).trans
    (Dict.sameBut_ensure _ _ _)).trans (Dict.sameBut_ensure _ _ _)).trans
    (Dict.sameBut_ensure _ _ _)).mono (by decide)

theorem sameBut_normalizeMarketEvent {ev ev' : Dict PyJson}
    (h : normalizeMarketEvent t ev = .ok ev') : Dict.SameBut EVENT_KEYS ev ev' := by
  unfold normalizeMarketEvent at h
  obtain ⟨importance, _, hev⟩ := bind_ok_iff.mp h
  rw [← pure_ok_iff.mp hev]
  exact (((sameBut_eventTexts ev).trans (Dict.sameBut_set _ _ _)).trans
    (sameBut_eventDefaults _)).mono (by decide)

@[simp] theorem returns_normalizeMarketEvent {ev : Dict PyJson} :
    Returns (normalizeMarketEvent t ev) ↔ badImportance (Dict.read ev "importance") = false := by
  have hread : Dict.get? (eventTexts t ev) "importance" = Dict.get? ev "importance" :=
    sameBut_eventTexts ev "importance" (by decide)
  simp only [normalizeMarketEvent, eventImportance, bind_pure_comp, returns_map, hread]
  unfold Dict.read
  cases hp : Dict.get? ev "importance" with
  | none => simp [badImportance, PyJson.toFloat]
  | some v => simp

end

theorem fillPlans_null : fillPlans .null = .ok .null := rfl

theorem clampCash_null : clampCash .null = .ok .null := rfl

theorem normalizePriceZone_null : normalizePriceZone .null = .ok .null := rfl

theorem normalizeScenario_null : normalizeScenario .null = .ok .null := rfl

/-! ## Values that were walked -/

/-- What every value that comes out of the walk has: the second repair of an object returns. -/
structure ObjectWalked (entries : Dict PyJson) : Prop where
  probability : (Dict.read entries "probability").isHuge = false
  zone : zoneOverflows (Dict.read entries "entry_zone") = false
  upside : ScenarioFits (Dict.read entries "upside_scenario")
  downside : ScenarioFits (Dict.read entries "downside_scenario")
  unsplit : Dict.contains entries "scenarios" = false

def Walked (v : PyJson) : Prop := ∀ entries, v = .obj entries → ObjectWalked entries

theorem Walked.scenarioFits (h : Walked v) (hhuge : v.isHuge = false) : ScenarioFits v :=
  ⟨hhuge, fun entries hv => (h entries hv).probability⟩

variable {w : PyJson}

theorem clampUnit_fits {percentOk : Bool} (h : clampUnit v percentOk = .ok w) :
    w.isHuge = false := by
  unfold clampUnit PyJson.floatOr at h
  have hhuge : Returns (clampUnit v percentOk) := returns_iff.mpr ⟨w, h⟩
  rw [returns_clampUnit] at hhuge
  split at h
  · cases h
    rfl
  · cases h
  · cases h
    exact hhuge

theorem scenarioFits_normalized (h : normalizeScenario v = .ok w) : ScenarioFits w := by
  cases v with
  | obj entries =>
    obtain ⟨p, hp, hw⟩ := bind_ok_iff.mp h
    rw [← pure_ok_iff.mp hw]
    refine ⟨rfl, fun entries' hentries => ?_⟩
    rw [← PyJson.obj.inj hentries]
    unfold Dict.read
    rw [Dict.get?_filter_mem _ _ (by decide), Dict.get?_set_self, Option.getD_some]
    unfold scenarioProbability at hp
    split at hp
    · exact clampUnit_fits hp
    · cases hp
      rfl
  | null =>
    cases h
    exact ⟨rfl, fun entries hentries => nomatch hentries⟩
  | str s =>
    cases h
    exact ⟨rfl, fun entries hentries => PyJson.obj.inj hentries ▸ rfl⟩
  | arr items =>
    cases h
    exact ⟨rfl, fun entries hentries => nomatch hentries⟩
  | _ =>
    obtain ⟨price, _, hw⟩ := bind_ok_iff.mp h
    rw [← pure_ok_iff.mp hw]
    exact ⟨rfl, fun entries hentries => PyJson.obj.inj hentries ▸ rfl⟩

theorem zone_normalized (h : normalizePriceZone v = .ok w) : zoneOverflows w = false := by
  have hreturns : zoneOverflows v = false := returns_normalizePriceZone.mp (returns_iff.mpr ⟨w, h⟩)
  unfold normalizePriceZone at h
  split at h
  · rename_i lo hi rest
    unfold PyJson.floatOr at h
    split at h
    · split at h
      · cases h
        rfl
      · cases h
      · cases h
        rfl
    · cases h
    · cases h
      rfl
  · cases h
    exact hreturns
  · cases h
    rfl
  · cases h
    rfl
  · cases h
    rfl
  · obtain ⟨px, _, hw⟩ := bind_ok_iff.mp h
    rw [← pure_ok_iff.mp hw]
    rfl

theorem sameBut_planDefaults (plan : Dict PyJson) :
    Dict.SameBut ["confidence", "target_position_pct", "thesis", "invalidation", "order_type",
      "time_horizon", "take_profit"] plan (planDefaults plan) := 
  (((((((Dict.sameBut_ensure plan _ _).trans (Dict.sameBut_ensure _ _ _)).trans
    (Dict.sameBut_ensure _ _ _)).trans (Dict.sameBut_ensure _ _ _)).trans
    (Dict.sameBut_ensure _ _ _)).trans (Dict.sameBut_ensure _ _ _)).trans
    (Dict.sameBut_ensure _ _ _))

theorem returns_fillSymbolActionDefaults {plan : Dict PyJson} (h : ObjectWalked plan) :
    Returns (fillSymbolActionDefaults plan) := by
  unfold fillSymbolActionDefaults
  rw [bind_pure_comp, returns_map, Dict.returns_adjustM normalizePriceZone_null,
    returns_normalizePriceZone, (sameBut_planDefaults plan).read (by decide)]
  exact h.zone

theorem returns_fillPlans (h : ∀ items, v = .arr items → ∀ item ∈ items, Walked item) :
    Returns (fillPlans v) := by
  cases v with
  | arr items =>
    unfold fillPlans
    dsimp only
    rw [bind_pure_comp, returns_map, returns_mapM]
    intro item hitem
    cases item with
    | obj plan =>
      dsimp only
      rw [bind_pure_comp, returns_map]
      exact returns_fillSymbolActionDefaults (h items rfl _ hitem plan rfl)
    | _ => simp
  | _ => simp [fillPlans]

/-! ## Splitting scenarios -/

/-- Where a split stands: the scenarios found fit, only their keys were edited, and none was taken
    away. -/
structure SplitOf (view : Dict PyJson) (s : ScenarioSplit) : Prop where
  same : Dict.SameBut ["scenarios", "upside_scenario", "downside_scenario"] view s.view
  unsplit : Dict.contains s.view "scenarios" = false
  upside : ScenarioFits (Dict.read s.view "upside_scenario")
  downside : ScenarioFits (Dict.read s.view "downside_scenario")
  upOpen : (Dict.read s.view "upside_scenario").isNull = true →
    (Dict.read view "upside_scenario").isNull = true
  downOpen : (Dict.read s.view "downside_scenario").isNull = true →
    (Dict.read view "downside_scenario").isNull = true
  values : Dict.NewAre ScenarioFits view s.view

variable {view : Dict PyJson} {s s' : ScenarioSplit} {scen : PyJson}

theorem SplitOf.up (h : SplitOf view s) (hscen : ScenarioFits scen) (hthere : scen.isNull = false) :
    SplitOf view (s.up scen) := by
  have hset := Dict.sameBut_set s.view "upside_scenario" scen
  have hup : Dict.read (s.up scen).view "upside_scenario" = scen := by
    unfold ScenarioSplit.up Dict.read
    rw [Dict.get?_set_self]
    rfl
  have hdown : Dict.read (s.up scen).view "downside_scenario" = Dict.read s.view "downside_scenario" :=
    hset.read (by decide)
  refine
    { same := (h.same.trans hset).mono (by decide)
      unsplit := (hset.contains (by decide)).trans h.unsplit
      upside := hup.symm ▸ hscen
      downside := hdown ▸ h.downside
      upOpen := fun hnull => ?_
      downOpen := hdown ▸ h.downOpen
      values := h.values.trans (Dict.newAre_set hscen) }
  rw [hup, hthere] at hnull
  cases hnull

theorem SplitOf.down (h : SplitOf view s) (hscen : ScenarioFits scen) (hthere : scen.isNull = false) :
    SplitOf view (s.down scen) := by
  have hset := Dict.sameBut_set s.view "downside_scenario" scen
  have hdown : Dict.read (s.down scen).view "downside_scenario" = scen := by
    unfold ScenarioSplit.down Dict.read
    rw [Dict.get?_set_self]
    rfl
  have hup : Dict.read (s.down scen).view "upside_scenario" = Dict.read s.view "upside_scenario" :=
    hset.read (by decide)
  refine
    { same := (h.same.trans hset).mono (by decide)
      unsplit := (hset.contains (by decide)).trans h.unsplit
      upside := hup ▸ h.upside
      downside := hdown.symm ▸ hscen
      upOpen := hup ▸ h.upOpen
      downOpen := fun hnull => ?_
      values := h.values.trans (Dict.newAre_set hscen) }
  rw [hdown, hthere] at hnull
  cases hnull

theorem sort_cases [Casing] {t : Runtime} (s : ScenarioSplit) (scen : Dict PyJson) :
    s.sort t scen = s ∨ s.sort t scen = s.up (.obj scen) ∨ s.sort t scen = s.down (.obj scen) := by
  unfold ScenarioSplit.sort
  dsimp only
  split_ifs <;> simp

theorem returns_place [Casing] {t : Runtime} (s : ScenarioSplit) (item : PyJson) :
    Returns (s.place t item) ↔ ScenarioFits item := by
  unfold ScenarioSplit.place
  rw [returns_bind, returns_normalizeScenario]
  refine and_iff_left fun w _ => ?_
  cases w <;> simp

theorem SplitOf.place [Casing] {t : Runtime} (h : SplitOf view s) {item : PyJson} (hs' : s.place t item = .ok s') :
    SplitOf view s' := by
  obtain ⟨w, hw, hplaced⟩ := bind_ok_iff.mp hs'
  have hfits := scenarioFits_normalized hw
  cases w with
  | obj scen =>
    rw [← pure_ok_iff.mp hplaced]
    rcases sort_cases (t := t) s scen with heq | heq | heq
    · rw [heq]
      exact h
    · rw [heq]
      exact h.up hfits rfl
    · rw [heq]
      exact h.down hfits rfl
  | _ =>
    rw [← pure_ok_iff.mp hplaced]
    exact h

theorem isNull_normalizeScenario (h : normalizeScenario v = .ok w) : w.isNull = v.isNull := by
  cases v with
  | null =>
    cases h
    rfl
  | arr items =>
    cases h
    rfl
  | str s =>
    cases h
    rfl
  | _ =>
    obtain ⟨p, _, hw⟩ := bind_ok_iff.mp h
    rw [← pure_ok_iff.mp hw]
    rfl

theorem isNull_of_firstOf {entries : Dict PyJson} {keys : List String} {found : PyJson}
    (h : Dict.firstOf entries keys (fun v => !v.isNull) = some found) : found.isNull = false := by
  simpa using List.find?_some h

theorem SplitOf.fillUp (h : SplitOf view s) {entries : Dict PyJson}
    (hs' : s.fillUp entries = .ok s') : SplitOf view s' := by
  unfold ScenarioSplit.fillUp at hs'
  split at hs'
  · rename_i hfound
    obtain ⟨w, hw, rfl⟩ := map_ok_iff.mp hs'
    exact h.up (scenarioFits_normalized hw)
      ((isNull_normalizeScenario hw).trans (isNull_of_firstOf hfound))
  · cases hs'
    exact h

theorem SplitOf.fillDown (h : SplitOf view s) {entries : Dict PyJson}
    (hs' : s.fillDown entries = .ok s') : SplitOf view s' := by
  unfold ScenarioSplit.fillDown at hs'
  split at hs'
  · rename_i hfound
    obtain ⟨w, hw, rfl⟩ := map_ok_iff.mp hs'
    exact h.down (scenarioFits_normalized hw)
      ((isNull_normalizeScenario hw).trans (isNull_of_firstOf hfound))
  · cases hs'
    exact h

def splitStart (view : Dict PyJson) : ScenarioSplit :=
  { view := Dict.erase view "scenarios"
    upside := Dict.read (Dict.erase view "scenarios") "upside_scenario"
    downside := Dict.read (Dict.erase view "scenarios") "downside_scenario" }

theorem splitOf_start (hup : ScenarioFits (Dict.read view "upside_scenario"))
    (hdown : ScenarioFits (Dict.read view "downside_scenario")) :
    SplitOf view (splitStart view) := by
  have herase := Dict.sameBut_erase view "scenarios"
  have hup' := herase.read (k := "upside_scenario") (by decide)
  have hdown' := herase.read (k := "downside_scenario") (by decide)
  refine
    { same := herase.mono (by decide)
      unsplit := ?_
      upside := hup'.symm ▸ hup
      downside := hdown'.symm ▸ hdown
      upOpen := fun hnull => hup' ▸ hnull
      downOpen := fun hnull => hdown' ▸ hnull
      values := Dict.newAre_erase }
  unfold splitStart
  rw [Bool.eq_false_iff, Ne, Dict.contains_iff, Dict.get?_erase_self]
  simp

theorem splitOf_splitScenariosList [Casing] {t : Runtime} {view' : Dict PyJson}
    (hup : ScenarioFits (Dict.read view "upside_scenario"))
    (hdown : ScenarioFits (Dict.read view "downside_scenario"))
    (h : splitScenariosList t view = .ok view') : ∃ s, SplitOf view s ∧ s.view = view' := by
  have hstart := splitOf_start hup hdown
  have hplaces : ∀ {items : List PyJson} {s s' : ScenarioSplit}, SplitOf view s →
      items.foldlM (ScenarioSplit.place t) s = .ok s' → SplitOf view s' := by
    intro items s s' hs hfold
    exact foldlM_holds (fun _ _ _ hplace hb => SplitOf.place hb hplace) hfold hs
  unfold splitScenariosList at h
  dsimp only at h
  split at h
  · exact ⟨_, hstart, pure_ok_iff.mp h⟩
  · obtain ⟨s₁, hs₁, h⟩ := bind_ok_iff.mp h
    obtain ⟨s₂, hs₂, h⟩ := bind_ok_iff.mp h
    have hs := (hstart.fillUp hs₁).fillDown hs₂
    split at h
    · exact ⟨_, hs, pure_ok_iff.mp h⟩
    · obtain ⟨s₃, hs₃, h⟩ := bind_ok_iff.mp h
      exact ⟨_, hplaces hs hs₃, pure_ok_iff.mp h⟩
  · obtain ⟨s₁, hs₁, h⟩ := bind_ok_iff.mp h
    exact ⟨_, hplaces hstart hs₁, pure_ok_iff.mp h⟩
  · obtain ⟨s₁, hs₁, h⟩ := bind_ok_iff.mp h
    exact ⟨_, hstart.place hs₁, pure_ok_iff.mp h⟩

/-- One of the two is open, and an object of scenarios has nothing for it under its own keys. -/
def StaysOpen (upOpen downOpen : Bool) (entries : Dict PyJson) : Prop :=
  (upOpen = true ∧ Dict.firstOf entries UPSIDE_KEYS (fun v => !v.isNull) = none) ∨
    (downOpen = true ∧ Dict.firstOf entries DOWNSIDE_KEYS (fun v => !v.isNull) = none)

/-- What a split reads of an object of scenarios: the upside and the downside, if these are open, and
    everything else, if one of them stays open. -/
structure EntriesAre (P : PyJson → Prop) (upOpen downOpen : Bool) (entries : Dict PyJson) : Prop where
  up : upOpen = true → ∀ found,
    Dict.firstOf entries UPSIDE_KEYS (fun v => !v.isNull) = some found → P found
  down : downOpen = true → ∀ found,
    Dict.firstOf entries DOWNSIDE_KEYS (fun v => !v.isNull) = some found → P found
  rest : StaysOpen upOpen downOpen entries →
    ∀ e ∈ entries, e.1 ∉ UPSIDE_KEYS ++ DOWNSIDE_KEYS → P e.2

/-- What stands under `scenarios` can be normalized, each scenario that the split reads. -/
def ScenariosFit (upOpen downOpen : Bool) : PyJson → Prop
  | .obj entries => EntriesAre ScenarioFits upOpen downOpen entries
  | .arr items => ∀ item ∈ items, ScenarioFits item
  | v => ScenarioFits v

section Filling

variable {entries : Dict PyJson}

theorem returns_fillUp : Returns (s.fillUp entries) ↔ (s.upside.isNull = true → ∀ found,
    Dict.firstOf entries UPSIDE_KEYS (fun v => !v.isNull) = some found → ScenarioFits found) := by
  unfold ScenarioSplit.fillUp
  cases s.upside.isNull with
  | false => simp
  | true => cases Dict.firstOf entries UPSIDE_KEYS (fun v => !v.isNull) <;> simp

theorem returns_fillDown : Returns (s.fillDown entries) ↔ (s.downside.isNull = true → ∀ found,
    Dict.firstOf entries DOWNSIDE_KEYS (fun v => !v.isNull) = some found → ScenarioFits found) := by
  unfold ScenarioSplit.fillDown
  cases s.downside.isNull with
  | false => simp
  | true => cases Dict.firstOf entries DOWNSIDE_KEYS (fun v => !v.isNull) <;> simp

theorem open_fillUp (h : s.fillUp entries = .ok s') :
    s'.downside = s.downside ∧ (s'.upside.isNull = true ↔
      s.upside.isNull = true ∧ Dict.firstOf entries UPSIDE_KEYS (fun v => !v.isNull) = none) := by
  unfold ScenarioSplit.fillUp at h
  cases hup : s.upside.isNull with
  | false =>
    rw [hup] at h
    cases h
    simp [hup]
  | true =>
    cases hfound : Dict.firstOf entries UPSIDE_KEYS (fun v => !v.isNull) with
    | none =>
      rw [hup, hfound] at h
      cases h
      simp [hup]
    | some found =>
      rw [hup, hfound] at h
      obtain ⟨w, hw, rfl⟩ := map_ok_iff.mp h
      have hnull : w.isNull = false := (isNull_normalizeScenario hw).trans (isNull_of_firstOf hfound)
      simp [ScenarioSplit.up, hnull]

theorem open_fillDown (h : s.fillDown entries = .ok s') :
    s'.upside = s.upside ∧ (s'.downside.isNull = true ↔
      s.downside.isNull = true ∧
        Dict.firstOf entries DOWNSIDE_KEYS (fun v => !v.isNull) = none) := by
  unfold ScenarioSplit.fillDown at h
  cases hdown : s.downside.isNull with
  | false =>
    rw [hdown] at h
    cases h
    simp [hdown]
  | true =>
    cases hfound : Dict.firstOf entries DOWNSIDE_KEYS (fun v => !v.isNull) with
    | none =>
      rw [hdown, hfound] at h
      cases h
      simp [hdown]
    | some found =>
      rw [hdown, hfound] at h
      obtain ⟨w, hw, rfl⟩ := map_ok_iff.mp h
      have hnull : w.isNull = false := (isNull_normalizeScenario hw).trans (isNull_of_firstOf hfound)
      simp [ScenarioSplit.down, hnull]

end Filling

theorem returns_splitScenariosList [Casing] {t : Runtime} :
    Returns (splitScenariosList t view) ↔
      ScenariosFit (Dict.read view "upside_scenario").isNull
        (Dict.read view "downside_scenario").isNull (Dict.read view "scenarios") := by
  have herase := Dict.sameBut_erase view "scenarios"
  unfold splitScenariosList
  dsimp only
  rw [herase.read (by decide), herase.read (by decide)]
  cases Dict.read view "scenarios" with
  | null => simp [ScenariosFit, ScenarioFits]
  | arr items => simp [ScenariosFit, returns_foldlM returns_place]
  | obj entries =>
    simp only [returns_bind]
    rw [returns_fillUp]
    constructor
    · rintro ⟨hup, hrest⟩
      obtain ⟨s₁, hs₁⟩ := returns_iff.mp (returns_fillUp.mpr hup)
      obtain ⟨hdown, hrest⟩ := hrest s₁ hs₁
      obtain ⟨s₂, hs₂⟩ := returns_iff.mp hdown
      obtain ⟨hkept₁, hopen₁⟩ := open_fillUp hs₁
      obtain ⟨hkept₂, hopen₂⟩ := open_fillDown hs₂
      rw [hkept₁] at hopen₂
      rw [returns_fillDown, hkept₁] at hdown
      refine ⟨hup, hdown, fun hopen e he hkey => ?_⟩
      have hclosed : ¬ (!s₂.upside.isNull && !s₂.downside.isNull) = true := by
        unfold StaysOpen at hopen
        rw [← hopen₁, ← hopen₂, ← hkept₂] at hopen
        rcases hopen with hnull | hnull <;> simp [hnull]
      have hplaces := hrest s₂ hs₂
      rw [if_neg hclosed, bind_pure_comp, returns_map, returns_foldlM returns_place] at hplaces
      exact hplaces _ (List.mem_map.mpr ⟨e, List.mem_filter.mpr ⟨he, by simpa using hkey⟩, rfl⟩)
    · rintro ⟨hup, hdown, hrest⟩
      refine ⟨hup, fun s₁ hs₁ => ?_⟩
      obtain ⟨hkept₁, hopen₁⟩ := open_fillUp hs₁
      rw [returns_fillDown, hkept₁]
      refine ⟨hdown, fun s₂ hs₂ => ?_⟩
      obtain ⟨hkept₂, hopen₂⟩ := open_fillDown hs₂
      rw [hkept₁] at hopen₂
      split
      · exact returns_pure _
      · rename_i hopen
        rw [bind_pure_comp, returns_map, returns_foldlM returns_place]
        intro item hitem
        obtain ⟨e, he, rfl⟩ := List.mem_map.mp hitem
        obtain ⟨he, hkey⟩ := List.mem_filter.mp he
        refine hrest ?_ e he (by simpa using hkey)
        unfold StaysOpen
        rw [← hopen₁, ← hopen₂, ← hkept₂]
        cases hnull : s₂.upside.isNull with
        | true => exact Or.inl rfl
        | false => exact Or.inr (by simpa [hnull] using hopen)
  | _ => simp [ScenariosFit, returns_place]

/-! ## The numbers of an object -/

variable {out out' : Dict PyJson}

structure NumbersFit (out : Dict PyJson) : Prop where
  cash : (Dict.read out "cash_target_pct").isHuge = false
  zone : zoneOverflows (Dict.read out "entry_zone") = false
  upside : ScenarioFits (Dict.read out "upside_scenario")
  downside : ScenarioFits (Dict.read out "downside_scenario")
  scenarios : ScenariosFit (Dict.read out "upside_scenario").isNull
    (Dict.read out "downside_scenario").isNull (Dict.read out "scenarios")

def PlansWalked (out : Dict PyJson) : Prop :=
  ∀ items, Dict.read out "symbol_actions" = .arr items → ∀ item ∈ items, Walked item

structure NumbersFinished (out out' : Dict PyJson) : Prop where
  same : Dict.SameBut ["cash_target_pct", "symbol_actions", "entry_zone", "upside_scenario",
    "downside_scenario", "scenarios"] out out'
  values : Dict.NewAre ScenarioFits out out'
  plans : fillPlans (Dict.read out "symbol_actions") = .ok (Dict.read out' "symbol_actions")
  zone : zoneOverflows (Dict.read out' "entry_zone") = false
  upside : ScenarioFits (Dict.read out' "upside_scenario")
  downside : ScenarioFits (Dict.read out' "downside_scenario")
  unsplit : Dict.contains out' "scenarios" = false
  upOpen : (Dict.read out' "upside_scenario").isNull = true →
    (Dict.read out "upside_scenario").isNull = true
  downOpen : (Dict.read out' "downside_scenario").isNull = true →
    (Dict.read out "downside_scenario").isNull = true

/-- An object without `scenarios`: which of the two is missing stays as it was. -/
structure StillOpen (out out' : Dict PyJson) : Prop where
  up : (Dict.read out' "upside_scenario").isNull = (Dict.read out "upside_scenario").isNull
  down : (Dict.read out' "downside_scenario").isNull = (Dict.read out "downside_scenario").isNull

theorem new_clampCash (h : clampCash v = .ok w) : w = v ∨ ScenarioFits w := by
  unfold clampCash PyJson.floatOr at h
  split at h
  · cases h
    exact Or.inr ⟨rfl, fun entries hentries => nomatch hentries⟩
  · cases h
  · cases h
    exact Or.inl rfl

theorem new_fillPlans (h : fillPlans v = .ok w) : w = v ∨ ScenarioFits w := by
  cases v with
  | arr items =>
    obtain ⟨items', _, hw⟩ := bind_ok_iff.mp h
    rw [← pure_ok_iff.mp hw]
    exact Or.inr ⟨rfl, fun entries hentries => nomatch hentries⟩
  | _ =>
    cases h
    exact Or.inl rfl

theorem new_normalizePriceZone (h : normalizePriceZone v = .ok w) : w = v ∨ ScenarioFits w := by
  have hzone : ∀ lo hi, ScenarioFits (zoneOf lo hi) := fun lo hi =>
    ⟨rfl, fun entries hentries => PyJson.obj.inj hentries ▸ rfl⟩
  unfold normalizePriceZone at h
  split at h
  · unfold PyJson.floatOr at h
    split at h
    · split at h
      · cases h
        exact Or.inr (hzone _ _)
      · cases h
      · cases h
        exact Or.inr ⟨rfl, fun entries hentries => nomatch hentries⟩
    · cases h
    · cases h
      exact Or.inr ⟨rfl, fun entries hentries => nomatch hentries⟩
  · cases h
    exact Or.inl rfl
  · cases h
    exact Or.inl rfl
  · cases h
    exact Or.inl rfl
  · cases h
    exact Or.inl rfl
  · obtain ⟨px, _, hw⟩ := bind_ok_iff.mp h
    rw [← pure_ok_iff.mp hw]
    exact Or.inr (hzone _ _)

theorem returns_finishNumbers_of_fit [Casing] {t : Runtime} (hplans : PlansWalked out) (h : NumbersFit out) :
    Returns (finishNumbers t out) := by
  unfold finishNumbers
  refine returns_bind.mpr ⟨(Dict.returns_adjustM clampCash_null).mpr
    (returns_clampCash.mpr h.cash), fun d₁ h₁ => ?_⟩
  have s₁ := Dict.sameBut_adjustM h₁
  refine returns_bind.mpr ⟨(Dict.returns_adjustM fillPlans_null).mpr ?_, fun d₂ h₂ => ?_⟩
  · rw [s₁.read (by decide)]
    exact returns_fillPlans hplans
  have s₂ := s₁.trans (Dict.sameBut_adjustM h₂)
  refine returns_bind.mpr ⟨(Dict.returns_adjustM normalizePriceZone_null).mpr ?_,
    fun d₃ h₃ => ?_⟩
  · rw [s₂.read (by decide)]
    exact returns_normalizePriceZone.mpr h.zone
  have s₃ := s₂.trans (Dict.sameBut_adjustM h₃)
  have hup₃ : Dict.read d₃ "upside_scenario" = Dict.read out "upside_scenario" :=
    s₃.read (by decide)
  refine returns_bind.mpr ⟨(Dict.returns_adjustM normalizeScenario_null).mpr ?_,
    fun d₄ h₄ => ?_⟩
  · rw [hup₃]
    exact returns_normalizeScenario.mpr h.upside
  have s₄ := s₃.trans (Dict.sameBut_adjustM h₄)
  have hdown₄ : Dict.read d₄ "downside_scenario" = Dict.read out "downside_scenario" :=
    s₄.read (by decide)
  refine returns_bind.mpr ⟨(Dict.returns_adjustM normalizeScenario_null).mpr ?_,
    fun d₅ h₅ => ?_⟩
  · rw [hdown₄]
    exact returns_normalizeScenario.mpr h.downside
  have s₅ := s₄.trans (Dict.sameBut_adjustM h₅)
  split
  · have hup := isNull_normalizeScenario (Dict.adjustM_read normalizeScenario_null h₄)
    have hdown := isNull_normalizeScenario (Dict.adjustM_read normalizeScenario_null h₅)
    rw [hup₃, ← (Dict.sameBut_adjustM h₅).read (by decide)] at hup
    rw [hdown₄] at hdown
    rw [returns_splitScenariosList, hup, hdown, s₅.read (by decide)]
    exact h.scenarios
  · exact returns_pure _

theorem numbersFinished [Casing] {t : Runtime} (h : finishNumbers t out = .ok out') :
    NumbersFinished out out' ∧ NumbersFit out ∧
      (Dict.contains out "scenarios" = false → StillOpen out out') := by
  unfold finishNumbers at h
  obtain ⟨d₁, h₁, h⟩ := bind_ok_iff.mp h
  obtain ⟨d₂, h₂, h⟩ := bind_ok_iff.mp h
  obtain ⟨d₃, h₃, h⟩ := bind_ok_iff.mp h
  obtain ⟨d₄, h₄, h⟩ := bind_ok_iff.mp h
  obtain ⟨d₅, h₅, h⟩ := bind_ok_iff.mp h
  have s₁ := Dict.sameBut_adjustM h₁
  have s₂ := s₁.trans (Dict.sameBut_adjustM h₂)
  have s₃ := s₂.trans (Dict.sameBut_adjustM h₃)
  have s₄ := s₃.trans (Dict.sameBut_adjustM h₄)
  have s₅ := s₄.trans (Dict.sameBut_adjustM h₅)
  have r₄ := Dict.sameBut_adjustM h₅
  have r₃ := (Dict.sameBut_adjustM h₄).trans r₄
  have r₂ := (Dict.sameBut_adjustM h₃).trans r₃
  -- each edit, from what was under its key before to what is there after all five
  have hcash := Dict.adjustM_read clampCash_null h₁
  have hplans : fillPlans (Dict.read out "symbol_actions") =
      .ok (Dict.read d₅ "symbol_actions") := by
    rw [← s₁.read (k := "symbol_actions") (by decide), r₂.read (by decide)]
    exact Dict.adjustM_read fillPlans_null h₂
  have hzone : normalizePriceZone (Dict.read out "entry_zone") = .ok (Dict.read d₅ "entry_zone") := by
    rw [← s₂.read (k := "entry_zone") (by decide), r₃.read (by decide)]
    exact Dict.adjustM_read normalizePriceZone_null h₃
  have hup : normalizeScenario (Dict.read out "upside_scenario") =
      .ok (Dict.read d₅ "upside_scenario") := by
    rw [← s₃.read (k := "upside_scenario") (by decide), r₄.read (by decide)]
    exact Dict.adjustM_read normalizeScenario_null h₄
  have hdown : normalizeScenario (Dict.read out "downside_scenario") =
      .ok (Dict.read d₅ "downside_scenario") := by
    rw [← s₄.read (k := "downside_scenario") (by decide)]
    exact Dict.adjustM_read normalizeScenario_null h₅
  have hvalues : Dict.NewAre ScenarioFits out d₅ :=
    (((Dict.newAre_adjustM (fun _ _ => new_clampCash) h₁).trans
      (Dict.newAre_adjustM (fun _ _ => new_fillPlans) h₂)).trans
      (Dict.newAre_adjustM (fun _ _ => new_normalizePriceZone) h₃)).trans
      ((Dict.newAre_adjustM (fun _ _ hw => Or.inr (scenarioFits_normalized hw)) h₄).trans
        (Dict.newAre_adjustM (fun _ _ hw => Or.inr (scenarioFits_normalized hw)) h₅))
  have hupNull := isNull_normalizeScenario hup
  have hdownNull := isNull_normalizeScenario hdown
  have hscenarios : Dict.read d₅ "scenarios" = Dict.read out "scenarios" := s₅.read (by decide)
  have hfit : ScenariosFit (Dict.read out "upside_scenario").isNull
      (Dict.read out "downside_scenario").isNull (Dict.read out "scenarios") → NumbersFit out :=
    fun hscenarios =>
      { cash := returns_clampCash.mp (returns_iff.mpr ⟨_, hcash⟩)
        zone := returns_normalizePriceZone.mp (returns_iff.mpr ⟨_, hzone⟩)
        upside := returns_normalizeScenario.mp (returns_iff.mpr ⟨_, hup⟩)
        downside := returns_normalizeScenario.mp (returns_iff.mpr ⟨_, hdown⟩)
        scenarios := hscenarios }
  have hcontains : Dict.contains d₅ "scenarios" = Dict.contains out "scenarios" :=
    s₅.contains (by decide)
  split at h
  · rename_i hsplit
    have hfits := returns_splitScenariosList.mp (returns_iff.mpr ⟨_, h⟩)
    rw [hupNull, hdownNull, hscenarios] at hfits
    obtain ⟨s, hs, rfl⟩ := splitOf_splitScenariosList (scenarioFits_normalized hup)
      (scenarioFits_normalized hdown) h
    refine ⟨?_, hfit hfits, fun hnone => absurd (hcontains ▸ hsplit) (by simp [hnone])⟩
    exact
      { same := (s₅.trans hs.same).mono (by decide)
        values := hvalues.trans hs.values
        plans := (hs.same.read (k := "symbol_actions") (by decide)).symm ▸ hplans
        zone := (hs.same.read (k := "entry_zone") (by decide)).symm ▸ zone_normalized hzone
        upside := hs.upside
        downside := hs.downside
        unsplit := hs.unsplit
        upOpen := fun hnull => hupNull ▸ hs.upOpen hnull
        downOpen := fun hnull => hdownNull ▸ hs.downOpen hnull }
  · rename_i hsplit
    rw [hcontains, Bool.not_eq_true] at hsplit
    rw [← pure_ok_iff.mp h]
    refine ⟨?_, hfit ?_, fun _ => ⟨hupNull, hdownNull⟩⟩
    · exact
        { same := s₅.mono (by decide)
          values := hvalues
          plans := hplans
          zone := zone_normalized hzone
          upside := scenarioFits_normalized hup
          downside := scenarioFits_normalized hdown
          unsplit := hcontains.trans hsplit
          upOpen := fun hnull => hupNull ▸ hnull
          downOpen := fun hnull => hdownNull ▸ hnull }
    · rw [Dict.read_of_not_contains hsplit]
      exact ⟨rfl, fun entries hentries => nomatch hentries⟩

theorem returns_finishNumbers [Casing] {t : Runtime} (hplans : PlansWalked out) :
    Returns (finishNumbers t out) ↔ NumbersFit out := by
  constructor
  · intro h
    obtain ⟨out', hout⟩ := returns_iff.mp h
    exact (numbersFinished hout).2.1
  · exact returns_finishNumbers_of_fit hplans

end Returning

end Investor.Agents.Reply
