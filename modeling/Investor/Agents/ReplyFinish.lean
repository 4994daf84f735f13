import Investor.Agents.ReplyReturns

/-!
# Where finishing an object raises

An object of the walk is finished in steps, its numbers, the event it may be, its prose and its
`crowd_trade_risk`. `returns_finishObject` says when all of them return, and `ObjectFinished` what
the later repairs find in the object then.
-/

namespace Investor.Agents.Reply

open Lib Schema Market Universe

section Finish

variable {out out' : Dict PyJson} {v : PyJson}

/-! ## Prose -/

theorem scenarioFits_of_leaf (hhuge : v.isHuge = false) (hobj : ∀ entries, v ≠ .obj entries) :
    ScenarioFits v :=
  ⟨hhuge, fun entries hv => absurd hv (hobj entries)⟩

theorem scenarioFits_str (s : String) : ScenarioFits (.str s) :=
  ⟨rfl, fun _ hv => nomatch hv⟩

theorem scenarioFits_bool (b : Bool) : ScenarioFits (.bool b) :=
  ⟨rfl, fun _ hv => nomatch hv⟩

theorem scenarioFits_arr (items : List PyJson) : ScenarioFits (.arr items) :=
  ⟨rfl, fun _ hv => nomatch hv⟩

theorem asText_cases [Casing] {t : Runtime} (v : PyJson) :
    (∃ s, asText t v = .str s) ∨ (asText t v = v ∧ v.isContainer = false) := by
  cases v with
  | obj entries =>
    left
    unfold asText
    dsimp only
    cases hfound : Dict.firstOf entries _ _ with
    | none => exact ⟨_, rfl⟩
    | some found =>
      have haccept := List.find?_some hfound
      cases found with
      | str s => exact ⟨s, rfl⟩
      | _ => cases haccept
  | arr items => exact Or.inl ⟨_, rfl⟩
  | _ => exact Or.inr ⟨rfl, rfl⟩

theorem scenarioFits_asText [Casing] {t : Runtime} (hhuge : v.isHuge = false) : ScenarioFits (asText t v) := by
  rcases asText_cases (t := t) v with ⟨s, hs⟩ | ⟨hv, hleaf⟩
  · rw [hs]
    exact scenarioFits_str s
  · rw [hv]
    refine scenarioFits_of_leaf hhuge fun entries hobj => ?_
    rw [hobj] at hleaf
    cases hleaf

theorem new_asText [Casing] {t : Runtime} (v : PyJson) : asText t v = v ∨ ScenarioFits (asText t v) := by
  rcases asText_cases (t := t) v with ⟨s, hs⟩ | ⟨hv, _⟩
  · rw [hs]
    exact Or.inr (scenarioFits_str s)
  · exact Or.inl hv

def HugeStays (d d' : Dict PyJson) : Prop :=
  ∀ k, (Dict.read d k).isHuge = true → Dict.read d' k = Dict.read d k

variable {d d' : Dict PyJson}

theorem HugeStays.trans {d'' : Dict PyJson} (h : HugeStays d d') (h' : HugeStays d' d'') :
    HugeStays d d'' := by
  intro k hk
  have hread := h k hk
  rw [h' k (hread ▸ hk), hread]

variable {keys : List String}

theorem hugeStays_of_sameBut (h : Dict.SameBut keys d d')
    (hkeys : ∀ k ∈ keys, (Dict.read d k).isHuge = true → Dict.read d' k = Dict.read d k) :
    HugeStays d d' := by
  intro k hk
  by_cases hmem : k ∈ keys
  · exact hkeys k hmem hk
  · exact h.read hmem

theorem hugeStays_ensure (d : Dict PyJson) (k : String) (v : PyJson) :
    HugeStays d (Dict.ensure d k v) := by
  refine hugeStays_of_sameBut (Dict.sameBut_ensure d k v) fun k' hk' hhuge => ?_
  rw [List.mem_singleton.mp hk'] at hhuge ⊢
  unfold Dict.ensure
  split
  · rfl
  · rename_i hnone
    rw [Dict.read_of_not_contains (Bool.eq_false_iff.mpr hnone)] at hhuge
    cases hhuge

theorem hugeStays_set {k : String} {v : PyJson} (hold : (Dict.read d k).isHuge = false) :
    HugeStays d (Dict.set d k v) := by
  refine hugeStays_of_sameBut (Dict.sameBut_set d k v) fun k' hk' hhuge => ?_
  rw [List.mem_singleton.mp hk', hold] at hhuge
  cases hhuge

section

variable [Casing] {t : Runtime}

theorem sameBut_extractBoolRationale (d : Dict PyJson) (boolKey rationaleKey : String) :
    Dict.SameBut [rationaleKey, boolKey] d (extractBoolRationale t d boolKey rationaleKey) := by
  unfold extractBoolRationale
  split
  · exact (Dict.sameBut_ensure _ _ _).trans (Dict.sameBut_set _ _ _)
  · exact Dict.SameBut.refl

theorem unwrapBool_obj (entries : Dict PyJson) : ∃ b, unwrapBool (.obj entries) = .bool b := by
  unfold unwrapBool
  dsimp only
  cases hfound : Dict.firstOf entries ["value", "flag", "result", "bool", "is_true", "answer"]
      PyJson.isBool with
  | none => exact ⟨true, rfl⟩
  | some found =>
    have haccept := List.find?_some hfound
    cases found with
    | bool b => exact ⟨b, rfl⟩
    | _ => cases haccept

theorem new_extractBoolRationale (d : Dict PyJson) (boolKey rationaleKey : String) :
    Dict.NewAre ScenarioFits d (extractBoolRationale t d boolKey rationaleKey) := by
  unfold extractBoolRationale
  split
  · rename_i entries _
    obtain ⟨b, hb⟩ := unwrapBool_obj entries
    rw [hb]
    exact (Dict.newAre_ensure (scenarioFits_asText rfl)).trans
      (Dict.newAre_set (scenarioFits_bool b))
  · exact Dict.NewAre.refl

theorem hugeStays_extractBoolRationale (d : Dict PyJson) {boolKey rationaleKey : String}
    (hne : boolKey ∉ [rationaleKey]) :
    HugeStays d (extractBoolRationale t d boolKey rationaleKey) := by
  unfold extractBoolRationale
  split
  · rename_i entries hget
    refine (hugeStays_ensure _ _ _).trans (hugeStays_set ?_)
    rw [(Dict.sameBut_ensure d rationaleKey _).read hne]
    unfold Dict.read
    rw [hget]
    rfl
  · exact fun _ _ => rfl

def PROSE_KEYS : List String :=
  ["information_already_in_price_rationale", "information_already_in_price",
    "prefer_no_trade_rationale", "prefer_no_trade", "opposing_market_scenario"]

theorem sameBut_finishProse (d : Dict PyJson) : Dict.SameBut PROSE_KEYS d (finishProse t d) :=
  ((sameBut_extractBoolRationale d _ _).trans (sameBut_extractBoolRationale _ _ _)).trans
    (Dict.sameBut_adjust _ _ _)

theorem new_finishProse (d : Dict PyJson) : Dict.NewAre ScenarioFits d (finishProse t d) :=
  ((new_extractBoolRationale d _ _).trans (new_extractBoolRationale _ _ _)).trans
    (Dict.newAre_adjust new_asText)

theorem hugeStays_finishProse (d : Dict PyJson) : HugeStays d (finishProse t d) := by
  have hprice : HugeStays d (extractBoolRationale t d "information_already_in_price"
      "information_already_in_price_rationale") := hugeStays_extractBoolRationale d (by decide)
  have htrade : ∀ d', HugeStays d' (extractBoolRationale t d' "prefer_no_trade"
      "prefer_no_trade_rationale") := fun d' => hugeStays_extractBoolRationale d' (by decide)
  refine (hprice.trans (htrade _)).trans ?_
  refine hugeStays_of_sameBut (Dict.sameBut_adjust _ _ _) fun k hk hhuge => ?_
  rw [List.mem_singleton.mp hk] at hhuge ⊢
  unfold finishProse Dict.adjust
  dsimp only
  split
  · rename_i v hv
    have hread : Dict.read _ "opposing_market_scenario" = v := congrArg (·.getD .null) hv
    rw [hread] at hhuge ⊢
    unfold Dict.read
    rw [Dict.get?_set_self]
    cases v with
    | int n => rfl
    | _ => cases hhuge
  · rfl

end

/-! ## The risk of a crowded trade -/

/-- A number that is not zero, which has no `lower()`. -/
def crowdRaises : PyJson → Bool
  | .int n => decide (n ≠ 0)
  | .float x => decide (x ≠ .fin 0)
  | _ => false

theorem five_lt_floatLimit : 5 < floatLimit := by decide +kernel

theorem isHuge_of_crowdRaises (h : crowdRaises v = false) : v.isHuge = false := by
  cases v with
  | int n =>
    have hzero : n = 0 := by simpa [crowdRaises] using h
    have hlimit := five_lt_floatLimit
    rw [hzero]
    simp [PyJson.isHuge]
    omega
  | _ => rfl

@[simp] theorem returns_crowdTradeRisk [Casing] {t : Runtime} :
    Returns (crowdTradeRisk t out) ↔ crowdRaises (Dict.read out "crowd_trade_risk") = false := by
  unfold crowdTradeRisk Dict.read
  cases hget : Dict.get? out "crowd_trade_risk" with
  | none => simp [crowdRaises]
  | some v =>
    cases v with
    | null => simp [asText, crowdRaises, PyJson.truthy]
    | bool b => simp [crowdRaises]
    | int n =>
      by_cases hzero : n = 0 <;> simp [asText, crowdRaises, PyJson.truthy, hzero]
    | float x =>
      by_cases hzero : x = .fin 0 <;> simp [asText, crowdRaises, PyJson.truthy, hzero]
    | str s => simp [asText, crowdRaises]
    | arr items => simp [asText, crowdRaises]
    | obj entries =>
      rcases asText_cases (t := t) (.obj entries) with ⟨s, hs⟩ | ⟨_, hleaf⟩
      · simp [hs, crowdRaises]
      · cases hleaf

theorem crowdTradeRisk_ok [Casing] {t : Runtime} (h : crowdTradeRisk t out = .ok out') :
    out' = out ∨ ∃ risk : Bool, out' = Dict.set out "crowd_trade_risk" (.bool risk) ∨
      out' = Dict.ensure (Dict.set out "crowd_trade_risk" (.bool risk)) "missing_information"
        (.arr []) := by
  unfold crowdTradeRisk at h
  split at h
  · cases h
    exact Or.inl rfl
  · cases h
    exact Or.inl rfl
  · right
    dsimp only at h
    split at h
    · split at h
      · cases h
        exact ⟨_, Or.inl rfl⟩
      · cases h
        exact ⟨_, Or.inr rfl⟩
    · split at h
      · cases h
      · split at h
        · cases h
          exact ⟨_, Or.inl rfl⟩
        · cases h
          exact ⟨_, Or.inr rfl⟩

theorem sameBut_crowdTradeRisk [Casing] {t : Runtime} (h : crowdTradeRisk t out = .ok out') :
    Dict.SameBut ["crowd_trade_risk", "missing_information"] out out' := by
  rcases crowdTradeRisk_ok h with rfl | ⟨risk, rfl | rfl⟩
  · exact Dict.SameBut.refl
  · exact (Dict.sameBut_set _ _ _).mono (by simp)
  · exact (Dict.sameBut_set _ _ _).trans (Dict.sameBut_ensure _ _ _)

theorem new_crowdTradeRisk [Casing] {t : Runtime} (h : crowdTradeRisk t out = .ok out') :
    Dict.NewAre ScenarioFits out out' := by
  rcases crowdTradeRisk_ok h with rfl | ⟨risk, rfl | rfl⟩
  · exact Dict.NewAre.refl
  · exact Dict.newAre_set (scenarioFits_bool risk)
  · exact (Dict.newAre_set (scenarioFits_bool risk)).trans (Dict.newAre_ensure (scenarioFits_arr []))

theorem hugeStays_crowdTradeRisk [Casing] {t : Runtime} (h : crowdTradeRisk t out = .ok out') : HugeStays out out' := by
  have hsmall : (Dict.read out "crowd_trade_risk").isHuge = false :=
    isHuge_of_crowdRaises (returns_crowdTradeRisk.mp (returns_iff.mpr ⟨_, h⟩))
  rcases crowdTradeRisk_ok h with rfl | ⟨risk, rfl | rfl⟩
  · exact fun _ _ => rfl
  · exact hugeStays_set hsmall
  · exact (hugeStays_set hsmall).trans (hugeStays_ensure _ _ _)

/-! ## Events -/

/-- Everything of an object but the upside and the downside can be normalized as a scenario. -/
def OthersFit (d : Dict PyJson) : Prop :=
  ∀ e ∈ d, e.1 ∉ UPSIDE_KEYS ++ DOWNSIDE_KEYS → ScenarioFits e.2

theorem OthersFit.new (h : OthersFit d) (hnew : Dict.NewAre ScenarioFits d d') : OthersFit d' := by
  intro e he hkey
  rcases hnew e he with hmem | hfits
  · exact h e hmem hkey
  · exact hfits

theorem OthersFit.read (h : OthersFit d) {k : String} (hk : k ∉ UPSIDE_KEYS ++ DOWNSIDE_KEYS) :
    ScenarioFits (Dict.read d k) := by
  unfold Dict.read
  cases hget : Dict.get? d k with
  | none => exact ⟨rfl, fun _ hv => nomatch hv⟩
  | some v => exact h (k, v) (Dict.mem_of_get? hget) hk

/-- The first interpretation of an event is no integer that is too large for a float. -/
def interpretationFits (d : Dict PyJson) : Bool :=
  match Dict.read d "interpretations" with
  | .arr (first :: _) => !first.isHuge
  | _ => true

variable {ev : Dict PyJson}

section

variable [Casing] {t : Runtime}

theorem othersFit_otherHeadline (h : OthersFit ev) : OthersFit (otherHeadline t ev) := by
  unfold otherHeadline
  split
  · rename_i alt _ hfound
    obtain ⟨k, hk, rfl⟩ := List.mem_map.mp (List.mem_of_find?_eq_some hfound)
    have hothers : ∀ k ∈ ["title", "summary", "text", "name", "event", "description"],
        k ∉ UPSIDE_KEYS ++ DOWNSIDE_KEYS := by decide
    exact h.new (Dict.newAre_set (scenarioFits_asText (h.read (hothers k hk)).1))
  · exact h

theorem othersFit_firstInterpretation (h : OthersFit ev) (hfirst : interpretationFits ev = true) :
    OthersFit (firstInterpretation t ev) := by
  have herased : OthersFit (Dict.erase ev "interpretations") := h.new Dict.newAre_erase
  have hread := h.read (k := "interpretations") (by decide)
  unfold firstInterpretation
  unfold interpretationFits Dict.read at hfirst
  unfold Dict.read at hread
  split
  · exact h
  · rename_i interps hget
    rw [hget] at hfirst hread
    dsimp only
    split
    · exact herased
    · split
      · exact herased.new (Dict.newAre_set (scenarioFits_asText (by simpa using hfirst)))
      · exact herased.new (Dict.newAre_set (scenarioFits_asText hread.1))

theorem new_lastHeadline (ev : Dict PyJson) :
    Dict.NewAre ScenarioFits ev (lastHeadline t ev) := by
  have hset : ∀ (d : Dict PyJson) (s : String),
      Dict.NewAre ScenarioFits d (Dict.set d "headline" (.str s)) :=
    fun d s => Dict.newAre_set (scenarioFits_str s)
  unfold lastHeadline
  split
  · split
    · dsimp only
      split
      · exact (hset _ _).trans (hset _ _)
      · exact hset _ _
    · exact hset _ _
  · exact Dict.NewAre.refl

theorem othersFit_eventTexts (h : OthersFit ev) (hfirst : interpretationFits ev = true) :
    OthersFit (eventTexts t ev) := by
  have hread : interpretationFits (otherHeadline t ev) = interpretationFits ev := by
    unfold interpretationFits
    rw [(sameBut_otherHeadline ev).read (by decide)]
  have hfirst' := othersFit_firstInterpretation (t := t) (othersFit_otherHeadline h)
    (hread.trans hfirst)
  exact ((hfirst'.new (Dict.newAre_set (scenarioFits_arr _))).new (new_lastHeadline _)).new
    Dict.newAre_without

theorem new_eventLists (ev : Dict PyJson) : Dict.NewAre ScenarioFits ev (eventLists t ev) := by
  unfold eventLists
  extract_lets ev₁ ev₂
  have huncertainties : Dict.NewAre ScenarioFits ev ev₁ := by
    dsimp only [ev₁]
    split
    · exact Dict.NewAre.refl
    · exact Dict.NewAre.refl
    · exact Dict.NewAre.refl
    · exact Dict.NewAre.refl
    · exact Dict.newAre_set (scenarioFits_arr _)
  have hsource : Dict.NewAre ScenarioFits ev ev₂ :=
    huncertainties.trans (Dict.newAre_ensure (scenarioFits_str "unknown"))
  split
  · exact hsource.trans (Dict.newAre_set (scenarioFits_arr _))
  · exact hsource.trans (Dict.newAre_set (scenarioFits_arr _))
  · exact hsource

theorem new_eventDefaults (ev : Dict PyJson) :
    Dict.NewAre ScenarioFits ev (eventDefaults t ev) :=
  ((((((new_eventLists ev).trans (Dict.newAre_ensure (scenarioFits_arr _))).trans
    (Dict.newAre_ensure (scenarioFits_arr _))).trans
    (Dict.newAre_ensure (scenarioFits_arr _))).trans
    (Dict.newAre_ensure (scenarioFits_str _))).trans
    (Dict.newAre_ensure (scenarioFits_str _))).trans (Dict.newAre_ensure (scenarioFits_str _))

end

theorem clampImportance_cases {w : PyJson} (h : clampImportance v = .ok w) :
    w = v ∨ ∃ n : ℤ, w = .int n ∧ 1 ≤ n ∧ n ≤ 5 := by
  unfold clampImportance PyJson.floatOr at h
  split at h
  · rename_i x _
    right
    cases x with
    | fin q =>
      dsimp only at h
      split_ifs at h with habove hpercent hbelow
      · cases h
        exact ⟨_, rfl, le_max_left _ _, by simp⟩
      · cases h
        exact ⟨5, rfl, by simp, le_refl 5⟩
      · cases h
        exact ⟨1, rfl, le_refl 1, by simp⟩
      · cases h
        refine ⟨_, rfl, ?_, ?_⟩
        · calc (1 : ℤ) = roundHalfEven ((1 : ℤ) : ℚ) := (roundHalfEven_intCast 1).symm
            _ ≤ roundHalfEven q := roundHalfEven_mono (by simpa using hbelow)
        · calc roundHalfEven q ≤ roundHalfEven ((5 : ℤ) : ℚ) :=
                roundHalfEven_mono (by simpa using habove)
            _ = 5 := roundHalfEven_intCast 5
    | inf =>
      cases h
      exact ⟨5, rfl, by simp, le_refl 5⟩
    | negInf =>
      cases h
      exact ⟨1, rfl, le_refl 1, by simp⟩
    | nan => cases h
  · cases h
  · cases h
    exact Or.inl rfl

theorem isHuge_clamped {n : ℤ} (hlow : 1 ≤ n) (hhigh : n ≤ 5) : (PyJson.int n).isHuge = false := by
  have hlimit := five_lt_floatLimit
  simp [PyJson.isHuge]
  omega

theorem badImportance_small {n : ℤ} (hlow : 1 ≤ n) (hhigh : n ≤ 5) :
    badImportance (.int n) = false := by
  have hsmall := isHuge_clamped hlow hhigh
  unfold badImportance PyJson.toFloat
  unfold PyJson.isHuge at hsmall ⊢
  simp only [decide_eq_false_iff_not] at hsmall
  simp [hsmall]

theorem badImportance_clamped {w : PyJson} (h : clampImportance v = .ok w) :
    badImportance w = false := by
  rcases clampImportance_cases h with rfl | ⟨n, rfl, hlow, hhigh⟩
  · exact returns_clampImportance.mp (returns_iff.mpr ⟨_, h⟩)
  · exact badImportance_small hlow hhigh

variable {key : Option String}

section

variable [Casing] {t : Runtime}

theorem othersFit_normalizeMarketEvent {ev' : Dict PyJson}
    (hev : normalizeMarketEvent t ev = .ok ev') (h : OthersFit ev)
    (hfirst : interpretationFits ev = true) : OthersFit ev' := by
  obtain ⟨importance, himportance, hev'⟩ := bind_ok_iff.mp hev
  have htexts := othersFit_eventTexts (t := t) h hfirst
  have hfits : ScenarioFits importance := by
    unfold eventImportance at himportance
    split at himportance
    · rename_i v hget
      have hread := htexts.read (k := "importance") (by decide)
      unfold Dict.read at hread
      rw [hget] at hread
      rcases clampImportance_cases himportance with rfl | ⟨n, rfl, hlow, hhigh⟩
      · exact hread
      · exact ⟨isHuge_clamped hlow hhigh, fun _ hv => nomatch hv⟩
    · cases himportance
      exact ⟨isHuge_clamped (by simp) (by simp), fun _ hv => nomatch hv⟩
  rw [← pure_ok_iff.mp hev']
  exact (htexts.new (Dict.newAre_set hfits)).new (new_eventDefaults _)

theorem badImportance_normalizeMarketEvent {ev' : Dict PyJson}
    (hev : normalizeMarketEvent t ev = .ok ev') :
    badImportance (Dict.read ev' "importance") = false := by
  obtain ⟨importance, himportance, hev'⟩ := bind_ok_iff.mp hev
  have hread : Dict.read ev' "importance" = importance := by
    rw [← pure_ok_iff.mp hev', (sameBut_eventDefaults _).read (by decide)]
    unfold Dict.read
    rw [Dict.get?_set_self]
    rfl
  rw [hread]
  unfold eventImportance at himportance
  split at himportance
  · exact badImportance_clamped himportance
  · cases himportance
    exact badImportance_small (by simp) (by simp)

/-! ## The whole object -/

def stampRoot (t : Runtime) (key : Option String) (out : Dict PyJson) : Dict PyJson :=
  if key = none || key = some "" || key = some "root" then
    Dict.ensure out "timestamp" (.str t.now)
  else out

theorem sameBut_stampRoot (key : Option String) (out : Dict PyJson) :
    Dict.SameBut ["timestamp"] out (stampRoot t key out) := by
  unfold stampRoot
  split
  · exact Dict.sameBut_ensure _ _ _
  · exact Dict.SameBut.refl

theorem new_stampRoot (key : Option String) (out : Dict PyJson) :
    Dict.NewAre ScenarioFits out (stampRoot t key out) := by
  unfold stampRoot
  split
  · exact Dict.newAre_ensure (scenarioFits_str _)
  · exact Dict.NewAre.refl

theorem hugeStays_stampRoot (key : Option String) (out : Dict PyJson) :
    HugeStays out (stampRoot t key out) := by
  unfold stampRoot
  split
  · exact hugeStays_ensure _ _ _
  · exact fun _ _ => rfl

theorem finishObject_ok (h : finishObject t key out = .ok out') :
    ∃ d₁ d₂, finishNumbers t (stampRoot t key out) = .ok d₁ ∧
      onlyIf (isEvent d₁) (normalizeMarketEvent t) d₁ = .ok d₂ ∧
      crowdTradeRisk t (finishProse t d₂) = .ok out' := by
  obtain ⟨d₁, h₁, h⟩ := bind_ok_iff.mp h
  obtain ⟨d₂, h₂, h⟩ := bind_ok_iff.mp h
  exact ⟨d₁, d₂, h₁, h₂, h⟩

end

theorem isEvent_same (h : Dict.SameBut keys d d') (himportance : "importance" ∉ keys)
    (hheadline : "headline" ∉ keys) (hcategory : "category" ∉ keys)
    (hsentiment : "sentiment" ∉ keys) : isEvent d' = isEvent d := by
  unfold isEvent
  rw [h.contains himportance, h.contains hheadline, h.contains hcategory, h.contains hsentiment]

structure ObjectFit (out : Dict PyJson) : Prop where
  numbers : NumbersFit out
  importance : isEvent out = true → badImportance (Dict.read out "importance") = false
  crowd : crowdRaises (Dict.read out "crowd_trade_risk") = false

def FINISHED_KEYS : List String :=
  ["timestamp", "cash_target_pct", "symbol_actions", "entry_zone", "upside_scenario",
    "downside_scenario", "scenarios"] ++ EVENT_KEYS ++ PROSE_KEYS ++
    ["crowd_trade_risk", "missing_information"]

structure ObjectFinished (out out' : Dict PyJson) : Prop where
  fit : ObjectFit out
  same : Dict.SameBut FINISHED_KEYS out out'
  walked : (Dict.read out "probability").isHuge = false → ObjectWalked out'
  plans : fillPlans (Dict.read out "symbol_actions") = .ok (Dict.read out' "symbol_actions")
  importance : badImportance (Dict.read out' "importance") =
    badImportance (Dict.read out "importance")
  upOpen : (Dict.read out' "upside_scenario").isNull = true →
    (Dict.read out "upside_scenario").isNull = true
  downOpen : (Dict.read out' "downside_scenario").isNull = true →
    (Dict.read out "downside_scenario").isNull = true
  still : Dict.contains out "scenarios" = false → StillOpen out out'
  others : OthersFit out → (isEvent out = true → interpretationFits out = true) → OthersFit out'
  stays : isEvent out = false → HugeStays out out'

theorem NumbersFit.same (h : Dict.SameBut keys d d')
    (hkeys : ∀ k ∈ ["cash_target_pct", "entry_zone", "upside_scenario", "downside_scenario",
      "scenarios"], k ∉ keys) : NumbersFit d' ↔ NumbersFit d := by
  have hcash := h.read (hkeys "cash_target_pct" (by simp))
  have hzone := h.read (hkeys "entry_zone" (by simp))
  have hup := h.read (hkeys "upside_scenario" (by simp))
  have hdown := h.read (hkeys "downside_scenario" (by simp))
  have hscenarios := h.read (hkeys "scenarios" (by simp))
  constructor
  · rintro ⟨h₁, h₂, h₃, h₄, h₅⟩
    rw [hcash] at h₁
    rw [hzone] at h₂
    rw [hup] at h₃
    rw [hdown] at h₄
    rw [hup, hdown, hscenarios] at h₅
    exact ⟨h₁, h₂, h₃, h₄, h₅⟩
  · rintro ⟨h₁, h₂, h₃, h₄, h₅⟩
    refine ⟨?_, ?_, ?_, ?_, ?_⟩
    · rw [hcash]
      exact h₁
    · rw [hzone]
      exact h₂
    · rw [hup]
      exact h₃
    · rw [hdown]
      exact h₄
    · rw [hup, hdown, hscenarios]
      exact h₅

theorem isHuge_of_zoneOverflows (h : zoneOverflows v = false) : v.isHuge = false := by
  cases v with
  | int n => exact h
  | _ => rfl

theorem isHuge_of_scenariosFit {upOpen downOpen : Bool} (h : ScenariosFit upOpen downOpen v) :
    v.isHuge = false := by
  cases v with
  | int n => exact h.1
  | _ => rfl

variable [Casing] {t : Runtime}

theorem hugeStays_finishNumbers (h : finishNumbers t out = .ok out') : HugeStays out out' := by
  obtain ⟨hnumbers, hfit, _⟩ := numbersFinished h
  refine hugeStays_of_sameBut hnumbers.same fun k hk hhuge => ?_
  have hsmall : k ≠ "symbol_actions" → (Dict.read out k).isHuge = false := by
    intro hne
    simp only [List.mem_cons, List.not_mem_nil, or_false] at hk
    rcases hk with rfl | rfl | rfl | rfl | rfl | rfl
    · exact hfit.cash
    · exact absurd rfl hne
    · exact isHuge_of_zoneOverflows hfit.zone
    · exact hfit.upside.1
    · exact hfit.downside.1
    · exact isHuge_of_scenariosFit hfit.scenarios
  by_cases hplans : k = "symbol_actions"
  · have hok := hnumbers.plans
    rw [hplans] at hhuge ⊢
    cases hv : Dict.read out "symbol_actions" with
    | int n =>
      rw [hv] at hok
      exact (Except.ok.inj hok).symm
    | _ =>
      rw [hv] at hhuge
      cases hhuge
  · rw [hsmall hplans] at hhuge
    cases hhuge

theorem event_ok (h : onlyIf (isEvent d) (normalizeMarketEvent t) d = .ok d') :
    Dict.SameBut EVENT_KEYS d d' ∧
    (isEvent d = true → badImportance (Dict.read d "importance") = false) ∧
    badImportance (Dict.read d' "importance") = badImportance (Dict.read d "importance") ∧
    (OthersFit d → (isEvent d = true → interpretationFits d = true) → OthersFit d') ∧
    (isEvent d = false → d' = d) := by
  rcases onlyIf_ok h with ⟨hevent, hok⟩ | ⟨hevent, rfl⟩
  · have hgood := returns_normalizeMarketEvent.mp (returns_iff.mpr ⟨_, hok⟩)
    refine ⟨sameBut_normalizeMarketEvent hok, fun _ => hgood, ?_, ?_, ?_⟩
    · rw [badImportance_normalizeMarketEvent hok, hgood]
    · exact fun hothers hfirst => othersFit_normalizeMarketEvent hok hothers (hfirst hevent)
    · intro hnone
      rw [hevent] at hnone
      cases hnone
  · refine ⟨Dict.SameBut.refl, fun hnone => ?_, rfl, fun hothers _ => hothers, fun _ => rfl⟩
    rw [hevent] at hnone
    cases hnone

theorem objectFinished (h : finishObject t key out = .ok out') : ObjectFinished out out' := by
  obtain ⟨d₁, d₂, h₁, h₂, h₃⟩ := finishObject_ok h
  have hstamp := sameBut_stampRoot (t := t) key out
  obtain ⟨hnumbers, hfit, hstill⟩ := numbersFinished h₁
  obtain ⟨hevent, hgood, himportance, hothers, hplain⟩ := event_ok h₂
  have hprose := sameBut_finishProse (t := t) d₂
  have hcrowd := sameBut_crowdTradeRisk h₃
  have s₁ := hstamp.trans hnumbers.same
  have s₂ := s₁.trans hevent
  have r₂ := hprose.trans hcrowd
  have r₁ := hevent.trans r₂
  have hisEvent : isEvent d₁ = isEvent out :=
    isEvent_same s₁ (by decide) (by decide) (by decide) (by decide)
  have hread₁ : Dict.read d₁ "importance" = Dict.read out "importance" := s₁.read (by decide)
  have hcrowdRead : Dict.read (finishProse t d₂) "crowd_trade_risk" =
      Dict.read out "crowd_trade_risk" := (s₂.trans hprose).read (by decide)
  have hsmall := returns_crowdTradeRisk.mp (returns_iff.mpr ⟨_, h₃⟩)
  have hplans := hnumbers.plans
  rw [hstamp.read (by decide), ← r₁.read (by decide)] at hplans
  have hup : Dict.read out' "upside_scenario" = Dict.read d₁ "upside_scenario" :=
    r₁.read (by decide)
  have hdown : Dict.read out' "downside_scenario" = Dict.read d₁ "downside_scenario" :=
    r₁.read (by decide)
  have hup₀ : Dict.read (stampRoot t key out) "upside_scenario" = Dict.read out "upside_scenario" :=
    hstamp.read (by decide)
  have hdown₀ : Dict.read (stampRoot t key out) "downside_scenario" =
      Dict.read out "downside_scenario" := hstamp.read (by decide)
  refine
    { fit := ⟨(NumbersFit.same hstamp (by decide)).mp hfit, ?_, ?_⟩
      same := (s₂.trans r₂).mono (by decide)
      walked := fun hprobability => ?_
      plans := hplans
      importance := ?_
      upOpen := fun hnull => ?_
      downOpen := fun hnull => ?_
      still := fun hnone => ?_
      others := fun hall hfirst => ?_
      stays := fun hnone => ?_ }
  · rw [hisEvent, hread₁] at hgood
    exact hgood
  · rw [← hcrowdRead]
    exact hsmall
  · refine ⟨?_, ?_, ?_, ?_, ?_⟩
    · rw [(s₂.trans r₂).read (by decide)]
      exact hprobability
    · rw [r₁.read (by decide)]
      exact hnumbers.zone
    · rw [hup]
      exact hnumbers.upside
    · rw [hdown]
      exact hnumbers.downside
    · rw [r₁.contains (by decide)]
      exact hnumbers.unsplit
  · rw [r₂.read (by decide), himportance, hread₁]
  · rw [hup] at hnull
    exact hup₀ ▸ hnumbers.upOpen hnull
  · rw [hdown] at hnull
    exact hdown₀ ▸ hnumbers.downOpen hnull
  · obtain ⟨hu, hd⟩ := hstill ((hstamp.contains (by decide)).trans hnone)
    rw [hup₀, ← hup] at hu
    rw [hdown₀, ← hdown] at hd
    exact ⟨hu, hd⟩
  · have hfirst₁ : isEvent d₁ = true → interpretationFits d₁ = true := by
      intro heventful
      have hfits := hfirst (hisEvent ▸ heventful)
      unfold interpretationFits at hfits ⊢
      rw [s₁.read (by decide)]
      exact hfits
    have hall₁ := (hall.new (new_stampRoot key out)).new hnumbers.values
    exact ((hothers hall₁ hfirst₁).new (new_finishProse _)).new (new_crowdTradeRisk h₃)
  · have hsame₂ : d₂ = d₁ := hplain (hisEvent.trans hnone)
    rw [hsame₂] at h₃
    exact (((hugeStays_stampRoot key out).trans (hugeStays_finishNumbers h₁)).trans
      (hugeStays_finishProse d₁)).trans (hugeStays_crowdTradeRisk h₃)

theorem returns_finishObject (hplans : PlansWalked out) :
    Returns (finishObject t key out) ↔ ObjectFit out := by
  constructor
  · intro h
    obtain ⟨out', hout⟩ := returns_iff.mp h
    exact (objectFinished hout).fit
  · intro hfit
    have hstamp := sameBut_stampRoot (t := t) key out
    have hplans₁ : PlansWalked (stampRoot t key out) := by
      unfold PlansWalked
      rw [hstamp.read (by decide)]
      exact hplans
    have hnumbers := (returns_finishNumbers (t := t) hplans₁).mpr
      ((NumbersFit.same hstamp (by decide)).mpr hfit.numbers)
    refine returns_bind.mpr ⟨hnumbers, fun d₁ h₁ => ?_⟩
    have s₁ := hstamp.trans (numbersFinished h₁).1.same
    refine returns_bind.mpr ⟨returns_onlyIf.mpr fun hevent => ?_, fun d₂ h₂ => ?_⟩
    · rw [isEvent_same s₁ (by decide) (by decide) (by decide) (by decide)] at hevent
      rw [returns_normalizeMarketEvent, s₁.read (by decide)]
      exact hfit.importance hevent
    · have s₂ := (s₁.trans (event_ok h₂).1).trans (sameBut_finishProse (t := t) d₂)
      rw [returns_crowdTradeRisk, s₂.read (by decide)]
      exact hfit.crowd

end Finish

end Investor.Agents.Reply
