import Investor.Agents.ReplyTame

/-!
# The replies that the sanitizer gets through

Past the walk, three repairs may raise: an event that is normalized though it did not look like
one, a view that takes its probability from a confidence, and a `HOLD` whose plans are read for
the action they amount to. `RootTame` is what each of them needs of the reply as it came.
-/

namespace Investor.Agents.Reply

open Lib Schema Market Universe

section Root

variable {out out' : Dict PyJson} {v w : PyJson}

/-! ## The keys of the repairs -/

theorem sameBut_foldl {α : Type} {f : Dict PyJson → α → Dict PyJson} {g : α → String}
    (hf : ∀ d a, Dict.SameBut [g a] d (f d a)) (xs : List α) (d : Dict PyJson) :
    Dict.SameBut (xs.map g) d (xs.foldl f d) := by
  induction xs generalizing d with
  | nil => exact Dict.SameBut.refl
  | cons x xs ih => exact (hf d x).trans (ih (f d x))

theorem sameBut_listTexts [Casing] {t : Runtime} (keys : List String) (d : Dict PyJson) :
    Dict.SameBut keys d (listTexts t d keys) := by
  have h := sameBut_foldl (g := id)
    (fun d key => Dict.sameBut_adjust d key fun v => strings (asStringList t v)) keys d
  rwa [List.map_id] at h

theorem sameBut_noneToEmptyList (keys : List String) (d : Dict PyJson) :
    Dict.SameBut keys d (noneToEmptyList d keys) := by
  have h := sameBut_foldl (g := id)
    (fun d key => Dict.sameBut_adjust d key fun v => if v.isNull then .arr [] else v) keys d
  rwa [List.map_id] at h

theorem sameBut_renameAsOf (d : Dict PyJson) :
    Dict.SameBut ["as_of", "timestamp"] d (renameAsOf d) := by
  unfold renameAsOf
  split
  · exact Dict.SameBut.refl
  · exact (Dict.sameBut_erase _ _).trans (Dict.sameBut_ensure _ _ _)

/-! ## Market intelligence -/

theorem fixEvents_null [Casing] {t : Runtime} : fixEvents t .null = .ok .null := rfl

theorem returns_fixEvents [Casing] {t : Runtime} : Returns (fixEvents t v) ↔ ∀ items, v = .arr items →
    ∀ ev, .obj ev ∈ items → badImportance (Dict.read ev "importance") = false := by
  cases v with
  | arr items =>
    unfold fixEvents
    dsimp only
    rw [bind_pure_comp, returns_map, returns_mapM]
    constructor
    · intro h items' hitems ev hev
      rw [← PyJson.arr.inj hitems] at hev
      simpa using h _ hev
    · intro h item hitem
      cases item with
      | obj ev => simpa using h items rfl ev hitem
      | _ => simp
  | _ => simp [fixEvents]

theorem returns_fixMarketIntelligence [Casing] {t : Runtime} : Returns (fixMarketIntelligence t out) ↔
    Returns (fixEvents t (Dict.read out "market_events")) := by
  simp only [fixMarketIntelligence, bind_pure_comp, returns_map]
  rw [Dict.returns_adjustM fixEvents_null, (Dict.sameBut_ensure _ _ _).read (by decide)]

def INTELLIGENCE_KEYS : List String :=
  ["data_quality_score", "market_events", "top_market_themes", "conflicts", "missing_information"]

theorem sameBut_fixMarketIntelligence [Casing] {t : Runtime} (h : fixMarketIntelligence t out = .ok out') :
    Dict.SameBut INTELLIGENCE_KEYS out out' := by
  obtain ⟨d, hd, h⟩ := bind_ok_iff.mp h
  rw [← pure_ok_iff.mp h]
  exact ((((Dict.sameBut_ensure _ _ _).trans (Dict.sameBut_adjustM hd)).trans
    (sameBut_listTexts _ _)).trans (sameBut_noneToEmptyList _ _)).mono (by decide)

/-! ## Quant -/

theorem returns_viewProbability {view : Dict PyJson} : Returns (viewProbability view) ↔
    Dict.contains view "probability_estimate" = true ∨
      (Dict.read view "confidence").isHuge = false := by
  have hcontains := (Dict.sameBut_erase view "confidence").contains (k := "probability_estimate")
    (by decide)
  unfold viewProbability
  dsimp only
  rw [hcontains]
  split
  · rename_i hskip
    rw [Bool.or_eq_true] at hskip
    refine iff_of_true (returns_pure _) (hskip.imp id fun hnull => ?_)
    exact isHuge_of_isNull hnull
  · rename_i hread
    rw [Bool.or_eq_true, not_or] at hread
    rw [bind_pure_comp, returns_map, returns_floatOr]
    simp [hread.1]

theorem sameBut_viewProbability {view view' : Dict PyJson} (h : viewProbability view = .ok view') :
    Dict.SameBut ["confidence", "probability_estimate"] view view' := by
  have herase := Dict.sameBut_erase view "confidence"
  unfold viewProbability at h
  dsimp only at h
  split at h
  · rw [← pure_ok_iff.mp h]
    exact herase.mono (by simp)
  · obtain ⟨estimate, _, h⟩ := bind_ok_iff.mp h
    rw [← pure_ok_iff.mp h]
    exact herase.trans (Dict.sameBut_set _ _ _)

theorem returns_fixView [Casing] {t : Runtime} {defaults : List (String × PyJson)} {view : Dict PyJson}
    (hdefaults : ∀ e ∈ defaults, e.1 ≠ "upside_scenario" ∧ e.1 ≠ "downside_scenario")
    (hw : ObjectWalked view) : Returns (fixView t defaults view) ↔
      Dict.contains view "probability_estimate" = true ∨
        (Dict.read view "confidence").isHuge = false := by
  have hunsplit : Dict.read view "scenarios" = .null := Dict.read_of_not_contains hw.unsplit
  have hsplit : Returns (splitScenariosList t view) := by
    rw [returns_splitScenariosList, hunsplit]
    exact ⟨rfl, fun _ hv => nomatch hv⟩
  obtain ⟨d₁, h₁⟩ := returns_iff.mp hsplit
  obtain ⟨s, hs, hview⟩ := splitOf_splitScenariosList hw.upside hw.downside h₁
  have s₂ := (hview ▸ hs.same).trans (Dict.sameBut_erase d₁ "scenarios")
  unfold fixView
  rw [h₁]
  change Returns (viewProbability (Dict.erase d₁ "scenarios") >>= _) ↔ _
  rw [returns_bind, returns_viewProbability, s₂.contains (by decide), s₂.read (by decide)]
  refine and_iff_left fun d₃ h₃ => ?_
  dsimp only
  have hfold := sameBut_foldl (g := Prod.fst) (f := fun view (e : String × PyJson) =>
    if (Dict.read view e.1).isNull then Dict.set view e.1 e.2 else view) (fun d e => by
      split
      · exact Dict.sameBut_set _ _ _
      · exact Dict.SameBut.refl) defaults
  have htail := fun d => ((((Dict.sameBut_ensure d "probability_estimate"
    (.float (.fin (1 / 2)))).trans (Dict.sameBut_ensure _ "probability_basis" (.str "llm"))).trans
    (Dict.sameBut_ensure _ "notes" (.arr []))).trans
    (Dict.sameBut_adjust _ "notes" fun v => strings (asStringList t v))).trans (hfold _)
  have s₄ := ((Dict.sameBut_erase d₁ "scenarios").trans (sameBut_viewProbability h₃)).trans (htail d₃)
  have hup : "upside_scenario" ∉ defaults.map Prod.fst := by
    intro hmem
    obtain ⟨e, he, heq⟩ := List.mem_map.mp hmem
    exact (hdefaults e he).1 heq
  have hdown : "downside_scenario" ∉ defaults.map Prod.fst := by
    intro hmem
    obtain ⟨e, he, heq⟩ := List.mem_map.mp hmem
    exact (hdefaults e he).2 heq
  refine returns_bind.mpr ⟨?_, fun d₅ h₅ => ?_⟩
  · rw [Dict.returns_adjustM normalizeScenario_null, returns_normalizeScenario,
      s₄.read (by simpa using hup), ← hview]
    exact hs.upside
  · rw [Dict.returns_adjustM normalizeScenario_null, returns_normalizeScenario,
      (s₄.trans (Dict.sameBut_adjustM h₅)).read (by simpa using hdown), ← hview]
    exact hs.downside

theorem fixViews_null [Casing] {t : Runtime} {defaults : List (String × PyJson)} :
    fixViews t defaults .null = .ok .null := rfl

theorem marketDefaults_keys (d : Dict PyJson) :
    ∀ e ∈ marketDefaults d, e.1 ≠ "upside_scenario" ∧ e.1 ≠ "downside_scenario" := by
  unfold marketDefaults
  simp

theorem returns_fixViews [Casing] {t : Runtime} {d : Dict PyJson}
    (hw : ∀ items, v = .arr items → ∀ item ∈ items, Walked item) :
    Returns (fixViews t (marketDefaults d) v) ↔ ∀ items, v = .arr items → ∀ view, .obj view ∈ items →
      Dict.contains view "probability_estimate" = true ∨
        (Dict.read view "confidence").isHuge = false := by
  cases v with
  | arr items =>
    unfold fixViews
    dsimp only
    rw [bind_pure_comp, returns_map, returns_mapM]
    constructor
    · intro h items' hitems view hview
      rw [← PyJson.arr.inj hitems] at hview
      have hfixed := h _ hview
      dsimp only at hfixed
      rw [bind_pure_comp, returns_map, returns_fixView (marketDefaults_keys d)
        (hw items rfl _ hview view rfl)] at hfixed
      exact hfixed
    · intro h item hitem
      cases item with
      | obj view =>
        dsimp only
        rw [bind_pure_comp, returns_map, returns_fixView (marketDefaults_keys d)
          (hw items rfl _ hitem view rfl)]
        exact h items rfl view hitem
      | _ => simp
  | _ => simp [fixViews]

def QUANT_KEYS : List String :=
  CROSS_AGENT_EXTRAS ++ ["data_quality_score", "symbol_views", "conflicts"]

theorem sameBut_quantQuality (d : Dict PyJson) :
    Dict.SameBut ["data_quality_score"] d
      (if (Dict.read d "data_quality_score").isNull then
        Dict.set d "data_quality_score" (.float (.fin (6 / 10)))
      else d) := by
  split
  · exact Dict.sameBut_set _ _ _
  · exact Dict.SameBut.refl

theorem read_noneToEmptyList (d : Dict PyJson) :
    Dict.read (noneToEmptyList d ["symbol_views", "conflicts"]) "symbol_views" =
        Dict.read d "symbol_views" ∨
      (Dict.read d "symbol_views" = .null ∧
        Dict.read (noneToEmptyList d ["symbol_views", "conflicts"]) "symbol_views" = .arr []) := by
  have hrest := (Dict.sameBut_adjust (Dict.adjust d "symbol_views" fun v =>
    if v.isNull then .arr [] else v) "conflicts" fun v => if v.isNull then .arr [] else v).read
    (k := "symbol_views") (by decide)
  have hread : Dict.read (noneToEmptyList d ["symbol_views", "conflicts"]) "symbol_views" =
    Dict.read (Dict.adjust d "symbol_views" fun v => if v.isNull then .arr [] else v)
      "symbol_views" := hrest
  rw [hread]
  unfold Dict.adjust
  cases hget : Dict.get? d "symbol_views" with
  | none => exact Or.inl rfl
  | some v =>
    have hv : Dict.read d "symbol_views" = v := congrArg (·.getD .null) hget
    dsimp only
    rw [hv]
    unfold Dict.read
    rw [Dict.get?_set_self, Option.getD_some]
    cases hnull : v.isNull with
    | true => exact Or.inr ⟨PyJson.isNull_iff.mp hnull, rfl⟩
    | false => exact Or.inl rfl

section

variable [Casing] {t : Runtime}

theorem returns_fixQuant
    (hw : ∀ items, Dict.read out "symbol_views" = .arr items → ∀ item ∈ items, Walked item) :
    Returns (fixQuant t out) ↔ ∀ items, Dict.read out "symbol_views" = .arr items →
      ∀ view, .obj view ∈ items → Dict.contains view "probability_estimate" = true ∨
        (Dict.read view "confidence").isHuge = false := by
  have s₁ := (Dict.sameBut_without out CROSS_AGENT_EXTRAS).trans (sameBut_quantQuality _)
  have hviews := s₁.read (k := "symbol_views") (by decide)
  unfold fixQuant
  dsimp only
  rw [Dict.returns_adjustM fixViews_null]
  rcases read_noneToEmptyList (if (Dict.read (Dict.without out CROSS_AGENT_EXTRAS)
      "data_quality_score").isNull then Dict.set (Dict.without out CROSS_AGENT_EXTRAS)
      "data_quality_score" (.float (.fin (6 / 10))) else Dict.without out CROSS_AGENT_EXTRAS)
    with hread | ⟨hnull, hread⟩
  · rw [hread, hviews]
    exact returns_fixViews hw
  · rw [hread]
    rw [hviews] at hnull
    rw [hnull]
    refine iff_of_true ?_ fun items hitems => nomatch hitems
    exact (returns_fixViews (by simp)).mpr (by simp)

theorem sameBut_fixQuant (h : fixQuant t out = .ok out') : Dict.SameBut QUANT_KEYS out out' := by
  exact ((((Dict.sameBut_without _ _).trans (sameBut_quantQuality _)).trans
    (sameBut_noneToEmptyList _ _)).trans (Dict.sameBut_adjustM h)).mono (by decide)

/-! ## Risk, Devil's Advocate and Macro -/

theorem sameBut_fixRisk (d : Dict PyJson) :
    Dict.SameBut ["data_quality_score", "cash_pct", "gross_exposure_pct", "notes"] d
      (fixRisk t d) :=
  ((((Dict.sameBut_erase d _).trans (Dict.sameBut_ensure _ _ _)).trans
    (Dict.sameBut_ensure _ _ _)).trans (Dict.sameBut_ensure _ _ _)).trans
    (Dict.sameBut_adjust _ _ _) |>.mono (by decide)

theorem returns_preferNoTrade (h : (Dict.read out "challenge_score").isHuge = false) :
    Returns (preferNoTrade t out) := by
  unfold preferNoTrade
  split
  · exact returns_pure _
  · have hchallenge : ((Dict.read out "challenge_score").orElse (.float (.fin 0))).isHuge = false := by
      unfold PyJson.orElse
      split
      · exact h
      · rfl
    simp [returns_floatOr, hchallenge]

theorem sameBut_preferNoTrade (h : preferNoTrade t out = .ok out') :
    Dict.SameBut ["prefer_no_trade"] out out' := by
  unfold preferNoTrade at h
  split at h
  · rw [← pure_ok_iff.mp h]
    exact Dict.SameBut.refl
  · obtain ⟨strong, _, h⟩ := bind_ok_iff.mp h
    rw [← pure_ok_iff.mp h]
    exact Dict.sameBut_set _ _ _

theorem returns_fixDevil (h : (Dict.read out "challenge_score").isHuge = false) :
    Returns (fixDevil t out) := by
  unfold fixDevil
  exact returns_bind.mpr ⟨returns_preferNoTrade h, fun d _ => returns_pure _⟩

def CHALLENGE_KEYS : List String :=
  ["prefer_no_trade", "recommendation"] ++ DEVIL_JUNK ++ ["prefer_no_trade_rationale",
    "information_already_in_price", "information_already_in_price_rationale", "challenge_score",
    "opposing_market_scenario", "immediate_withdrawal_conditions", "missing_information",
    "strongest_reason_thesis_is_wrong"]

theorem sameBut_fixDevil (h : fixDevil t out = .ok out') : Dict.SameBut CHALLENGE_KEYS out out' := by
  obtain ⟨d, hd, h⟩ := bind_ok_iff.mp h
  rw [← pure_ok_iff.mp h]
  have hrecommend : Dict.SameBut ["recommendation"] d
      (if ¬ Dict.contains d "recommendation" ∧ ¬ (Dict.read d "overall_verdict").isNull then
        Dict.set d "recommendation" (Dict.read d "overall_verdict")
      else d) := by
    split
    · exact Dict.sameBut_set _ _ _
    · exact Dict.SameBut.refl
  exact (((((((((((sameBut_preferNoTrade hd).trans hrecommend).trans
    (Dict.sameBut_without _ _)).trans (Dict.sameBut_ensure _ _ _)).trans
    (Dict.sameBut_ensure _ _ _)).trans (Dict.sameBut_ensure _ _ _)).trans
    (Dict.sameBut_ensure _ _ _)).trans (Dict.sameBut_set _ _ _)).trans
    (Dict.sameBut_set _ _ _)).trans (Dict.sameBut_set _ _ _)).trans
    (Dict.sameBut_ensure _ _ _)).mono (by decide)

theorem sameBut_fixMacro (cio : Bool) (d : Dict PyJson) :
    Dict.SameBut ["data_quality_score", "sector_impacts", "bullish_factors", "bearish_factors",
      "invalidation_conditions", "conflicts"] d (fixMacro t cio d) := by
  have hscore : Dict.SameBut ["data_quality_score"] d
      (if Dict.contains d "market_regime" then
        Dict.ensure d "data_quality_score" (.float (.fin (1 / 2)))
      else d) := by
    split
    · exact Dict.sameBut_ensure _ _ _
    · exact Dict.SameBut.refl
  unfold fixMacro
  dsimp only
  split
  · exact hscore.mono (by simp)
  · exact ((hscore.trans (Dict.sameBut_erase _ _)).trans (sameBut_listTexts _ _)).mono (by simp)

end

/-! ## The CIO -/

def bookValue (d : Dict PyJson) : PyJson :=
  match Dict.read d "portfolio_action" with
  | .obj pa =>
    ((Dict.get? pa "portfolio_action").or ((Dict.get? pa "action").or
      (Dict.get? pa "value"))).getD .null
  | v => v

theorem read_unwrapPortfolioAction (d : Dict PyJson) :
    (Dict.read (unwrapPortfolioAction d) "portfolio_action").orElse (.str "") =
      (bookValue d).orElse (.str "") := by
  unfold unwrapPortfolioAction bookValue
  cases hget : Dict.get? d "portfolio_action" with
  | none =>
    have hread : Dict.read d "portfolio_action" = .null := congrArg (·.getD .null) hget
    rw [hread]
  | some v =>
    have hread : Dict.read d "portfolio_action" = v := congrArg (·.getD .null) hget
    rw [hread]
    cases v with
    | obj pa =>
      dsimp only
      have herased : ∀ d' : Dict PyJson,
          Dict.read (Dict.erase d' "portfolio_action") "portfolio_action" = .null := by
        intro d'
        unfold Dict.read
        rw [Dict.get?_erase_self]
        rfl
      have hset : ∀ (d' : Dict PyJson) (v : PyJson),
          Dict.read (Dict.set d' "portfolio_action" v) "portfolio_action" = v := by
        intro d' v
        unfold Dict.read
        rw [Dict.get?_set_self]
        rfl
      split
      · rename_i hinner
        rw [herased, hinner]
      · rename_i hinner
        rw [herased, hinner]
        rfl
      · rw [hset]
    | _ =>
      dsimp only
      rw [hread]

theorem sameBut_unwrapPortfolioAction (d : Dict PyJson) :
    Dict.SameBut ["cash_target_pct", "portfolio_action"] d (unwrapPortfolioAction d) := by
  unfold unwrapPortfolioAction
  split
  · rename_i pa _
    have hcash : Dict.SameBut ["cash_target_pct"] d
        (if ¬ Dict.contains d "cash_target_pct" ∧ ¬ (Dict.read pa "cash_target_pct").isNull then
          Dict.set d "cash_target_pct" (Dict.read pa "cash_target_pct")
        else d) := by
      split
      · exact Dict.sameBut_set _ _ _
      · exact Dict.SameBut.refl
    dsimp only
    split
    · exact hcash.trans (Dict.sameBut_erase _ _)
    · exact hcash.trans (Dict.sameBut_erase _ _)
    · exact hcash.trans (Dict.sameBut_set _ _ _)
  · exact Dict.SameBut.refl

def cioKeys (mi : Bool) : List String :=
  ["market_regime", "risk_approval"] ++ cioJunk mi ++ ["hedge_required", "risk_conditions",
    "risk_conditions"]

section

variable [Casing] {t : Runtime}

theorem cioShape_eq (mi : Bool) (d : Dict PyJson) :
    ∃ d', Dict.SameBut (cioKeys mi) (unwrapPortfolioAction d) d' ∧
      cioShape t mi d =
        Dict.ensure (Dict.ensure d' "symbol_actions" (.arr [])) "cash_target_pct"
          (.float (.fin 50)) := by
  refine ⟨_, ?_, rfl⟩
  exact (((((Dict.sameBut_set _ _ _).trans (Dict.sameBut_set _ _ _)).trans
    (Dict.sameBut_without _ _)).trans (Dict.sameBut_ensure _ _ _)).trans
    (Dict.sameBut_ensure _ _ _)).trans (Dict.sameBut_set _ _ _) |>.mono (by
      unfold cioKeys
      simp [List.append_assoc])

theorem postureText_cioShape (mi : Bool) (d : Dict PyJson) :
    postureText t (cioShape t mi d) =
      Casing.upper (t.text ((bookValue d).orElse (.str ""))) := by
  obtain ⟨d', hsame, hshape⟩ := cioShape_eq (t := t) mi d
  have hkey : "portfolio_action" ∉ cioKeys mi := by cases mi <;> decide
  unfold postureText
  rw [hshape, ((Dict.sameBut_ensure _ _ _).trans (Dict.sameBut_ensure _ _ _)).read (by decide),
    hsame.read hkey, read_unwrapPortfolioAction]

theorem plans_cioShape (mi : Bool) (d : Dict PyJson) :
    Dict.read (cioShape t mi d) "symbol_actions" = Dict.read d "symbol_actions" ∨
      (Dict.read d "symbol_actions" = .null ∧
        Dict.read (cioShape t mi d) "symbol_actions" = .arr []) := by
  obtain ⟨d', hsame, hshape⟩ := cioShape_eq (t := t) mi d
  have hkey : "symbol_actions" ∉ cioKeys mi := by cases mi <;> decide
  have hread : Dict.get? d' "symbol_actions" = Dict.get? d "symbol_actions" :=
    (hsame "symbol_actions" hkey).trans
      (sameBut_unwrapPortfolioAction d "symbol_actions" (by decide))
  rw [hshape, (Dict.sameBut_ensure _ _ _).read (by decide)]
  unfold Dict.read Dict.ensure
  rw [← hread]
  split
  · exact Or.inl rfl
  · rename_i hnone
    rw [Dict.contains_iff, Bool.not_eq_true, Option.isSome_eq_false_iff, Option.isNone_iff_eq_none]
      at hnone
    right
    rw [hnone, Dict.get?_set_self]
    exact ⟨rfl, rfl⟩

def PlansRead (t : Runtime) (plans : PyJson) : Prop :=
  plans.truthy = true → Returns (itemsOf plans >>= fun items => items.mapM (kindText t))

theorem returns_recomputePosture : Returns (recomputePosture t out) ↔
    (postureText t out ∈ ["HOLD", "NO_TRADE"] → PlansRead t (Dict.read out "symbol_actions")) := by
  unfold recomputePosture PlansRead
  split
  · rename_i hread
    have hlast : ∀ kinds : List String,
        Returns (if (portfolioActionFromTexts kinds).isAnalysisOnly = true then
          (pure out : Except PyRaise (Dict PyJson))
        else pure (Dict.set out "portfolio_action"
          (.str (portfolioActionFromTexts kinds).value))) := by
      intro kinds
      split
      · exact returns_pure _
      · exact returns_pure _
    simp only [hread.1, hread.2, forall_true_left, returns_bind]
    exact and_congr_right fun _ => forall₂_congr fun items _ =>
      and_iff_left fun kinds _ => hlast kinds
  · rename_i hskip
    refine iff_of_true (returns_ok _) fun hposture htruthy => ?_
    exact absurd ⟨htruthy, hposture⟩ hskip

theorem sameBut_recomputePosture (h : recomputePosture t out = .ok out') :
    Dict.SameBut ["portfolio_action"] out out' := by
  unfold recomputePosture at h
  split at h
  · obtain ⟨items, _, h⟩ := bind_ok_iff.mp h
    obtain ⟨kinds, _, h⟩ := bind_ok_iff.mp h
    dsimp only at h
    split at h
    · rw [← pure_ok_iff.mp h]
      exact Dict.SameBut.refl
    · rw [← pure_ok_iff.mp h]
      exact Dict.sameBut_set _ _ _
  · cases h
    exact Dict.SameBut.refl

theorem returns_cio {mi : Bool} : Returns (recomputePosture t (cioShape t mi out)) ↔
    (Casing.upper (t.text ((bookValue out).orElse (.str ""))) ∈ ["HOLD", "NO_TRADE"] →
      PlansRead t (Dict.read out "symbol_actions")) := by
  rw [returns_recomputePosture, postureText_cioShape]
  refine imp_congr_right fun _ => ?_
  rcases plans_cioShape (t := t) mi out with hread | ⟨hnull, hread⟩
  · rw [hread]
  · rw [hread, hnull]
    exact iff_of_true (fun h => nomatch h) (fun h => nomatch h)

end

/-! ## The repairs of the root -/

theorem returns_bind_iff {α β : Type} {x : Except PyRaise α} {f : α → Except PyRaise β} {P Q : Prop}
    (hx : Returns x ↔ P) (hf : ∀ a, x = .ok a → (Returns (f a) ↔ Q)) :
    Returns (x >>= f) ↔ P ∧ Q := by
  rw [returns_bind, ← hx]
  refine and_congr_right fun hreturns => ?_
  obtain ⟨a, ha⟩ := returns_iff.mp hreturns
  rw [← hf a ha]
  constructor
  · intro h
    exact h a ha
  · intro h a' ha'
    rw [ha] at ha'
    exact Except.ok.inj ha' ▸ h

theorem sameBut_onlyIf {keys : List String} {c : Bool} {f : Dict PyJson → Except PyRaise (Dict PyJson)}
    (hf : ∀ d d', f d = .ok d' → Dict.SameBut keys d d') (h : onlyIf c f out = .ok out') :
    Dict.SameBut keys out out' := by
  rcases onlyIf_ok h with ⟨_, hok⟩ | ⟨_, rfl⟩
  · exact hf _ _ hok
  · exact Dict.SameBut.refl

def EventsFit (out : Dict PyJson) : Prop :=
  ∀ items, Dict.read out "market_events" = .arr items → ∀ ev, .obj ev ∈ items →
    badImportance (Dict.read ev "importance") = false

/-- The views of a finished reply have a probability, or one can be read. -/
def ViewsFit (out : Dict PyJson) : Prop :=
  ∀ items, Dict.read out "symbol_views" = .arr items → ∀ view, .obj view ∈ items →
    Dict.contains view "probability_estimate" = true ∨ (Dict.read view "confidence").isHuge = false

/-- The plans under a `HOLD` can be read, unless the reply is the quant strategist's. -/
def PostureFit [Casing] (t : Runtime) (out : Dict PyJson) : Prop :=
  (looksOf out).quant = false →
    Casing.upper (t.text ((bookValue out).orElse (.str ""))) ∈ ["HOLD", "NO_TRADE"] →
      PlansRead t (Dict.read out "symbol_actions")

theorem returns_mi [Casing] {t : Runtime} : Returns (onlyIf (looksOf out).mi (fixMarketIntelligence t) out) ↔
    EventsFit out := by
  rw [returns_onlyIf, returns_fixMarketIntelligence, returns_fixEvents]
  constructor
  · intro h items hitems
    cases hcontains : Dict.contains out "market_events" with
    | true => exact h (by simp [looksOf, hcontains]) items hitems
    | false =>
      rw [Dict.read_of_not_contains hcontains] at hitems
      cases hitems
  · intro h _ items hitems
    exact h items hitems

theorem returns_quant [Casing] {t : Runtime}
    (hw : ∀ items, Dict.read out "symbol_views" = .arr items → ∀ item ∈ items, Walked item)
    {looks : Bool} (hlooks : Dict.contains out "symbol_views" = true → looks = true) :
    Returns (onlyIf looks (fixQuant t) out) ↔ ViewsFit out := by
  rw [returns_onlyIf, returns_fixQuant hw]
  constructor
  · intro h items hitems
    cases hcontains : Dict.contains out "symbol_views" with
    | true => exact h (hlooks hcontains) items hitems
    | false =>
      rw [Dict.read_of_not_contains hcontains] at hitems
      cases hitems
  · intro h _ items hitems
    exact h items hitems

theorem upper_empty [Casing] : Casing.upper "" ∉ ["HOLD", "NO_TRADE"] := by
  rw [Casing.upper_ascii "" (by decide)]
  decide

theorem bookValue_same {keys : List String} {d d' : Dict PyJson} (h : Dict.SameBut keys d d')
    (hkey : "portfolio_action" ∉ keys) : bookValue d' = bookValue d := by
  unfold bookValue
  rw [h.read hkey]

theorem looksOf_renameAsOf (d : Dict PyJson) : looksOf (renameAsOf d) = looksOf d := by
  have h := sameBut_renameAsOf d
  have hcontains : ∀ k, k ∉ ["as_of", "timestamp"] →
      Dict.contains (renameAsOf d) k = Dict.contains d k := fun k hk => h.contains hk
  unfold looksOf
  simp [List.any_cons, hcontains]

variable [Casing] {t : Runtime}

theorem plans_fixQuant (h : fixQuant t out = .ok out') : Dict.read out' "symbol_actions" = .null := by
  have hrest : Dict.SameBut ["data_quality_score", "symbol_views", "conflicts"]
      (Dict.without out CROSS_AGENT_EXTRAS) out' :=
    (((sameBut_quantQuality _).trans (sameBut_noneToEmptyList _ _)).trans
      (Dict.sameBut_adjustM h)).mono (by decide)
  rw [hrest.read (by decide)]
  unfold Dict.read
  rw [Dict.get?_without, if_pos (by decide)]
  rfl

theorem returns_lastStep {d : Dict PyJson} {mi : Bool}
    (hplans : (looksOf out).quant = true → Dict.read d "symbol_actions" = .null)
    (hsame : (looksOf out).quant = false →
      bookValue d = bookValue out ∧ Dict.read d "symbol_actions" = Dict.read out "symbol_actions") :
    Returns (if (looksOf out).cio then recomputePosture t (cioShape t mi d) else pure d) ↔
      PostureFit t out := by
  unfold PostureFit
  split
  · rw [returns_cio]
    cases hquant : (looksOf out).quant with
    | true =>
      rw [hplans hquant]
      exact iff_of_true (fun _ h => nomatch h) (fun h => nomatch h)
    | false =>
      obtain ⟨hbook, hactions⟩ := hsame hquant
      rw [hbook, hactions]
      simp
  · rename_i hcio
    refine iff_of_true (returns_pure _) fun _ hposture => ?_
    have hnone : Dict.contains out "portfolio_action" = false := by
      rw [Bool.eq_false_iff]
      intro hcontains
      exact hcio (by simp [looksOf, hcontains])
    have hbook : bookValue out = .null := by
      unfold bookValue
      rw [Dict.read_of_not_contains hnone]
    rw [hbook] at hposture
    exact absurd hposture upper_empty

theorem returns_agentShapeFixes
    (hviews : ∀ items, Dict.read out "symbol_views" = .arr items → ∀ item ∈ items, Walked item)
    (hchallenge : (Dict.read out "challenge_score").isHuge = false) :
    Returns (agentShapeFixes t out) ↔ EventsFit out ∧ ViewsFit out ∧ PostureFit t out := by
  have s₀ := sameBut_renameAsOf out
  have hlooks := looksOf_renameAsOf out
  have hevents : EventsFit (renameAsOf out) ↔ EventsFit out := by
    unfold EventsFit
    rw [s₀.read (by decide)]
  unfold agentShapeFixes
  dsimp only
  refine returns_bind_iff (returns_mi.trans hevents) fun d₁ h₁ => ?_
  have s₂ := (s₀.trans (sameBut_onlyIf (fun _ _ => sameBut_fixMarketIntelligence) h₁)).trans
    (Dict.sameBut_adjust d₁ "expected_sector_impact" (normalizeSectorImpact t))
  have hviews₂ := s₂.read (k := "symbol_views") (by decide)
  have hviewsFit : ViewsFit (Dict.adjust d₁ "expected_sector_impact" (normalizeSectorImpact t)) ↔
      ViewsFit out := by
    unfold ViewsFit
    rw [hviews₂]
  refine returns_bind_iff ((returns_quant (hviews₂ ▸ hviews) fun hcontains => ?_).trans hviewsFit)
    fun d₃ h₃ => ?_
  · rw [s₂.contains (by decide)] at hcontains
    rw [hlooks]
    simp [looksOf, hcontains]
  have s₃ := s₂.trans (sameBut_onlyIf (fun _ _ => sameBut_fixQuant) h₃)
  rw [hlooks] at h₃ ⊢
  -- neither the risk manager's nor the devil's repairs touch the action or the plans
  have hrisk : Dict.SameBut ["data_quality_score", "cash_pct", "gross_exposure_pct", "notes"] d₃
      (if (looksOf out).risk && !(looksOf out).cio && !(looksOf out).quant && !(looksOf out).mi then
        fixRisk t d₃ else d₃) := by
    split
    · exact sameBut_fixRisk d₃
    · exact Dict.SameBut.refl
  have hdevil := returns_fixDevil (t := t) (by
    rw [(s₃.trans hrisk).read (by decide)]
    exact hchallenge)
  rw [← true_and (PostureFit t out)]
  refine returns_bind_iff (iff_of_true (returns_onlyIf.mpr fun _ => hdevil) trivial) fun d₅ h₅ => ?_
  have hmacro : Dict.SameBut ["data_quality_score", "sector_impacts", "bullish_factors",
      "bearish_factors", "invalidation_conditions", "conflicts"] d₅
      (if (looksOf out).macroSheet then fixMacro t (looksOf out).cio d₅ else d₅) := by
    split
    · exact sameBut_fixMacro _ _
    · exact Dict.SameBut.refl
  have s₆ := (hrisk.trans (sameBut_onlyIf (fun _ _ => sameBut_fixDevil) h₅)).trans hmacro
  refine returns_lastStep (fun hquant => ?_) fun hquant => ?_
  · rw [s₆.read (by decide)]
    rcases onlyIf_ok h₃ with ⟨_, hok⟩ | ⟨hnot, _⟩
    · exact plans_fixQuant hok
    · rw [hquant] at hnot
      cases hnot
  · rcases onlyIf_ok h₃ with ⟨hnot, _⟩ | ⟨_, rfl⟩
    · rw [hquant] at hnot
      cases hnot
    · exact ⟨bookValue_same (s₂.trans s₆) (by decide), (s₂.trans s₆).read (by decide)⟩

theorem sameBut_cioShape (mi : Bool) (d : Dict PyJson) :
    Dict.SameBut (["cash_target_pct", "portfolio_action"] ++ cioKeys mi ++ ["symbol_actions"] ++
      ["cash_target_pct"]) d (cioShape t mi d) := by
  obtain ⟨d', hsame, hshape⟩ := cioShape_eq (t := t) mi d
  rw [hshape]
  exact (((sameBut_unwrapPortfolioAction d).trans hsame).trans (Dict.sameBut_ensure _ _ _)).trans
    (Dict.sameBut_ensure _ _ _)

theorem contains_agentShapeFixes (h : agentShapeFixes t out = .ok out') :
    Dict.contains out' "confidence" = Dict.contains out "confidence" := by
  have s₀ := sameBut_renameAsOf out
  obtain ⟨d₁, h₁, h⟩ := bind_ok_iff.mp h
  have s₂ := (s₀.trans (sameBut_onlyIf (fun _ _ => sameBut_fixMarketIntelligence) h₁)).trans
    (Dict.sameBut_adjust d₁ "expected_sector_impact" (normalizeSectorImpact t))
  obtain ⟨d₃, h₃, h⟩ := bind_ok_iff.mp h
  have s₃ := s₂.trans (sameBut_onlyIf (fun _ _ => sameBut_fixQuant) h₃)
  obtain ⟨d₅, h₅, h⟩ := bind_ok_iff.mp h
  have s₅ := sameBut_onlyIf (fun _ _ => sameBut_fixDevil) h₅
  dsimp only at h h₅ s₅
  have hrisk : ∀ {c : Bool}, Dict.contains (if c = true then fixRisk t d₃ else d₃) "confidence" =
      Dict.contains d₃ "confidence" := by
    intro c
    split
    · exact (sameBut_fixRisk d₃).contains (by decide)
    · rfl
  have hmacro : ∀ {c cio : Bool},
      Dict.contains (if c = true then fixMacro t cio d₅ else d₅) "confidence" =
        Dict.contains d₅ "confidence" := by
    intro c cio
    split
    · exact (sameBut_fixMacro cio d₅).contains (by decide)
    · rfl
  have hbefore := ((s₅.contains (by decide)).trans hrisk).trans
    (s₃.contains (k := "confidence") (by decide))
  rw [← hbefore, ← hmacro]
  split at h
  · have hcio : ∀ mi, "confidence" ∉ ["cash_target_pct", "portfolio_action"] ++ cioKeys mi ++
        ["symbol_actions"] ++ ["cash_target_pct"] := by
      intro mi
      cases mi <;> decide
    exact ((sameBut_recomputePosture h).contains (by decide)).trans
      ((sameBut_cioShape _ _).contains (hcio _))
  · rw [← pure_ok_iff.mp h]

end Root

end Investor.Agents.Reply
