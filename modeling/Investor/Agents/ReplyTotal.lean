import Investor.Agents.ReplyRaises

/-!
# When the sanitizer returns

`ReplyTame` is the condition on a reply under which `sanitizeForModel` returns, whatever the
model. Where the objects under `scenarios` are ordinary nothing less will do.
-/

namespace Investor.Agents.Reply

open Lib Schema Market Universe

/-! ## The condition -/

section Condition

variable [Casing]

def actionText (key : String) : PyJson → Option String
  | .str s =>
    some (match Dict.get? enumOfField key with
      | some table => coerceEnumValue table s
      | none => s)
  | _ => none

/-- The action of the book, if it is a text: a nested one is taken out of its object. -/
def bookAction (entries : Dict PyJson) : Option String :=
  match Dict.read entries "portfolio_action" with
  | .obj raw =>
    let pa := aliased raw []
    if Dict.contains pa "portfolio_action" then
      actionText "portfolio_action" (Dict.read pa "portfolio_action")
    else if Dict.contains pa "action" then actionText "action" (Dict.read pa "action")
    else actionText "value" (Dict.read pa "value")
  | v => actionText "portfolio_action" v

/-- An item of `symbol_actions` whose kind can be hashed. -/
def readablePlan : PyJson → Bool
  | .obj raw =>
    match Dict.get? (aliased raw []) "action" with
    | some kind => !kind.isContainer
    | none => false
  | v => !v.isContainer

/-- What stands under `symbol_actions` can be iterated, and each item's kind hashed. -/
def readablePlans : PyJson → Bool
  | .arr items => items.all readablePlan
  | .null | .str _ | .obj _ => true
  | v => !v.truthy

/-- The last repairs return: the events that are normalized again, the views that take their probability
    from a confidence, and the plans under a `HOLD`. -/
structure RootTame (entries : Dict PyJson) : Prop where
  events : ∀ items, Dict.read entries "market_events" = .arr items → ∀ ev, .obj ev ∈ items →
    badImportance (Dict.read (aliased ev []) "importance") = false
  views : ∀ items, Dict.read entries "symbol_views" = .arr items → ∀ view, .obj view ∈ items →
    Dict.contains (aliased view []) "probability_estimate" = true ∨
      (Dict.read (aliased view []) "confidence").isHuge = false
  plans : Dict.contains entries "symbol_views" = false →
    Dict.contains entries "market_trend_state" = false → ∀ s, bookAction entries = some s →
      Casing.upper s ∈ ["HOLD", "NO_TRADE"] →
        readablePlans (Dict.read entries "symbol_actions") = true

structure ReplyTame (data : Dict PyJson) : Prop where
  entries : EntriesTame data []
  object : ObjectTame (aliased data [])
  root : RootTame (aliased data [])

end Condition

section Total

variable {A D D' : Dict PyJson} {key : Option String} {v w : PyJson}

/-! ## Events and views -/

theorem objects_walk [Casing] {t : Runtime} {P Q : Dict PyJson → Prop} (h : walk t v key = .ok w)
    (hPQ : ∀ raw d d', walkEntries t raw [] = .ok d → finishObject t key d = .ok d' →
      (P d' ↔ Q raw)) :
    (∀ items, w = .arr items → ∀ ev, .obj ev ∈ items → P ev) ↔
      ∀ items, v = .arr items → ∀ raw, .obj raw ∈ items → Q raw := by
  cases v with
  | arr items =>
    obtain ⟨items', hitems, rfl⟩ := walk_arr.mp h
    constructor
    · intro hP items₀ heq raw hraw
      rw [← PyJson.arr.inj heq] at hraw
      obtain ⟨i, hi, hget⟩ := List.getElem_of_mem hraw
      have hi' : i < items'.length := hitems.length_eq ▸ hi
      have hwalk := hitems.get hi hi'
      rw [List.get_eq_getElem, hget] at hwalk
      obtain ⟨d, d', hd, hd', hobj⟩ := walk_obj.mp hwalk
      exact (hPQ raw d d' hd hd').mp (hP items' rfl d' (hobj ▸ List.getElem_mem hi'))
    · intro hQ items₀ heq ev hev
      rw [← PyJson.arr.inj heq] at hev
      obtain ⟨i, hi, hget⟩ := List.getElem_of_mem hev
      have hi' : i < items.length := hitems.length_eq ▸ hi
      have hwalk := hitems.get hi' hi
      rw [List.get_eq_getElem, List.get_eq_getElem, hget] at hwalk
      cases hraw : items[i] with
      | obj raw =>
        rw [hraw] at hwalk
        obtain ⟨d, d', hd, hd', hobj⟩ := walk_obj.mp hwalk
        rw [PyJson.obj.inj hobj]
        exact (hPQ raw d d' hd hd').mpr (hQ items rfl raw (hraw ▸ List.getElem_mem hi'))
      | arr raw =>
        rw [hraw] at hwalk
        obtain ⟨_, _, hobj⟩ := walk_arr.mp hwalk
        cases hobj
      | _ =>
        rw [hraw] at hwalk
        cases (kept_walk hwalk).container
  | obj entries =>
    obtain ⟨_, _, _, _, rfl⟩ := walk_obj.mp h
    exact iff_of_true (fun _ heq => nomatch heq) (fun _ heq => nomatch heq)
  | _ =>
    have hcontainer := (kept_walk h).container
    refine iff_of_true (fun items heq => ?_) (fun _ heq => nomatch heq)
    rw [heq] at hcontainer
    cases hcontainer

theorem eventsFit_iff [Casing] {t : Runtime} (hw : Walks t A D) (hfin : ObjectFinished D D') :
    EventsFit D' ↔ ∀ items, Dict.read A "market_events" = .arr items → ∀ ev, .obj ev ∈ items →
      badImportance (Dict.read (aliased ev []) "importance") = false := by
  unfold EventsFit
  rw [hfin.same.read (by decide)]
  refine objects_walk (hw.read "market_events") fun raw d d' hd hd' => ?_
  rw [(objectFinished hd').importance, badImportance_walk ((walks_aliased walks_nil hd).read _)]

theorem viewsFit_iff [Casing] {t : Runtime} (hw : Walks t A D) (hfin : ObjectFinished D D') :
    ViewsFit D' ↔ ∀ items, Dict.read A "symbol_views" = .arr items → ∀ view, .obj view ∈ items →
      Dict.contains (aliased view []) "probability_estimate" = true ∨
        (Dict.read (aliased view []) "confidence").isHuge = false := by
  unfold ViewsFit
  rw [hfin.same.read (by decide)]
  refine objects_walk (hw.read "symbol_views") fun raw d d' hd hd' => ?_
  have hwalks := walks_aliased walks_nil hd
  have hsame := (objectFinished hd').same
  rw [hsame.contains (by decide), hsame.read (by decide), hwalks.contains, hwalks.isHuge]

/-! ## The action of the book -/

theorem holds_walk [Casing] {t : Runtime} {key : String} (hbool : key ∉ BOOL_FIELDS) (hscore : isScore key = false)
    (h : walk t v (some key) = .ok w) :
    Casing.upper (t.text (w.orElse (.str ""))) ∈ ["HOLD", "NO_TRADE"] ↔
      ∃ s, actionText key v = some s ∧ Casing.upper s ∈ ["HOLD", "NO_TRADE"] := by
  have hother : w.isStr = false →
      Casing.upper (t.text (w.orElse (.str ""))) ∉ ["HOLD", "NO_TRADE"] := by
    intro hw
    unfold PyJson.orElse
    split
    · have htext : t.text w = t.str w := by
        cases w with
        | str s => cases hw
        | _ => rfl
      rw [htext]
      exact t.str_no_action w hw
    · exact upper_empty
  have hscore' : ¬ (key ∈ SCORE_FIELDS ∨ endsWith key "_score" = true) := by
    simpa [isScore, hbool] using hscore
  cases v with
  | str s =>
    rw [walk_leaf rfl] at h
    have hw : w = .str (match Dict.get? enumOfField key with
        | some table => coerceEnumValue table s
        | none => s) := by
      unfold walkLeaf at h
      dsimp only at h
      rw [if_neg hbool, if_neg hscore'] at h
      cases htable : Dict.get? enumOfField key with
      | none =>
        rw [htable] at h
        exact (Except.ok.inj h).symm
      | some table =>
        rw [htable] at h
        exact (Except.ok.inj h).symm
    have htext : ∀ s : String, t.text ((PyJson.str s).orElse (.str "")) = s := by
      intro s
      unfold PyJson.orElse PyJson.truthy
      by_cases hempty : s = ""
      · rw [hempty]
        rfl
      · simp [hempty, Runtime.text]
    rw [hw, htext]
    simp [actionText]
  | obj entries =>
    obtain ⟨_, _, _, _, rfl⟩ := walk_obj.mp h
    simpa [actionText] using hother rfl
  | arr items =>
    obtain ⟨_, _, rfl⟩ := walk_arr.mp h
    simpa [actionText] using hother rfl
  | _ =>
    rw [walk_leaf rfl] at h
    unfold walkLeaf at h
    dsimp only at h
    rw [if_neg hbool, if_neg hscore'] at h
    cases h
    simpa [actionText] using hother rfl

theorem firstPresent (d : Dict PyJson) (a b c : String) :
    ((Dict.get? d a).or ((Dict.get? d b).or (Dict.get? d c))).getD .null =
      if Dict.contains d a then Dict.read d a
      else if Dict.contains d b then Dict.read d b
      else Dict.read d c := by
  simp only [Dict.contains_iff]
  unfold Dict.read
  cases Dict.get? d a with
  | some v => rfl
  | none =>
    cases Dict.get? d b with
    | some v => rfl
    | none => rfl

theorem bookAction_iff [Casing] {t : Runtime} (hw : Walks t A D) (hfin : ObjectFinished D D') :
    Casing.upper (t.text ((bookValue D').orElse (.str ""))) ∈ ["HOLD", "NO_TRADE"] ↔
      ∃ s, bookAction A = some s ∧ Casing.upper s ∈ ["HOLD", "NO_TRADE"] := by
  have hread := hw.read "portfolio_action"
  have hbook : Dict.read D' "portfolio_action" = Dict.read D "portfolio_action" :=
    hfin.same.read (by decide)
  have hplain : (∀ entries, Dict.read D "portfolio_action" ≠ .obj entries) →
      bookValue D' = Dict.read D "portfolio_action" := by
    intro hnot
    unfold bookValue
    rw [hbook]
    split
    · rename_i pa hpa
      exact absurd hpa (hnot pa)
    · rfl
  unfold bookAction
  cases hv : Dict.read A "portfolio_action" with
  | obj raw =>
    rw [hv] at hread
    obtain ⟨d, d', hd, hd', heq⟩ := walk_obj.mp hread
    have hws := walks_aliased walks_nil hd
    have hsame := (objectFinished hd').same
    have hget : ∀ k ∉ FINISHED_KEYS, Dict.get? d' k = Dict.get? d k := hsame
    unfold bookValue
    rw [hbook, heq]
    dsimp only
    rw [hget _ (by decide), hget _ (by decide), hget _ (by decide), firstPresent,
      hws.contains, hws.contains]
    split
    · exact holds_walk (by decide) (by decide) (hws.read _)
    · split
      · exact holds_walk (by decide) (by decide) (hws.read _)
      · exact holds_walk (by decide) (by decide) (hws.read _)
  | arr items =>
    rw [hv] at hread
    obtain ⟨items', _, heq⟩ := walk_arr.mp hread
    rw [hplain (by simp [heq])]
    exact holds_walk (by decide) (by decide) hread
  | _ =>
    rw [hv] at hread
    rw [hplain fun entries hentries => ?_]
    · exact holds_walk (by decide) (by decide) hread
    · rw [hentries] at hread
      cases (kept_walk hread).container

/-! ## The plans -/

theorem sameBut_scaleConfidence (plan : Dict PyJson) :
    Dict.SameBut ["confidence"] plan (scaleConfidence plan) := by
  unfold scaleConfidence
  split
  · split
    · exact Dict.sameBut_set _ _ _
    · exact Dict.SameBut.refl
  · exact Dict.SameBut.refl

theorem action_fillSymbolActionDefaults {plan plan' : Dict PyJson}
    (h : fillSymbolActionDefaults plan = .ok plan') :
    Dict.get? plan' "action" = Dict.get? plan "action" := by
  obtain ⟨d, hd, h⟩ := bind_ok_iff.mp h
  rw [← pure_ok_iff.mp h]
  exact (((sameBut_planDefaults plan).trans (Dict.sameBut_adjustM hd)).trans
    (sameBut_scaleConfidence d)) "action" (by decide)

theorem returns_kindText [Casing] {t : Runtime} {item : PyJson} : Returns (kindText t item) ↔
    match item with
    | .obj entries => ∃ kind, Dict.get? entries "action" = some kind ∧ kind.isContainer = false
    | v => v.isContainer = false := by
  unfold kindText
  cases item with
  | obj entries =>
    dsimp only
    cases Dict.get? entries "action" with
    | none => simp [PyJson.isContainer]
    | some kind => cases hkind : kind.isContainer <;> simp [hkind]
  | _ => simp [PyJson.isContainer]

theorem returns_kindText_filled [Casing] {t : Runtime} {item walked filled : PyJson}
    (hwalk : walk t item (some "symbol_actions") = .ok walked)
    (hfill : (match walked with
      | .obj plan => do
        let plan ← fillSymbolActionDefaults plan
        return PyJson.obj plan
      | v => .ok v) = .ok filled) :
    Returns (kindText t filled) ↔ readablePlan item = true := by
  rw [returns_kindText]
  cases item with
  | obj raw =>
    obtain ⟨d, d', hd, hd', rfl⟩ := walk_obj.mp hwalk
    obtain ⟨plan, hplan, hfilled⟩ := bind_ok_iff.mp hfill
    rw [← pure_ok_iff.mp hfilled]
    have hws := walks_aliased walks_nil hd
    have haction : Dict.get? plan "action" = Dict.get? d "action" :=
      (action_fillSymbolActionDefaults hplan).trans
        ((objectFinished hd').same "action" (by decide))
    have hcontains := hws.contains "action"
    have hread := hws.read "action"
    unfold readablePlan
    dsimp only
    rw [haction]
    rw [Bool.eq_iff_iff, Dict.contains_iff, Dict.contains_iff] at hcontains
    unfold Dict.read at hread
    cases hraw : Dict.get? (aliased raw []) "action" with
    | none =>
      rw [hraw] at hcontains
      cases hkind : Dict.get? d "action" with
      | none => simp
      | some kind =>
        rw [hkind] at hcontains
        cases hcontains.mp rfl
    | some kind =>
      rw [hraw] at hcontains hread
      cases hwalked : Dict.get? d "action" with
      | none =>
        rw [hwalked] at hcontains
        cases hcontains.mpr rfl
      | some kind' =>
        rw [hwalked] at hread
        have hkept : kind'.isContainer = kind.isContainer := (kept_walk hread).container
        simp [hkept]
  | arr items =>
    obtain ⟨_, _, rfl⟩ := walk_arr.mp hwalk
    cases hfill
    simp [readablePlan, PyJson.isContainer]
  | _ =>
    have hcontainer := (kept_walk hwalk).container
    have hfilled : filled = walked := by
      cases walked with
      | obj entries => cases hcontainer
      | _ => exact (Except.ok.inj hfill).symm
    rw [hfilled]
    cases walked with
    | obj entries => cases hcontainer
    | arr items => cases hcontainer
    | _ => simp [readablePlan, PyJson.isContainer]

theorem plansRead_iff [Casing] {t : Runtime} {filled : PyJson} (hwalk : walk t v (some "symbol_actions") = .ok w)
    (hfill : fillPlans w = .ok filled) : PlansRead t filled ↔ readablePlans v = true := by
  have hleaf : v.isContainer = false → filled = v := by
    intro hleaf
    rw [walk_leaf hleaf, walkLeaf_plain (by decide) (by decide) (by decide)] at hwalk
    cases hwalk
    cases v with
    | arr items => cases hleaf
    | obj entries => cases hleaf
    | _ => exact (Except.ok.inj hfill).symm
  have hnumber : ∀ u : PyJson, itemsOf u = .error .typeError →
      (PlansRead t u ↔ u.truthy = false) := by
    intro u hu
    unfold PlansRead
    rw [hu]
    simp [Bind.bind, Except.bind]
  cases v with
  | arr items =>
    obtain ⟨ws, hws, rfl⟩ := walk_arr.mp hwalk
    obtain ⟨us, hus, hfilled⟩ := bind_ok_iff.mp hfill
    rw [← pure_ok_iff.mp hfilled]
    rw [mapM_ok_iff] at hus
    have hreads : (∀ item ∈ us, Returns (kindText t item)) ↔
        ∀ item ∈ items, readablePlan item = true := by
      clear hwalk hfill hfilled hleaf
      induction hws generalizing us with
      | nil =>
        cases hus
        simp
      | cons hhead _ ih =>
        cases hus with
        | cons hfirst hrest =>
          rw [List.forall_mem_cons, List.forall_mem_cons, returns_kindText_filled hhead hfirst,
            ih _ hrest]
    have hplans : Returns (itemsOf (.arr us) >>= fun items => items.mapM (kindText t)) ↔
        ∀ item ∈ us, Returns (kindText t item) := returns_mapM
    unfold PlansRead readablePlans
    rw [hplans, List.all_eq_true, ← hreads]
    cases us with
    | nil => simp
    | cons u us => simp [PyJson.truthy]
  | obj entries =>
    obtain ⟨d, d', _, _, rfl⟩ := walk_obj.mp hwalk
    cases hfill
    refine iff_of_true (fun _ => ?_) rfl
    refine returns_bind.mpr ⟨returns_ok _, fun items hitems => returns_mapM.mpr fun item hitem => ?_⟩
    rw [← Except.ok.inj hitems] at hitem
    obtain ⟨e, _, rfl⟩ := List.mem_map.mp hitem
    exact returns_kindText.mpr rfl
  | str s =>
    rw [hleaf rfl]
    refine iff_of_true (fun _ => ?_) rfl
    refine returns_bind.mpr ⟨returns_ok _, fun items hitems => returns_mapM.mpr fun item hitem => ?_⟩
    rw [← Except.ok.inj hitems] at hitem
    obtain ⟨c, _, rfl⟩ := List.mem_map.mp hitem
    exact returns_kindText.mpr rfl
  | null =>
    rw [hleaf rfl]
    exact iff_of_true (fun h => by cases h) rfl
  | _ =>
    rw [hleaf rfl, hnumber _ rfl]
    simp [readablePlans]

/-! ## The payload -/

theorem postureFit_iff [Casing] {t : Runtime} (hw : Walks t A D) (hfin : ObjectFinished D D') :
    PostureFit t D' ↔ (Dict.contains A "symbol_views" = false →
      Dict.contains A "market_trend_state" = false → ∀ s, bookAction A = some s →
        Casing.upper s ∈ ["HOLD", "NO_TRADE"] →
          readablePlans (Dict.read A "symbol_actions") = true) := by
  have hquant : (looksOf D').quant = false ↔ Dict.contains A "symbol_views" = false ∧
      Dict.contains A "market_trend_state" = false := by
    unfold looksOf
    rw [← hw.contains, ← hw.contains, ← hfin.same.contains (k := "symbol_views") (by decide),
      ← hfin.same.contains (k := "market_trend_state") (by decide)]
    simp
  unfold PostureFit
  rw [hquant, bookAction_iff hw hfin, plansRead_iff (hw.read "symbol_actions") hfin.plans]
  constructor
  · intro h hviews htrend s hs hhold
    exact h ⟨hviews, htrend⟩ ⟨s, hs, hhold⟩
  · rintro h ⟨hviews, htrend⟩ ⟨s, hs, hhold⟩
    exact h hviews htrend s hs hhold

theorem returns_root [Casing] {t : Runtime} (hw : Walks t A D) (hfinish : finishObject t none D = .ok D') :
    Returns (agentShapeFixes t D') ↔ RootTame A := by
  have hfin := objectFinished hfinish
  have hviews : ∀ items, Dict.read D' "symbol_views" = .arr items → ∀ item ∈ items, Walked item := by
    intro items hitems
    rw [hfin.same.read (by decide)] at hitems
    exact hw.itemsWalked hitems
  have hchallenge : (Dict.read D' "challenge_score").isHuge = false := by
    rw [hfin.same.read (by decide)]
    exact isHuge_walkedScore (by decide) (by decide) (hw.read "challenge_score")
  rw [returns_agentShapeFixes hviews hchallenge, eventsFit_iff hw hfin, viewsFit_iff hw hfin,
    postureFit_iff hw hfin]
  constructor
  · rintro ⟨hevents, hviews, hplans⟩
    exact ⟨hevents, hviews, hplans⟩
  · rintro ⟨hevents, hviews, hplans⟩
    exact ⟨hevents, hviews, hplans⟩

variable {data : Dict PyJson}

theorem returns_sanitizeLlmPayload_of_tame [Casing] {t : Runtime} (h : ReplyTame data) :
    Returns (sanitizeLlmPayload t data) := by
  unfold sanitizeLlmPayload
  refine returns_bind.mpr ⟨(returns_walkEntries data walks_nil).1 h.entries, fun d hd => ?_⟩
  have hw := walks_aliased walks_nil hd
  refine returns_bind.mpr ⟨(returns_finishObject hw.plansWalked).mpr
    (objectFit_of_tame hw h.object), fun d' hd' => ?_⟩
  exact (returns_root hw hd').mpr h.root

theorem tame_of_returns [Casing] {t : Runtime} (hordinary : Ordinary (.obj data))
    (h : Returns (sanitizeLlmPayload t data)) : ReplyTame data := by
  rw [Ordinary] at hordinary
  obtain ⟨hentries, hrest⟩ := returns_bind.mp h
  obtain ⟨d, hd⟩ := returns_iff.mp hentries
  have hw := walks_aliased walks_nil hd
  obtain ⟨hobject, hroot⟩ := returns_bind.mp (hrest d hd)
  obtain ⟨d', hd'⟩ := returns_iff.mp hobject
  exact
    { entries := (returns_walkEntries data walks_nil).2 hordinary.1 hentries
      object := objectTame_of_fit hw hordinary.2 (objectFinished hd').fit
      root := (returns_root hw hd').mp (hroot d' hd') }

/-! ## What the model requires -/

variable {k : String}

theorem contains_set {d : Dict PyJson} {k' : String} {v : PyJson}
    (h : Dict.contains d k = true ∨ k = k') : Dict.contains (Dict.set d k' v) k = true := by
  rw [Dict.contains_iff] at h ⊢
  by_cases hkey : k' = k
  · rw [hkey, Dict.get?_set_self]
    rfl
  · rw [Dict.get?_set_of_ne d v hkey]
    exact h.resolve_right fun heq => hkey heq.symm

theorem contains_walkEntries [Casing] {t : Runtime} {entries : List (String × PyJson)}
    (h : walkEntries t entries D = .ok D') (hD : Dict.contains D k = true) :
    Dict.contains D' k = true := by
  induction entries generalizing D with
  | nil =>
    rw [walkEntries] at h
    cases h
    exact hD
  | cons e rest ih =>
    obtain ⟨k', v⟩ := e
    rw [walkEntries] at h
    split_ifs at h
    · exact ih h hD
    · obtain ⟨w, _, hrest⟩ := bind_ok_iff.mp h
      exact ih hrest (contains_set (Or.inl hD))

theorem walkEntries_field [Casing] {t : Runtime} {entries : List (String × PyJson)}
    (h : walkEntries t entries D = .ok D') (he : (k, v) ∈ entries) (hname : fieldName k = k) :
    Returns (walk t v (some k)) ∧ Dict.contains D' k = true := by
  induction entries generalizing D with
  | nil => cases he
  | cons e rest ih =>
    obtain ⟨k', v'⟩ := e
    rw [walkEntries] at h
    rcases List.mem_cons.mp he with heq | hmem
    · cases heq
      rw [if_neg fun hskip => hskip.2 hname.symm] at h
      obtain ⟨w, hw, hrest⟩ := bind_ok_iff.mp h
      rw [hname] at hw hrest
      exact ⟨returns_iff.mpr ⟨w, hw⟩, contains_walkEntries hrest (contains_set (Or.inr rfl))⟩
    · split_ifs at h
      · exact ih h hmem
      · obtain ⟨w, _, hrest⟩ := bind_ok_iff.mp h
        exact ih hrest hmem

variable {fields : ModelFields} {name : String}

theorem returns_restoreOne {source pruned : Dict PyJson} {fallback : PyJson} {percentOk : Bool}
    (h : Dict.contains pruned name = true ∨ fields.requires name = false ∨
      (Dict.read source name).isHuge = false) :
    Returns (restoreOne fields source pruned name fallback percentOk) := by
  unfold restoreOne
  split
  · exact returns_pure _
  · rename_i hrestore
    rw [Bool.or_eq_true, Bool.not_eq_true', not_or, Bool.not_eq_true] at hrestore
    have hsmall := (h.resolve_left (by simp [hrestore.1])).resolve_left hrestore.2
    rw [bind_pure_comp, returns_map]
    unfold restoreScore
    dsimp only
    split
    · exact returns_pure _
    · rw [bind_pure_comp, returns_map]
      exact returns_clampUnit.mpr hsmall

theorem sameBut_restoreOne {source pruned pruned' : Dict PyJson} {fallback : PyJson}
    {percentOk : Bool} (h : restoreOne fields source pruned name fallback percentOk = .ok pruned') :
    Dict.SameBut [name] pruned pruned' := by
  unfold restoreOne at h
  split at h
  · rw [← pure_ok_iff.mp h]
    exact Dict.SameBut.refl
  · obtain ⟨score, _, h⟩ := bind_ok_iff.mp h
    rw [← pure_ok_iff.mp h]
    exact Dict.sameBut_set _ _ _

variable [Casing] {t : Runtime}

theorem contains_pruneFields (hname : fields.requires name = true) (h : Dict.contains D name = true) :
    Dict.contains (pruneFields t fields D) name = true := by
  unfold ModelFields.requires at hname
  rw [List.any_eq_true] at hname
  obtain ⟨f, hf, hrequired⟩ := hname
  rw [Bool.and_eq_true, decide_eq_true_eq] at hrequired
  induction fields with
  | nil => cases hf
  | cons f' rest ih =>
    obtain ⟨name', required, kind⟩ := f'
    rw [pruneFields]
    rcases List.mem_cons.mp hf with rfl | hmem
    · obtain ⟨v, hv⟩ := Option.isSome_iff_exists.mp (Dict.contains_iff.mp h)
      rw [← hrequired.1] at hv ⊢
      rw [hv]
      simp [Dict.contains]
    · split
      · unfold Dict.contains
        rw [List.any_cons, Bool.or_eq_true]
        exact Or.inr (ih hmem)
      · exact ih hmem

theorem returns_restoreStrippedScores {cleaned : Dict PyJson}
    (h : sanitizeLlmPayload t data = .ok cleaned) :
    Returns (restoreStrippedScores fields data (pruneFields t fields cleaned)) := by
  obtain ⟨d, hd, h⟩ := bind_ok_iff.mp h
  obtain ⟨d', hd', h⟩ := bind_ok_iff.mp h
  have hentry : ∀ k, (Dict.read data k).isHuge = true → ∃ v, (k, v) ∈ data ∧ v.isHuge = true := by
    intro k hhuge
    unfold Dict.read at hhuge
    cases hget : Dict.get? data k with
    | none =>
      rw [hget] at hhuge
      cases hhuge
    | some v =>
      rw [hget] at hhuge
      exact ⟨v, Dict.mem_of_get? hget, hhuge⟩
  have hquality : (Dict.read data "data_quality_score").isHuge = false := by
    rw [Bool.eq_false_iff]
    intro hhuge
    obtain ⟨v, hmem, hv⟩ := hentry _ hhuge
    obtain ⟨w, hw⟩ := returns_iff.mp (walkEntries_field hd hmem (by decide)).1
    have hsmall := isHuge_walkedScore (by decide) (by decide) hw
    rw [(kept_walk hw).huge, hv] at hsmall
    cases hsmall
  have hconfidence : Dict.contains (pruneFields t fields cleaned) "confidence" = true ∨
      fields.requires "confidence" = false ∨ (Dict.read data "confidence").isHuge = false := by
    cases hhuge : (Dict.read data "confidence").isHuge with
    | false => exact Or.inr (Or.inr rfl)
    | true =>
      obtain ⟨v, hmem, _⟩ := hentry _ hhuge
      have hthere := (walkEntries_field hd hmem (by decide)).2
      have hcleaned : Dict.contains cleaned "confidence" = true := by
        rw [contains_agentShapeFixes h, (objectFinished hd').same.contains (by decide)]
        exact hthere
      cases hrequires : fields.requires "confidence" with
      | false => exact Or.inr (Or.inl rfl)
      | true => exact Or.inl (contains_pruneFields hrequires hcleaned)
  unfold restoreStrippedScores
  refine returns_bind.mpr ⟨returns_restoreOne (Or.inr (Or.inr hquality)), fun d₁ h₁ => ?_⟩
  refine returns_bind.mpr ⟨returns_restoreOne ?_, fun d₂ _ => returns_pure _⟩
  rw [(sameBut_restoreOne h₁).contains (by decide)]
  exact hconfidence

theorem returns_sanitizeForModel_iff (model : AgentModel) :
    Returns (sanitizeForModel t model data) ↔ Returns (sanitizeLlmPayload t data) := by
  unfold sanitizeForModel
  rw [returns_bind]
  refine and_iff_left fun cleaned hcleaned => ?_
  dsimp only
  rw [bind_pure_comp, returns_map]
  exact returns_restoreStrippedScores hcleaned

/-- The sanitizer returns on a tame reply for every model, and on no other reply whose scenarios are
    ordinary. -/
theorem sanitizeForModel_returns (t : Runtime) (model : AgentModel) (data : Dict PyJson) :
    (ReplyTame data → Returns (sanitizeForModel t model data)) ∧
      (Ordinary (.obj data) → (Returns (sanitizeForModel t model data) ↔ ReplyTame data)) := by
  rw [returns_sanitizeForModel_iff]
  exact ⟨returns_sanitizeLlmPayload_of_tame, fun hordinary =>
    ⟨tame_of_returns hordinary, returns_sanitizeLlmPayload_of_tame⟩⟩

end Total

section Sample

attribute [local instance] asciiCasing

def sampleRuntime : Runtime where
  str := fun _ => "None"
  dumps := fun _ => "\x7b\x7d"
  now := "2026-01-05T10:00:00Z"
  str_no_action := fun _ _ => by decide

def challengeOfNan : Dict PyJson := [("challenge_score", .float .nan), ("prefer_no_trade", .str "yes")]

theorem challengeOfNan_tame : ReplyTame challengeOfNan := by
  have hnamed : aliased challengeOfNan [] = challengeOfNan := rfl
  have hplain : isEvent challengeOfNan = true →
      badImportance (Dict.read challengeOfNan "importance") = false := fun h => absurd h (by decide)
  refine ⟨?_, ?_, ?_⟩
  · simp [challengeOfNan, EntriesTame, Tame, leafTame]
  · rw [hnamed]
    exact ⟨rfl, rfl, rfl, rfl, rfl, hplain, rfl⟩
  · rw [hnamed]
    refine ⟨fun _ h => ?_, fun _ h => ?_, fun _ _ _ h => ?_⟩
    · cases h
    · cases h
    · cases h

theorem challengeOfNan_ordinary : Ordinary (.obj challengeOfNan) := by
  rw [Ordinary]
  refine ⟨?_, fun scenarios h => ?_⟩
  · simp [challengeOfNan, EntriesOrdinary, Ordinary]
  · cases h

theorem challengeOfNan_returns :
    Returns (sanitizeForModel sampleRuntime .devilsAdvocate challengeOfNan) ∧
      (Returns (sanitizeForModel sampleRuntime .devilsAdvocate challengeOfNan) ↔
        ReplyTame challengeOfNan) :=
  ⟨(sanitizeForModel_returns _ _ _).1 challengeOfNan_tame,
    (sanitizeForModel_returns _ _ _).2 challengeOfNan_ordinary⟩

/-- A crowd that is rated 5 has no `lower()`. -/
theorem crowd_rated_raises :
    ¬ ∀ (model : AgentModel) (data : Dict PyJson),
      Returns (sanitizeForModel sampleRuntime model data) := by
  intro h
  exact absurd (h .devilsAdvocate [("crowd_trade_risk", .int 5)]) (by decide +kernel)

example : ¬ Returns (sanitizeForModel sampleRuntime .marketIntelligence
    [("market_events", .arr [.obj [("importance", .float .nan)]])]) := by decide +kernel

end Sample

end Investor.Agents.Reply
