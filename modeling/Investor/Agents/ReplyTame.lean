import Investor.Agents.ReplyFinish

/-!
# The replies that the walk gets through

`Tame` is said of the reply as it came: the walk renames the fields of an object (`aliased`), and
on the renamed entries each of the object's repairs has its condition (`ObjectTame`).
`returns_walk` follows the walk through the reply. Under `scenarios` the split reads what the walk
has left, and there the condition is exact as long as the object of scenarios is `Ordinary`.
-/

namespace Investor.Agents.Reply

open Lib Schema Market Universe

/-! ## The condition -/

/-- The entries of an object under the names of their fields, before they are walked. -/
def aliased : List (String × PyJson) → Dict PyJson → Dict PyJson
  | [], out => out
  | (k, v) :: rest, out =>
    if Dict.contains out (fieldName k) ∧ k ≠ fieldName k then aliased rest out
    else aliased rest (Dict.set out (fieldName k) v)

def isScore (key : String) : Bool :=
  key ∉ BOOL_FIELDS ∧ (key ∈ SCORE_FIELDS ∨ endsWith key "_score")

/-- A score that is too large for a float is a confidence, which may stay above 1. -/
def leafTame : Option String → PyJson → Bool
  | some key, .int n =>
    !isScore key || !(PyJson.int n).isHuge || (decide (key = "confidence") && decide (1 < n))
  | _, _ => true

/-- What a split reads of `scenarios` is not too large for a float. -/
def ScenariosTame (upOpen downOpen : Bool) : PyJson → Prop
  | .obj entries =>
    EntriesAre (fun v => v.isHuge = false) upOpen downOpen (aliased entries []) ∧
      (StaysOpen upOpen downOpen (aliased entries []) → isEvent (aliased entries []) = true →
        interpretationFits (aliased entries []) = true)
  | .arr items => ∀ item ∈ items, item.isHuge = false
  | v => v.isHuge = false

structure ObjectTame (entries : Dict PyJson) : Prop where
  cash : (Dict.read entries "cash_target_pct").isHuge = false
  zone : zoneOverflows (Dict.read entries "entry_zone") = false
  upside : (Dict.read entries "upside_scenario").isHuge = false
  downside : (Dict.read entries "downside_scenario").isHuge = false
  scenarios : ScenariosTame (Dict.read entries "upside_scenario").isNull
    (Dict.read entries "downside_scenario").isNull (Dict.read entries "scenarios")
  importance : isEvent entries = true → badImportance (Dict.read entries "importance") = false
  crowd : crowdRaises (Dict.read entries "crowd_trade_risk") = false

mutual

def Tame : PyJson → Option String → Prop
  | .obj entries, _ => EntriesTame entries [] ∧ ObjectTame (aliased entries [])
  | .arr items, key => ItemsTame items key
  | v, key => leafTame key v = true

def EntriesTame : List (String × PyJson) → Dict PyJson → Prop
  | [], _ => True
  | (k, v) :: rest, out =>
    if Dict.contains out (fieldName k) ∧ k ≠ fieldName k then EntriesTame rest out
    else Tame v (some (fieldName k)) ∧ EntriesTame rest (Dict.set out (fieldName k) v)

def ItemsTame : List PyJson → Option String → Prop
  | [], _ => True
  | item :: rest, key => Tame item key ∧ ItemsTame rest key

end

/-- An object under `scenarios` is no event and has no `scenarios` of its own. -/
def ScenariosOrdinary (entries : Dict PyJson) : Prop :=
  ∀ scenarios, Dict.read entries "scenarios" = .obj scenarios →
    isEvent (aliased scenarios []) = false ∧ Dict.contains (aliased scenarios []) "scenarios" = false

mutual

/-- The objects under `scenarios` are ordinary, wherever they stand. -/
def Ordinary : PyJson → Prop
  | .obj entries => EntriesOrdinary entries ∧ ScenariosOrdinary (aliased entries [])
  | .arr items => ItemsOrdinary items
  | _ => True

def EntriesOrdinary : List (String × PyJson) → Prop
  | [] => True
  | (_, v) :: rest => Ordinary v ∧ EntriesOrdinary rest

def ItemsOrdinary : List PyJson → Prop
  | [] => True
  | item :: rest => Ordinary item ∧ ItemsOrdinary rest

end

section Walk

variable {key : Option String} {v w : PyJson}

/-! ## Leaves -/

theorem walk_leaf [Casing] {t : Runtime} (hleaf : v.isContainer = false) : walk t v key = walkLeaf key v := by
  cases v with
  | obj entries => cases hleaf
  | arr items => cases hleaf
  | _ => simp [walk]

theorem walk_obj [Casing] {t : Runtime} {entries : Dict PyJson} : walk t (.obj entries) key = .ok w ↔
    ∃ d d', walkEntries t entries [] = .ok d ∧ finishObject t key d = .ok d' ∧ w = .obj d' := by
  rw [walk, bind_ok_iff]
  constructor
  · rintro ⟨d, hd, h⟩
    obtain ⟨d', hd', h⟩ := bind_ok_iff.mp h
    exact ⟨d, d', hd, hd', (pure_ok_iff.mp h).symm⟩
  · rintro ⟨d, d', hd, hd', rfl⟩
    exact ⟨d, hd, bind_ok_iff.mpr ⟨d', hd', rfl⟩⟩

variable {items : List PyJson}

theorem walkItems_ok [Casing] {t : Runtime} {items' : List PyJson} :
    walkItems t items key = .ok items' ↔
    List.Forall₂ (fun v w => walk t v key = .ok w) items items' := by
  induction items generalizing items' with
  | nil =>
    rw [walkItems, List.forall₂_nil_left_iff, Except.ok.injEq, eq_comm]
  | cons item rest ih =>
    rw [walkItems, bind_ok_iff, List.forall₂_cons_left_iff]
    constructor
    · rintro ⟨w, hw, h⟩
      obtain ⟨ws, hws, h⟩ := bind_ok_iff.mp h
      exact ⟨w, ws, hw, ih.mp hws, (pure_ok_iff.mp h).symm⟩
    · rintro ⟨w, ws, hw, hws, rfl⟩
      exact ⟨w, hw, bind_ok_iff.mpr ⟨ws, ih.mpr hws, rfl⟩⟩

theorem walk_arr [Casing] {t : Runtime} : walk t (.arr items) key = .ok w ↔
    ∃ items', List.Forall₂ (fun v w => walk t v key = .ok w) items items' ∧ w = .arr items' := by
  rw [walk, bind_ok_iff]
  constructor
  · rintro ⟨items', hitems, h⟩
    exact ⟨items', walkItems_ok.mp hitems, (pure_ok_iff.mp h).symm⟩
  · rintro ⟨items', hitems, rfl⟩
    exact ⟨items', walkItems_ok.mpr hitems, rfl⟩

theorem clampUnit_cases {percentOk : Bool} (h : clampUnit v percentOk = .ok w) :
    (w = v ∧ v.isHuge = false) ∨
      (∃ q, w = .float (.fin q)) ∧ v.isHuge = false ∧ v.isNull = false ∧ v.isContainer = false := by
  have hsmall := returns_clampUnit.mp (returns_iff.mpr ⟨_, h⟩)
  unfold clampUnit PyJson.floatOr at h
  split at h
  · rename_i x hx
    cases h
    refine Or.inr ⟨⟨_, rfl⟩, hsmall, ?_, ?_⟩
    · cases v <;> first | rfl | cases hx
    · cases v <;> first | rfl | cases hx
  · cases h
  · cases h
    exact Or.inl ⟨rfl, hsmall⟩

/-- Whether it is an integer that is too large, nothing at all, or a container. -/
structure Kept (v w : PyJson) : Prop where
  huge : w.isHuge = v.isHuge
  null : w.isNull = v.isNull
  container : w.isContainer = v.isContainer

theorem Kept.refl : Kept v v := ⟨rfl, rfl, rfl⟩

theorem kept_clampUnit {percentOk : Bool} (h : clampUnit v percentOk = .ok w) : Kept v w := by
  rcases clampUnit_cases h with ⟨rfl, _⟩ | ⟨⟨q, rfl⟩, hsmall, hthere, hleaf⟩
  · exact Kept.refl
  · exact ⟨hsmall.symm, hthere.symm, hleaf.symm⟩

theorem kept_unwrapBool [Casing] (hleaf : v.isContainer = false) : Kept v (unwrapBool v) := by
  cases v with
  | obj entries => cases hleaf
  | str s =>
    unfold unwrapBool
    dsimp only
    split_ifs
    · exact ⟨rfl, rfl, rfl⟩
    · exact ⟨rfl, rfl, rfl⟩
    · exact Kept.refl
  | _ => exact Kept.refl

theorem kept_walkLeaf [Casing] (hleaf : v.isContainer = false) (h : walkLeaf key v = .ok w) : Kept v w := by
  unfold walkLeaf at h
  split at h
  · cases h
    exact Kept.refl
  · split_ifs at h
    · cases h
      exact kept_unwrapBool hleaf
    · unfold walkScore at h
      dsimp only at h
      split_ifs at h
      · cases h
        exact Kept.refl
      · exact kept_clampUnit h
    · split at h
      · cases h
        exact ⟨rfl, rfl, rfl⟩
      · cases h
        exact Kept.refl

theorem kept_walk [Casing] {t : Runtime} (h : walk t v key = .ok w) : Kept v w := by
  cases v with
  | obj entries =>
    obtain ⟨d, d', _, _, rfl⟩ := walk_obj.mp h
    exact ⟨rfl, rfl, rfl⟩
  | arr items =>
    obtain ⟨items', _, rfl⟩ := walk_arr.mp h
    exact ⟨rfl, rfl, rfl⟩
  | _ =>
    rw [walk_leaf rfl] at h
    exact kept_walkLeaf rfl h

theorem returns_walkScore {key : String} : Returns (walkScore key v) ↔
    v.isHuge = false ∨ (key = "confidence" ∧ ∃ n : ℤ, v = .int n ∧ 1 < n) := by
  cases v with
  | int n =>
    unfold walkScore
    dsimp only
    split
    · rename_i habove
      simpa using Or.inr (by simpa using habove)
    · rename_i hbelow
      rw [returns_clampUnit]
      refine ⟨Or.inl, fun h => h.resolve_right ?_⟩
      rintro ⟨hkey, n', hn, hlarge⟩
      rw [PyJson.int.inj hn] at hbelow
      exact hbelow ⟨hkey, by simpa using hlarge⟩
  | float x =>
    unfold walkScore
    dsimp only
    split
    · simp
    · simp
  | _ => simp [walkScore]

section

variable [Casing] {t : Runtime}

theorem returns_walkLeaf : Returns (walkLeaf key v) ↔ leafTame key v = true := by
  cases key with
  | none => simp [walkLeaf, leafTame]
  | some key =>
    unfold walkLeaf
    dsimp only
    by_cases hbool : key ∈ BOOL_FIELDS
    · cases v <;> simp [hbool, leafTame, isScore]
    · by_cases hscore : key ∈ SCORE_FIELDS ∨ endsWith key "_score" = true
      · have hisScore : isScore key = true := by simp [isScore, hbool, hscore]
        rw [if_neg hbool, if_pos hscore, returns_walkScore]
        cases v <;> simp [leafTame, hisScore]
      · have hisScore : isScore key = false := by simpa [isScore, hbool] using hscore
        rw [if_neg hbool, if_neg hscore]
        have hother : leafTame (some key) v = true := by cases v <;> simp [leafTame, hisScore]
        rw [hother]
        split <;> simp

theorem walkLeaf_plain {key : String} (hbool : key ∉ BOOL_FIELDS) (hscore : isScore key = false)
    (henum : Dict.get? enumOfField key = none) : walkLeaf (some key) v = .ok v := by
  have hscore' : ¬ (key ∈ SCORE_FIELDS ∨ endsWith key "_score" = true) := by
    simpa [isScore, hbool] using hscore
  unfold walkLeaf
  dsimp only
  rw [if_neg hbool, if_neg hscore', henum]
  cases v <;> rfl

theorem walk_plain {key : String} (hbool : key ∉ BOOL_FIELDS) (hscore : isScore key = false)
    (henum : Dict.get? enumOfField key = none) (h : walk t v (some key) = .ok w) :
    w = v ∨ (v.isContainer = true ∧ w.isContainer = true) := by
  cases hleaf : v.isContainer with
  | true => exact Or.inr ⟨rfl, (kept_walk h).container.trans hleaf⟩
  | false =>
    rw [walk_leaf hleaf, walkLeaf_plain hbool hscore henum] at h
    exact Or.inl (Except.ok.inj h).symm

theorem walk_null : walk t .null key = .ok .null := by
  rw [walk_leaf rfl]
  unfold walkLeaf
  split
  · rfl
  · split_ifs
    · rfl
    · unfold walkScore
      simp [clampUnit, PyJson.floatOr, PyJson.toFloat]
    · rfl

theorem returns_walk_leaf (hleaf : v.isContainer = false) :
    (Tame v key → Returns (walk t v key)) ∧ (Ordinary v → Returns (walk t v key) → Tame v key) := by
  have htame : Tame v key ↔ leafTame key v = true := by
    cases v with
    | obj entries => cases hleaf
    | arr items => cases hleaf
    | _ => rw [Tame] <;> simp
  rw [walk_leaf hleaf, returns_walkLeaf, htame]
  exact ⟨id, fun _ => id⟩

/-! ## Objects -/

def Walks (t : Runtime) (named walked : Dict PyJson) : Prop :=
  List.Forall₂ (fun a d => a.1 = d.1 ∧ walk t a.2 (some a.1) = .ok d.2) named walked

section Entries

variable {A D : Dict PyJson}

theorem Walks.contains (h : Walks t A D) (k : String) :
    Dict.contains D k = Dict.contains A k := by
  unfold Dict.contains
  induction h with
  | nil => rfl
  | cons hhead _ ih =>
    rw [List.any_cons, List.any_cons, ih, hhead.1]

theorem Walks.set (h : Walks t A D) {k : String} (hv : walk t v (some k) = .ok w) :
    Walks t (Dict.set A k v) (Dict.set D k w) := by
  induction h with
  | nil => exact .cons ⟨rfl, hv⟩ .nil
  | @cons a d A D hhead htail ih =>
    unfold Dict.set
    rw [← hhead.1]
    split
    · exact .cons ⟨rfl, hv⟩ htail
    · exact .cons hhead ih

theorem Walks.read (h : Walks t A D) (k : String) :
    walk t (Dict.read A k) (some k) = .ok (Dict.read D k) := by
  unfold Dict.read
  induction h with
  | nil => exact walk_null
  | @cons a d A D hhead _ ih =>
    rw [Dict.get?_cons, Dict.get?_cons, ← hhead.1]
    split
    · rename_i hkey
      rw [← hkey]
      exact hhead.2
    · exact ih

theorem walks_aliased {entries : List (String × PyJson)} {D' : Dict PyJson} (h : Walks t A D)
    (hwalk : walkEntries t entries D = .ok D') : Walks t (aliased entries A) D' := by
  induction entries generalizing A D with
  | nil =>
    rw [walkEntries] at hwalk
    cases hwalk
    exact h
  | cons e rest ih =>
    obtain ⟨k, v⟩ := e
    rw [walkEntries, h.contains] at hwalk
    rw [aliased]
    split_ifs at hwalk ⊢ with hskip
    · exact ih h hwalk
    · obtain ⟨w, hw, hrest⟩ := bind_ok_iff.mp hwalk
      exact ih (h.set hw) hrest

theorem walks_nil : Walks t [] [] := .nil

end Entries

theorem isHuge_walkedScore {key : String} (hscore : isScore key = true) (hkey : key ≠ "confidence")
    (h : walk t v (some key) = .ok w) : w.isHuge = false := by
  rw [(kept_walk h).huge]
  cases v with
  | int n =>
    rw [walk_leaf rfl] at h
    have htame := returns_walkLeaf.mp (returns_iff.mpr ⟨_, h⟩)
    simpa [leafTame, hscore, hkey] using htame
  | _ => rfl

theorem walked_walk (h : walk t v key = .ok w) : Walked w := by
  intro entries hentries
  rw [hentries] at h
  cases v with
  | obj raw =>
    obtain ⟨d, d', hd, hfinish, hd'⟩ := walk_obj.mp h
    have hprobability := (walks_aliased walks_nil hd).read "probability"
    rw [PyJson.obj.inj hd']
    exact (objectFinished hfinish).walked
      (isHuge_walkedScore (by decide) (by decide) hprobability)
  | arr items =>
    obtain ⟨items', _, hitems⟩ := walk_arr.mp h
    cases hitems
  | _ => cases (kept_walk h).container

theorem scenarioFits_walk (h : walk t v key = .ok w) : ScenarioFits w ↔ v.isHuge = false := by
  rw [← (kept_walk h).huge]
  exact ⟨fun hfits => hfits.1, (walked_walk h).scenarioFits⟩

end

/-! ## What an object's repairs read -/

theorem toFloat_container (h : v.isContainer = true) : v.toFloat = .error .typeError := by
  cases v with
  | arr items => rfl
  | obj entries => rfl
  | _ => cases h

theorem isHuge_container (h : v.isContainer = true) : v.isHuge = false := by
  cases v with
  | arr items => rfl
  | obj entries => rfl
  | _ => cases h

theorem zoneOverflows_walk [Casing] {t : Runtime} (h : walk t v (some "entry_zone") = .ok w) :
    zoneOverflows w = zoneOverflows v := by
  have hplain : ∀ {v w : PyJson}, walk t v (some "entry_zone") = .ok w →
      w.toFloat.isOk = v.toFloat.isOk := by
    intro v w h
    rcases walk_plain (by decide) (by decide) (by decide) h with rfl | ⟨hv, hw⟩
    · rfl
    · rw [toFloat_container hv, toFloat_container hw]
  cases v with
  | arr items =>
    obtain ⟨items', hitems, rfl⟩ := walk_arr.mp h
    cases hitems with
    | nil => rfl
    | cons hlo hrest =>
      cases hrest with
      | nil => rfl
      | cons hhi _ =>
        dsimp only [zoneOverflows]
        rw [(kept_walk hlo).huge, (kept_walk hhi).huge, hplain hlo]
  | obj entries =>
    obtain ⟨d, d', _, _, rfl⟩ := walk_obj.mp h
    rfl
  | _ =>
    rcases walk_plain (by decide) (by decide) (by decide) h with rfl | ⟨hv, _⟩
    · rfl
    · cases hv

theorem badImportance_walk [Casing] {t : Runtime} (h : walk t v (some "importance") = .ok w) :
    badImportance w = badImportance v := by
  rcases walk_plain (by decide) (by decide) (by decide) h with rfl | ⟨hv, hw⟩
  · rfl
  · unfold badImportance
    rw [toFloat_container hv, toFloat_container hw, isHuge_container hv, isHuge_container hw]

theorem crowdRaises_walk [Casing] {t : Runtime} (h : walk t v (some "crowd_trade_risk") = .ok w) :
    crowdRaises w = crowdRaises v := by
  cases v with
  | obj entries =>
    obtain ⟨d, d', _, _, rfl⟩ := walk_obj.mp h
    rfl
  | arr items =>
    obtain ⟨items', _, rfl⟩ := walk_arr.mp h
    rfl
  | str s =>
    rw [walk_leaf rfl] at h
    have hok : unwrapBool (.str s) = w := Except.ok.inj h
    rw [← hok]
    unfold unwrapBool
    dsimp only
    split_ifs
    · rfl
    · rfl
    · rfl
  | _ =>
    rw [walk_leaf rfl] at h
    exact Except.ok.inj h ▸ rfl

section Entries

variable {A D D' : Dict PyJson}

theorem Walks.isEvent [Casing] {t : Runtime} (h : Walks t A D) : isEvent D = isEvent A := by
  unfold Reply.isEvent
  rw [h.contains, h.contains, h.contains, h.contains]

theorem Walks.isHuge [Casing] {t : Runtime} (h : Walks t A D) (k : String) :
    (Dict.read D k).isHuge = (Dict.read A k).isHuge := (kept_walk (h.read k)).huge

theorem Walks.isNull [Casing] {t : Runtime} (h : Walks t A D) (k : String) :
    (Dict.read D k).isNull = (Dict.read A k).isNull := (kept_walk (h.read k)).null

theorem Walks.interpretationFits [Casing] {t : Runtime} (h : Walks t A D) :
    interpretationFits D = interpretationFits A := by
  have hread := h.read "interpretations"
  unfold Reply.interpretationFits
  cases hv : Dict.read A "interpretations" with
  | arr items =>
    rw [hv] at hread
    obtain ⟨items', hitems, hw⟩ := walk_arr.mp hread
    rw [hw]
    cases hitems with
    | nil => rfl
    | cons hfirst _ =>
      dsimp only
      rw [(kept_walk hfirst).huge]
  | obj entries =>
    rw [hv] at hread
    obtain ⟨d, d', _, _, hw⟩ := walk_obj.mp hread
    rw [hw]
  | _ =>
    rw [hv] at hread
    rcases walk_plain (by decide) (by decide) (by decide) hread with hw | ⟨hleaf, _⟩
    · rw [hw]
    · cases hleaf

/-! ## Scenarios -/

variable {keys : List String}

theorem firstOf_of_isNull {d d' : Dict PyJson} {found : PyJson}
    (hnull : ∀ k ∈ keys, (Dict.read d' k).isNull = true → (Dict.read d k).isNull = true)
    (h : Dict.firstOf d' keys (fun v => !v.isNull) = some found) :
    ∃ k ∈ keys, found = Dict.read d' k ∧ ((Dict.read d k).isNull = true ∨
      Dict.firstOf d keys (fun v => !v.isNull) = some (Dict.read d k)) := by
  unfold Dict.firstOf at h ⊢
  induction keys with
  | nil => cases h
  | cons k keys ih =>
    rw [List.map_cons, List.find?_cons] at h ⊢
    cases hold : (Dict.read d' k).isNull with
    | true =>
      rw [hold] at h
      rw [hnull k List.mem_cons_self hold]
      obtain ⟨k', hk', hfound⟩ := ih (fun k' hk' => hnull k' (List.mem_cons_of_mem _ hk')) h
      exact ⟨k', List.mem_cons_of_mem _ hk', hfound⟩
    | false =>
      rw [hold] at h
      refine ⟨k, List.mem_cons_self, (Option.some.inj h).symm, ?_⟩
      cases hnew : (Dict.read d k).isNull with
      | true => exact Or.inl rfl
      | false => exact Or.inr rfl

theorem firstOf_none_of_isNull {d d' : Dict PyJson}
    (hnull : ∀ k ∈ keys, (Dict.read d' k).isNull = true → (Dict.read d k).isNull = true)
    (h : Dict.firstOf d' keys (fun v => !v.isNull) = none) :
    Dict.firstOf d keys (fun v => !v.isNull) = none := by
  unfold Dict.firstOf at h ⊢
  rw [List.find?_eq_none] at h ⊢
  intro v hv
  obtain ⟨k, hk, rfl⟩ := List.mem_map.mp hv
  have hold := h _ (List.mem_map.mpr ⟨k, hk, rfl⟩)
  simpa using hnull k hk (by simpa using hold)

def SIDE_KEYS : List String := UPSIDE_KEYS ++ DOWNSIDE_KEYS

/-- An object of scenarios: its entries, what the walk makes of them, and the finished object. -/
structure Sides (A D D' : Dict PyJson) : Prop where
  opened : ∀ k ∈ SIDE_KEYS, (Dict.read D' k).isNull = true → (Dict.read A k).isNull = true
  closed : Dict.contains A "scenarios" = false → ∀ k ∈ SIDE_KEYS,
    (Dict.read A k).isNull = true → (Dict.read D' k).isNull = true
  fits : ∀ k ∈ SIDE_KEYS, (Dict.read A k).isHuge = false → ScenarioFits (Dict.read D' k)
  small : ∀ k ∈ SIDE_KEYS, ScenarioFits (Dict.read D' k) → (Dict.read A k).isHuge = false

theorem sides [Casing] {t : Runtime} (hw : Walks t A D) (h : ObjectFinished D D') (hwalked : ObjectWalked D') :
    Sides A D D' := by
  -- three keys of each side are not touched at all
  have hother : ∀ k ∈ SIDE_KEYS, k ≠ "upside_scenario" → k ≠ "downside_scenario" →
      Dict.read D' k = Dict.read D k := by
    intro k hk hup hdown
    have huntouched : ∀ k ∈ SIDE_KEYS, k ≠ "upside_scenario" → k ≠ "downside_scenario" →
        k ∉ FINISHED_KEYS := by decide
    exact h.same.read (huntouched k hk hup hdown)
  refine ⟨fun k hk hnull => ?_, fun hnone k hk hnull => ?_, fun k hk hhuge => ?_,
    fun k hk hfits => ?_⟩
  · rw [← hw.isNull]
    by_cases hup : k = "upside_scenario"
    · rw [hup] at hnull ⊢
      exact h.upOpen hnull
    · by_cases hdown : k = "downside_scenario"
      · rw [hdown] at hnull ⊢
        exact h.downOpen hnull
      · rw [← hother k hk hup hdown]
        exact hnull
  · rw [← hw.isNull] at hnull
    have hstill := h.still ((hw.contains "scenarios").trans hnone)
    by_cases hup : k = "upside_scenario"
    · rw [hup] at hnull ⊢
      rw [hstill.up]
      exact hnull
    · by_cases hdown : k = "downside_scenario"
      · rw [hdown] at hnull ⊢
        rw [hstill.down]
        exact hnull
      · rw [hother k hk hup hdown]
        exact hnull
  · by_cases hup : k = "upside_scenario"
    · rw [hup]
      exact hwalked.upside
    · by_cases hdown : k = "downside_scenario"
      · rw [hdown]
        exact hwalked.downside
      · rw [hother k hk hup hdown]
        exact (scenarioFits_walk (hw.read k)).mpr hhuge
  · rw [← hw.isHuge]
    by_cases hup : k = "upside_scenario"
    · rw [hup]
      exact h.fit.numbers.upside.1
    · by_cases hdown : k = "downside_scenario"
      · rw [hdown]
        exact h.fit.numbers.downside.1
      · rw [hother k hk hup hdown] at hfits
        exact hfits.1

theorem upside_mem_side {k : String} (hk : k ∈ UPSIDE_KEYS) : k ∈ SIDE_KEYS :=
  List.mem_append.mpr (Or.inl hk)

theorem downside_mem_side {k : String} (hk : k ∈ DOWNSIDE_KEYS) : k ∈ SIDE_KEYS :=
  List.mem_append.mpr (Or.inr hk)

theorem isHuge_of_isNull (h : v.isNull = true) : v.isHuge = false := by
  rw [PyJson.isNull_iff.mp h]
  rfl

theorem Sides.found (hs : Sides A D D') (hkeys : ∀ k ∈ keys, k ∈ SIDE_KEYS)
    (h : ∀ found, Dict.firstOf A keys (fun v => !v.isNull) = some found → found.isHuge = false)
    {found : PyJson} (hfound : Dict.firstOf D' keys (fun v => !v.isNull) = some found) :
    ScenarioFits found := by
  obtain ⟨k, hk, rfl, hread⟩ :=
    firstOf_of_isNull (fun k hk => hs.opened k (hkeys k hk)) hfound
  apply hs.fits k (hkeys k hk)
  rcases hread with hnull | hfirst
  · exact isHuge_of_isNull hnull
  · exact h _ hfirst

theorem Sides.small_found (hs : Sides A D D') (hkeys : ∀ k ∈ keys, k ∈ SIDE_KEYS)
    (hnone : Dict.contains A "scenarios" = false)
    (h : ∀ found, Dict.firstOf D' keys (fun v => !v.isNull) = some found → ScenarioFits found)
    {found : PyJson} (hfound : Dict.firstOf A keys (fun v => !v.isNull) = some found) :
    found.isHuge = false := by
  obtain ⟨k, hk, rfl, hread⟩ :=
    firstOf_of_isNull (fun k hk => hs.closed hnone k (hkeys k hk)) hfound
  rcases hread with hnull | hfirst
  · exact isHuge_of_isNull (hs.opened k (hkeys k hk) hnull)
  · exact hs.small k (hkeys k hk) (h _ hfirst)

variable {upOpen downOpen : Bool}

theorem Sides.staysOpen (hs : Sides A D D') (h : StaysOpen upOpen downOpen D') :
    StaysOpen upOpen downOpen A := by
  rcases h with ⟨hopen, hnone⟩ | ⟨hopen, hnone⟩
  · exact Or.inl ⟨hopen, firstOf_none_of_isNull
      (fun k hk => hs.opened k (upside_mem_side hk)) hnone⟩
  · exact Or.inr ⟨hopen, firstOf_none_of_isNull
      (fun k hk => hs.opened k (downside_mem_side hk)) hnone⟩

theorem Sides.staysOpen_back (hs : Sides A D D') (hnone : Dict.contains A "scenarios" = false)
    (h : StaysOpen upOpen downOpen A) : StaysOpen upOpen downOpen D' := by
  rcases h with ⟨hopen, hfirst⟩ | ⟨hopen, hfirst⟩
  · exact Or.inl ⟨hopen, firstOf_none_of_isNull
      (fun k hk => hs.closed hnone k (upside_mem_side hk)) hfirst⟩
  · exact Or.inr ⟨hopen, firstOf_none_of_isNull
      (fun k hk => hs.closed hnone k (downside_mem_side hk)) hfirst⟩

section

variable [Casing] {t : Runtime}

theorem Walks.othersFit (hw : Walks t A D)
    (h : ∀ e ∈ A, e.1 ∉ UPSIDE_KEYS ++ DOWNSIDE_KEYS → e.2.isHuge = false) : OthersFit D := by
  unfold OthersFit
  induction hw with
  | nil => simp
  | cons hhead _ ih =>
    rw [List.forall_mem_cons] at h ⊢
    refine ⟨fun hkey => ?_, ih h.2⟩
    exact (scenarioFits_walk hhead.2).mpr (h.1 (hhead.1 ▸ hkey))

theorem entriesFit_of_tame (hw : Walks t A D) (hfin : ObjectFinished D D')
    (hwalked : ObjectWalked D') (h : EntriesAre (fun v => v.isHuge = false) upOpen downOpen A)
    (hfirst : StaysOpen upOpen downOpen A → isEvent A = true → interpretationFits A = true) :
    EntriesAre ScenarioFits upOpen downOpen D' := by
  have hs := sides hw hfin hwalked
  refine ⟨fun hopen found hfound => ?_, fun hopen found hfound => ?_, fun hopen => ?_⟩
  · exact hs.found (fun _ => upside_mem_side) (h.up hopen) hfound
  · exact hs.found (fun _ => downside_mem_side) (h.down hopen) hfound
  · have hopen' := hs.staysOpen hopen
    refine hfin.others (hw.othersFit (h.rest hopen')) fun hevent => ?_
    rw [hw.interpretationFits]
    exact hfirst hopen' (hw.isEvent ▸ hevent)

theorem nodup_walkEntries {entries : List (String × PyJson)} (hD : (D.map (·.1)).Nodup)
    (h : walkEntries t entries D = .ok D') : (D'.map (·.1)).Nodup := by
  induction entries generalizing D with
  | nil =>
    rw [walkEntries] at h
    cases h
    exact hD
  | cons e rest ih =>
    obtain ⟨k, v⟩ := e
    rw [walkEntries] at h
    split_ifs at h with hskip
    · exact ih hD h
    · obtain ⟨w, _, hrest⟩ := bind_ok_iff.mp h
      exact ih (Dict.nodup_set hD _ _) hrest

theorem Walks.small_of_othersFit (hw : Walks t A D) (hnodup : (D.map (·.1)).Nodup)
    (hstays : HugeStays D D')
    (h : ∀ e ∈ D', e.1 ∉ UPSIDE_KEYS ++ DOWNSIDE_KEYS → ScenarioFits e.2) :
    ∀ e ∈ A, e.1 ∉ UPSIDE_KEYS ++ DOWNSIDE_KEYS → e.2.isHuge = false := by
  intro e he hkey
  obtain ⟨d, hd, hkey', hwalk⟩ : ∃ d ∈ D, e.1 = d.1 ∧ walk t e.2 (some e.1) = .ok d.2 := by
    clear hnodup hstays hkey
    induction hw with
    | nil => cases he
    | cons hhead _ ih =>
      rcases List.mem_cons.mp he with rfl | hmem
      · exact ⟨_, List.mem_cons_self, hhead⟩
      · obtain ⟨d, hd, hpair⟩ := ih hmem
        exact ⟨d, List.mem_cons_of_mem _ hd, hpair⟩
  rw [Bool.eq_false_iff]
  intro hhuge
  rw [← (kept_walk hwalk).huge] at hhuge
  have hread : Dict.read D d.1 = d.2 := congrArg (·.getD .null) (Dict.get?_of_mem hnodup hd)
  have hstill : Dict.read D' d.1 = d.2 := (hstays d.1 (hread ▸ hhuge)).trans hread
  cases hget : Dict.get? D' d.1 with
  | none =>
    have hnull : Dict.read D' d.1 = .null := congrArg (·.getD .null) hget
    rw [← hstill, hnull] at hhuge
    cases hhuge
  | some v =>
    have hv : Dict.read D' d.1 = v := congrArg (·.getD .null) hget
    have hfits := h (d.1, v) (Dict.mem_of_get? hget) (hkey' ▸ hkey)
    rw [← hv, hstill] at hfits
    rw [hfits.1] at hhuge
    cases hhuge

theorem entriesTame_of_fit (hw : Walks t A D) (hfin : ObjectFinished D D')
    (hwalked : ObjectWalked D') (hnodup : (D.map (·.1)).Nodup) (hevent : isEvent A = false)
    (hnone : Dict.contains A "scenarios" = false) (h : EntriesAre ScenarioFits upOpen downOpen D') :
    EntriesAre (fun v => v.isHuge = false) upOpen downOpen A := by
  have hs := sides hw hfin hwalked
  refine ⟨fun hopen found hfound => ?_, fun hopen found hfound => ?_, fun hopen => ?_⟩
  · exact hs.small_found (fun _ => upside_mem_side) hnone (h.up hopen) hfound
  · exact hs.small_found (fun _ => downside_mem_side) hnone (h.down hopen) hfound
  · exact hw.small_of_othersFit hnodup (hfin.stays (hw.isEvent.trans hevent))
      (h.rest (hs.staysOpen_back hnone hopen))

theorem scenariosFit_of_tame (h : walk t v (some "scenarios") = .ok w)
    (htame : ScenariosTame upOpen downOpen v) : ScenariosFit upOpen downOpen w := by
  have hfits := scenarioFits_walk h
  cases v with
  | obj entries =>
    obtain ⟨D, D', hD, hfinish, rfl⟩ := walk_obj.mp h
    exact entriesFit_of_tame (walks_aliased walks_nil hD) (objectFinished hfinish)
      (walked_walk h _ rfl) htame.1 htame.2
  | arr items =>
    obtain ⟨items', hitems, rfl⟩ := walk_arr.mp h
    intro item hitem
    obtain ⟨i, hi, rfl⟩ := List.getElem_of_mem hitem
    have hi' : i < items.length := hitems.length_eq ▸ hi
    exact (scenarioFits_walk (hitems.get hi' hi)).mpr (htame _ (List.getElem_mem hi'))
  | _ =>
    have hcontainer := (kept_walk h).container
    have hw := hfits.mpr htame
    cases w with
    | obj entries => cases hcontainer
    | arr items => cases hcontainer
    | _ => exact hw

theorem scenariosTame_of_fit (h : walk t v (some "scenarios") = .ok w)
    (hordinary : ∀ entries, v = .obj entries → isEvent (aliased entries []) = false ∧
      Dict.contains (aliased entries []) "scenarios" = false)
    (hfit : ScenariosFit upOpen downOpen w) : ScenariosTame upOpen downOpen v := by
  have hfits := scenarioFits_walk h
  cases v with
  | obj entries =>
    obtain ⟨D, D', hD, hfinish, rfl⟩ := walk_obj.mp h
    obtain ⟨hevent, hnone⟩ := hordinary entries rfl
    refine ⟨entriesTame_of_fit (walks_aliased walks_nil hD) (objectFinished hfinish)
      (walked_walk h _ rfl) (nodup_walkEntries (D := []) List.nodup_nil hD) hevent hnone hfit, ?_⟩
    intro _ hsome
    rw [hevent] at hsome
    cases hsome
  | arr items =>
    obtain ⟨items', hitems, rfl⟩ := walk_arr.mp h
    intro item hitem
    obtain ⟨i, hi, rfl⟩ := List.getElem_of_mem hitem
    have hi' : i < items'.length := hitems.length_eq ▸ hi
    exact (scenarioFits_walk (hitems.get hi hi')).mp (hfit _ (List.getElem_mem hi'))
  | _ =>
    have hcontainer := (kept_walk h).container
    cases w with
    | obj entries => cases hcontainer
    | arr items => cases hcontainer
    | _ => exact hfits.mp hfit

/-! ## The walk -/

theorem Walks.itemsWalked (hw : Walks t A D) {key : String} (hitems : Dict.read D key = .arr items) :
    ∀ item ∈ items, Walked item := by
  intro item hitem
  have hread := hw.read key
  rw [hitems] at hread
  cases hv : Dict.read A key with
  | arr raw =>
    rw [hv] at hread
    obtain ⟨items', hwalk, heq⟩ := walk_arr.mp hread
    rw [PyJson.arr.inj heq] at hitem
    obtain ⟨i, hi, rfl⟩ := List.getElem_of_mem hitem
    have hi' : i < raw.length := hwalk.length_eq ▸ hi
    exact walked_walk (hwalk.get hi' hi)
  | obj entries =>
    rw [hv] at hread
    obtain ⟨_, _, _, _, heq⟩ := walk_obj.mp hread
    cases heq
  | _ =>
    rw [hv] at hread
    cases (kept_walk hread).container

theorem Walks.plansWalked (hw : Walks t A D) : PlansWalked D := fun _ hitems => hw.itemsWalked hitems

theorem objectFit_of_tame (hw : Walks t A D) (h : ObjectTame A) : ObjectFit D := by
  refine ⟨⟨?_, ?_, ?_, ?_, ?_⟩, fun hevent => ?_, ?_⟩
  · rw [hw.isHuge]
    exact h.cash
  · rw [zoneOverflows_walk (hw.read _)]
    exact h.zone
  · exact (scenarioFits_walk (hw.read _)).mpr h.upside
  · exact (scenarioFits_walk (hw.read _)).mpr h.downside
  · rw [hw.isNull, hw.isNull]
    exact scenariosFit_of_tame (hw.read _) h.scenarios
  · rw [badImportance_walk (hw.read _)]
    exact h.importance (hw.isEvent ▸ hevent)
  · rw [crowdRaises_walk (hw.read _)]
    exact h.crowd

theorem objectTame_of_fit (hw : Walks t A D) (hordinary : ScenariosOrdinary A)
    (h : ObjectFit D) : ObjectTame A := by
  refine ⟨?_, ?_, ?_, ?_, ?_, fun hevent => ?_, ?_⟩
  · rw [← hw.isHuge]
    exact h.numbers.cash
  · rw [← zoneOverflows_walk (hw.read _)]
    exact h.numbers.zone
  · exact (scenarioFits_walk (hw.read _)).mp h.numbers.upside
  · exact (scenarioFits_walk (hw.read _)).mp h.numbers.downside
  · rw [← hw.isNull, ← hw.isNull]
    exact scenariosTame_of_fit (hw.read _) hordinary h.numbers.scenarios
  · rw [← badImportance_walk (hw.read _)]
    exact h.importance (hw.isEvent.symm ▸ hevent)
  · rw [← crowdRaises_walk (hw.read _)]
    exact h.crowd

end

end Entries

section

variable [Casing] {t : Runtime}

mutual

theorem returns_walk : ∀ (v : PyJson) (key : Option String),
    (Tame v key → Returns (walk t v key)) ∧
      (Ordinary v → Returns (walk t v key) → Tame v key)
  | .obj entries, key => by
    obtain ⟨hforth, hback⟩ := returns_walkEntries entries (A := []) (D := []) walks_nil
    rw [Tame, Ordinary]
    constructor
    · rintro ⟨hentries, hobject⟩
      obtain ⟨d, hd⟩ := returns_iff.mp (hforth hentries)
      have hw := walks_aliased walks_nil hd
      have hfit := objectFit_of_tame hw hobject
      have hfinish : Returns (finishObject t key d) :=
        (returns_finishObject hw.plansWalked).mpr hfit
      obtain ⟨d', hd'⟩ := returns_iff.mp hfinish
      exact returns_iff.mpr ⟨_, walk_obj.mpr ⟨d, d', hd, hd', rfl⟩⟩
    · rintro ⟨hordinary, hscenarios⟩ h
      obtain ⟨w, hw⟩ := returns_iff.mp h
      obtain ⟨d, d', hd, hd', rfl⟩ := walk_obj.mp hw
      exact ⟨hback hordinary (returns_iff.mpr ⟨d, hd⟩),
        objectTame_of_fit (walks_aliased walks_nil hd) hscenarios (objectFinished hd').fit⟩
  | .arr items, key => by
    rw [Tame, Ordinary, walk, bind_pure_comp, returns_map]
    exact returns_walkItems items key
  | .null, key => returns_walk_leaf rfl
  | .bool _, key => returns_walk_leaf rfl
  | .int _, key => returns_walk_leaf rfl
  | .float _, key => returns_walk_leaf rfl
  | .str _, key => returns_walk_leaf rfl

theorem returns_walkEntries : ∀ (entries : List (String × PyJson)) {A D : Dict PyJson},
    Walks t A D → (EntriesTame entries A → Returns (walkEntries t entries D)) ∧
      (EntriesOrdinary entries → Returns (walkEntries t entries D) → EntriesTame entries A)
  | [], A, D, _ => by simp [walkEntries, EntriesTame]
  | (k, v) :: rest, A, D, hw => by
    rw [walkEntries, EntriesTame, EntriesOrdinary, hw.contains]
    split_ifs with hskip
    · obtain ⟨hforth, hback⟩ := returns_walkEntries rest hw
      exact ⟨hforth, fun hordinary => hback hordinary.2⟩
    · obtain ⟨hforth, hback⟩ := returns_walk v (some (fieldName k))
      rw [returns_bind]
      constructor
      · rintro ⟨hv, hrest⟩
        exact ⟨hforth hv, fun w hwalk => (returns_walkEntries rest (hw.set hwalk)).1 hrest⟩
      · rintro ⟨hordinary, hrestOrdinary⟩ ⟨hv, hrest⟩
        obtain ⟨w, hwalk⟩ := returns_iff.mp hv
        exact ⟨hback hordinary hv,
          (returns_walkEntries rest (hw.set hwalk)).2 hrestOrdinary (hrest w hwalk)⟩

theorem returns_walkItems : ∀ (items : List PyJson) (key : Option String),
    (ItemsTame items key → Returns (walkItems t items key)) ∧
      (ItemsOrdinary items → Returns (walkItems t items key) → ItemsTame items key)
  | [], key => by simp [walkItems, ItemsTame]
  | item :: rest, key => by
    obtain ⟨hforth, hback⟩ := returns_walk item key
    obtain ⟨hforthRest, hbackRest⟩ := returns_walkItems rest key
    rw [walkItems, ItemsTame, ItemsOrdinary, returns_bind]
    constructor
    · rintro ⟨hitem, hrest⟩
      exact ⟨hforth hitem, fun w _ => by simpa using hforthRest hrest⟩
    · rintro ⟨hordinary, hrestOrdinary⟩ ⟨hitem, hrest⟩
      obtain ⟨w, hwalk⟩ := returns_iff.mp hitem
      exact ⟨hback hordinary hitem, hbackRest hrestOrdinary (by simpa using hrest w hwalk)⟩

end

end

end Walk

end Investor.Agents.Reply
