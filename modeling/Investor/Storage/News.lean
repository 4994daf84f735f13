import Investor.Intraday.NewsBridge

/-!
# Stored news

The collector asks the repository to store what it fetched, cycle after cycle, and leaves out an
item whose headline it has seen in the cycle. The repository stores an item that no row has the
external id or the headline of.

So the rows stay apart, and every item is there or an earlier one of its headline is
(`news_collected`). That one may be there under its external id with another headline, and then
the later one is nowhere.
-/

namespace Investor.Storage

open Lib

/-- `NormalizedNews`, and a row of `news_items` less its id: no duplicate is stored. -/
structure News where
  provider : String
  externalId : Option String
  headline : String
  headlineHash : String
  source : String
  url : Option String
  publishedAt : Int
  collectedAt : Int
  symbols : List String
  category : Option String
  rawPayload : Json
  freshnessScore : ℚ
  qualityScore : ℚ

/-- `scalar_one_or_none`, `none` where it raises. -/
def scalarOneOrNone {ρ : Type} : List ρ → Option (Option ρ)
  | [] => some none
  | [r] => some (some r)
  | _ => none

/-- The provider and the external id are the same. -/
def sameArticle (r s : News) : Bool := decide (r.provider = s.provider ∧ r.externalId = s.externalId)

def hasId (item : News) : Bool := item.externalId.any (· ≠ "")

/-- The queries of `upsert_normalized`, the second where the first finds nothing. -/
def existingNews (item : News) (rows : List News) : Option (Option News) :=
  (if hasId item then scalarOneOrNone (rows.filter (sameArticle · item)) else some none).map fun found =>
    found.or (rows.find? fun r => r.headlineHash = item.headlineHash)

/-- `upsert_normalized`: the row it returns and the table, `none` where it raises, as it does where
    `uq_news_provider_external` has the two columns already. -/
def upsertNormalized (item : News) (rows : List News) : Option (News × List News) :=
  (existingNews item rows).bind fun found =>
    match found with
    | some r => some (r, rows)
    | none =>
      if item.externalId.isSome && rows.any (sameArticle · item) then none else some (item, rows ++ [item])

/-- The loop of `collect`, with the headlines it has seen. -/
def collectNews : List String → List News → List News → Option (List News)
  | _, [], rows => some rows
  | seen, item :: items, rows =>
    if item.headlineHash ∈ seen then collectNews seen items rows
    else (upsertNormalized item rows).bind fun out => collectNews (item.headlineHash :: seen) items out.2

def collectCycles : List (List News) → List News → Option (List News)
  | [], rows => some rows
  | cycle :: cycles, rows => (collectNews [] cycle rows).bind (collectCycles cycles)

/-! ## One item -/

/-- The rows have other headlines, and no external id in common. -/
def Apart (r s : News) : Prop :=
  r.headlineHash ≠ s.headlineHash ∧ (r.externalId.isSome → sameArticle r s = false)

/-- The row is the item, or stands for it. -/
def StandsFor (item r : News) : Prop :=
  hasId item ∧ sameArticle r item ∨ r.headlineHash = item.headlineHash

variable {item : News} {items rows out : List News} {seen : List String}

theorem scalarOneOrNone_filter (h : rows.Pairwise Apart) (given : hasId item) :
    ∃ found, scalarOneOrNone (rows.filter (sameArticle · item)) = some found := by
  have hpair := h.filter (sameArticle · item)
  have hsame : ∀ r ∈ rows.filter (sameArticle · item), sameArticle r item := fun r hr => (List.mem_filter.mp hr).2
  cases hrows : rows.filter (sameArticle · item) with
  | nil => exact ⟨none, rfl⟩
  | cons r rest =>
    cases rest with
    | nil => exact ⟨some r, rfl⟩
    | cons s rest =>
      rw [hrows] at hpair hsame
      have hr := of_decide_eq_true (hsame r List.mem_cons_self)
      have hs := of_decide_eq_true (hsame s (List.mem_cons_of_mem _ List.mem_cons_self))
      have hid : r.externalId.isSome := by
        rw [hr.2]
        exact Option.isSome_of_any given
      have hapart := ((List.pairwise_cons.mp hpair).1 s List.mem_cons_self).2 hid
      rw [sameArticle, decide_eq_false_iff_not] at hapart
      exact absurd ⟨hr.1.trans hs.1.symm, hr.2.trans hs.2.symm⟩ hapart

theorem scalarOneOrNone_some {ρ : Type} {xs : List ρ} {found : Option ρ} (h : scalarOneOrNone xs = some found) :
    xs = found.toList := by
  unfold scalarOneOrNone at h
  split at h
  all_goals
    cases h
    try rfl

theorem existingNews_cases (h : rows.Pairwise Apart) (item : News) :
    (∃ r ∈ rows, StandsFor item r ∧ existingNews item rows = some (some r)) ∨
      (∀ r ∈ rows, ¬StandsFor item r) ∧ existingNews item rows = some none := by
  have hfirst : ∃ found, (if hasId item then scalarOneOrNone (rows.filter (sameArticle · item)) else some none) =
      some found ∧ (∀ r, found = some r → r ∈ rows ∧ StandsFor item r) ∧
      (found = none → ∀ r ∈ rows, ¬(hasId item ∧ sameArticle r item)) := by
    by_cases given : hasId item
    · obtain ⟨found, hfound⟩ := scalarOneOrNone_filter h given
      have hmem : ∀ r, r ∈ rows ∧ sameArticle r item ↔ r ∈ found.toList := fun r => by
        rw [← scalarOneOrNone_some hfound, List.mem_filter]
      refine ⟨found, by rw [if_pos given, hfound], fun r hr => ?_, fun hnone r hr hboth => ?_⟩
      · obtain ⟨hr, hsame⟩ := (hmem r).mpr (hr ▸ List.mem_singleton.mpr rfl)
        exact ⟨hr, Or.inl ⟨given, hsame⟩⟩
      · have hin := (hmem r).mp ⟨hr, hboth.2⟩
        rw [hnone] at hin
        cases hin
    · exact ⟨none, if_neg given, fun r hr => (by cases hr), fun _ r _ hboth => given hboth.1⟩
  obtain ⟨found, hquery, hsome, hnone⟩ := hfirst
  rw [existingNews, hquery]
  cases found with
  | some r => exact Or.inl ⟨r, (hsome r rfl).1, (hsome r rfl).2, rfl⟩
  | none =>
    cases hfind : rows.find? fun r => r.headlineHash = item.headlineHash with
    | some r =>
      have hhash : r.headlineHash = item.headlineHash := by simpa using List.find?_some hfind
      exact Or.inl ⟨r, List.mem_of_find?_eq_some hfind, Or.inr hhash, rfl⟩
    | none =>
      refine Or.inr ⟨fun r hr hstands => hstands.elim (hnone rfl r hr) fun hhash => ?_, rfl⟩
      exact absurd (decide_eq_true hhash) (List.find?_eq_none.mp hfind r hr)

/-- An item that some row stands for changes nothing; another one is appended, or, under an empty id, raises. -/
theorem upsert_cases (h : rows.Pairwise Apart) (item : News) :
    (∃ r ∈ rows, StandsFor item r ∧ upsertNormalized item rows = some (r, rows)) ∨
    upsertNormalized item rows = some (item, rows ++ [item]) ∧ (rows ++ [item]).Pairwise Apart ∨
    upsertNormalized item rows = none ∧ item.externalId = some "" := by
  unfold upsertNormalized
  rcases existingNews_cases h item with ⟨r, hr, hstands, hfound⟩ | ⟨hnone, hfound⟩
  · rw [hfound]
    exact Or.inl ⟨r, hr, hstands, rfl⟩
  · rw [hfound, Option.bind_some]
    dsimp only
    cases htaken : item.externalId.isSome && rows.any (sameArticle · item) with
    | true =>
      obtain ⟨hid, hany⟩ := Bool.and_eq_true_iff.mp htaken
      obtain ⟨r, hr, hsame⟩ := List.any_eq_true.mp hany
      obtain ⟨id, hid⟩ := Option.isSome_iff_exists.mp hid
      refine Or.inr (Or.inr ⟨rfl, hid.trans (congrArg some ?_)⟩)
      by_contra hne
      exact hnone r hr (Or.inl ⟨by simp [hasId, hid, hne], hsame⟩)
    | false =>
      refine Or.inr (Or.inl ⟨rfl, List.pairwise_append.mpr ⟨h, List.pairwise_singleton _ _, ?_⟩⟩)
      intro r hr s hs
      rw [List.mem_singleton.mp hs]
      refine ⟨fun hhash => hnone r hr (Or.inr hhash), fun hid => ?_⟩
      by_contra hsame
      rw [Bool.not_eq_false] at hsame
      have hid' : item.externalId.isSome := (of_decide_eq_true hsame).2 ▸ hid
      rw [hid', Bool.true_and, List.any_eq_false] at htaken
      exact htaken r hr hsame

/-! ## Any number of cycles -/

/-- What a collection makes of the rows: it adds some of its items, and everything it was given is told of. -/
structure Collects (seen : List String) (items rows out : List News) : Prop where
  apart : out.Pairwise Apart
  added : ∃ kept, kept.Sublist items ∧ out = rows ++ kept
  told : ∀ x ∈ items, x.headlineHash ∈ seen ∨
    ∃ y ∈ items, y.headlineHash = x.headlineHash ∧ ∃ r ∈ out, StandsFor y r

theorem collects (h : rows.Pairwise Apart) (hall : collectNews seen items rows = some out) :
    Collects seen items rows out := by
  induction items generalizing seen rows with
  | nil =>
    cases hall
    exact ⟨h, ⟨[], List.Sublist.refl _, (List.append_nil _).symm⟩, fun x hx => by cases hx⟩
  | cons item items ih =>
    have later : ∀ {seen' : List String}, (∀ x ∈ items, x.headlineHash ∈ seen' ∨
        ∃ y ∈ items, y.headlineHash = x.headlineHash ∧ ∃ r ∈ out, StandsFor y r) → ∀ x ∈ items,
        x.headlineHash ∈ seen' ∨ ∃ y ∈ item :: items, y.headlineHash = x.headlineHash ∧ ∃ r ∈ out, StandsFor y r :=
      fun told x hx => (told x hx).imp_right fun ⟨y, hy, hstands⟩ => ⟨y, List.mem_cons_of_mem _ hy, hstands⟩
    unfold collectNews at hall
    split at hall
    · rename_i hseen
      obtain ⟨apart, ⟨kept, hkept, hout⟩, told⟩ := ih h hall
      exact ⟨apart, ⟨kept, hkept.cons _, hout⟩, List.forall_mem_cons.mpr ⟨Or.inl hseen, later told⟩⟩
    · -- from here on the headline counts as seen, and the item itself tells of those that repeat it
      have first : ∀ {next : List News}, Collects (item.headlineHash :: seen) items next out → (∃ r ∈ out, StandsFor item r) →
          ∀ x ∈ item :: items, x.headlineHash ∈ seen ∨
            ∃ y ∈ item :: items, y.headlineHash = x.headlineHash ∧ ∃ r ∈ out, StandsFor y r := by
        intro next hnext hstands
        refine List.forall_mem_cons.mpr ⟨Or.inr ⟨item, List.mem_cons_self, rfl, hstands⟩, fun x hx => ?_⟩
        rcases later hnext.told x hx with hin | hin
        · rcases List.mem_cons.mp hin with heq | hin
          · exact Or.inr ⟨item, List.mem_cons_self, heq.symm, hstands⟩
          · exact Or.inl hin
        · exact Or.inr hin
      rcases upsert_cases h item with ⟨r, hr, hstands, hupsert⟩ | ⟨hupsert, hapart⟩ | ⟨hupsert, -⟩
      · rw [hupsert] at hall
        have hnext := ih h hall
        obtain ⟨kept, hkept, hout⟩ := hnext.added
        refine ⟨hnext.apart, ⟨kept, hkept.cons _, hout⟩, first hnext ⟨r, ?_, hstands⟩⟩
        exact hout ▸ List.mem_append_left _ hr
      · rw [hupsert] at hall
        have hnext := ih hapart hall
        obtain ⟨kept, hkept, hout⟩ := hnext.added
        refine ⟨hnext.apart, ⟨item :: kept, hkept.cons_cons _, hout.trans (by simp)⟩, first hnext ⟨item, ?_, Or.inr rfl⟩⟩
        rw [hout]
        exact List.mem_append_left _ (List.mem_append_right _ List.mem_cons_self)
      · rw [hupsert] at hall
        cases hall

theorem collectNews_some (h : rows.Pairwise Apart) (given : ∀ x ∈ items, x.externalId ≠ some "") :
    ∃ out, collectNews seen items rows = some out := by
  induction items generalizing seen rows with
  | nil => exact ⟨rows, rfl⟩
  | cons item items ih =>
    obtain ⟨hid, hrest⟩ := List.forall_mem_cons.mp given
    unfold collectNews
    split
    · exact ih h hrest
    · rcases upsert_cases h item with ⟨r, -, -, hupsert⟩ | ⟨hupsert, hapart⟩ | ⟨-, hempty⟩
      · rw [hupsert]
        exact ih h hrest
      · rw [hupsert]
        exact ih hapart hrest
      · exact absurd hempty hid

/-- What is collected stays apart, and every headline is stood for. -/
theorem collectCycles_spec {cycles : List (List News)} (h : rows.Pairwise Apart) :
    (∀ out, collectCycles cycles rows = some out → out.Pairwise Apart ∧
      (∃ kept, kept.Sublist cycles.flatten ∧ out = rows ++ kept) ∧
      ∀ cycle ∈ cycles, ∀ x ∈ cycle, ∃ y ∈ cycle, y.headlineHash = x.headlineHash ∧ ∃ r ∈ out, StandsFor y r) ∧
    ((∀ cycle ∈ cycles, ∀ x ∈ cycle, x.externalId ≠ some "") → ∃ out, collectCycles cycles rows = some out) := by
  induction cycles generalizing rows with
  | nil =>
    refine ⟨fun out hout => ?_, fun _ => ⟨_, rfl⟩⟩
    cases hout
    exact ⟨h, ⟨[], List.Sublist.refl _, (List.append_nil _).symm⟩, fun cycle hin => by cases hin⟩
  | cons cycle cycles ih =>
    refine ⟨fun out hall => ?_, fun given => ?_⟩
    · obtain ⟨next, hnext, hrest⟩ := Option.bind_eq_some_iff.mp hall
      have hfirst := collects h hnext
      obtain ⟨apart, ⟨kept, hkept, hout⟩, told⟩ := (ih hfirst.apart).1 out hrest
      obtain ⟨kept₀, hkept₀, hnext₀⟩ := hfirst.added
      refine ⟨apart, ⟨kept₀ ++ kept, hkept₀.append hkept, ?_⟩, List.forall_mem_cons.mpr ⟨fun x hx => ?_, told⟩⟩
      · rw [hout, hnext₀, List.append_assoc]
      · rcases hfirst.told x hx with hin | ⟨y, hy, hhash, r, hr, hstands⟩
        · cases hin
        · exact ⟨y, hy, hhash, r, hout ▸ List.mem_append_left _ hr, hstands⟩
    · obtain ⟨hcycle, hcycles⟩ := List.forall_mem_cons.mp given
      have hsome : ∃ next, collectNews [] cycle rows = some next := collectNews_some h hcycle
      obtain ⟨next, hnext⟩ := hsome
      obtain ⟨out, hout⟩ := (ih (collects h hnext).apart).2 hcycles
      exact ⟨out, Option.bind_eq_some_iff.mpr ⟨next, hnext, hout⟩⟩

/-- **Whatever is collected in any number of cycles, the rows have distinct headlines and external ids and come as
    they were collected; of each item an earlier one of its cycle with its headline, or itself, is stood for; and
    nothing raises unless an external id is an empty text.** -/
theorem news_collected (cycles : List (List News)) :
    (∀ out, collectCycles cycles [] = some out → out.Pairwise Apart ∧ out.Sublist cycles.flatten ∧
      ∀ cycle ∈ cycles, ∀ x ∈ cycle, ∃ y ∈ cycle, y.headlineHash = x.headlineHash ∧ ∃ r ∈ out, StandsFor y r) ∧
    ((∀ cycle ∈ cycles, ∀ x ∈ cycle, x.externalId ≠ some "") → ∃ out, collectCycles cycles [] = some out) := by
  obtain ⟨hmakes, hgoes⟩ := @collectCycles_spec [] cycles List.Pairwise.nil
  refine ⟨fun out hout => ?_, hgoes⟩
  obtain ⟨apart, ⟨kept, hkept, rfl⟩, told⟩ := hmakes out hout
  exact ⟨apart, hkept, told⟩

end Investor.Storage
