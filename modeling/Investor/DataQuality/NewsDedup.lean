import Investor.Lib.Json
import Mathlib.Data.List.Sort
import Mathlib.Data.Finset.Card
import Mathlib.Algebra.Order.Ring.Rat

/-!
# Duplicate news and its clusters

`cluster_news` goes through the items once (`news_dedup.py`). An item that matches an earlier one
joins its cluster; any other item is unique and opens a cluster under its fingerprint. The
fingerprint has no time in it, while a repeated headline is a match within a window only: an item
that repeats a headline later is unique again, and its cluster takes the place of the first one.

`CleanRun` says of each step that this does not happen, and that the item's id is in no other
cluster. An item that joins a cluster is marked in its quality, and an item without one raises
(`MarkedRun`). Exactly where nothing raises and each step is clean the clusters partition the
items (`partition_iff`).

Times are in microseconds. The digest of a fingerprint is a parameter.
-/

namespace Investor.DataQuality

open Lib

/-! ## Items and clusters -/

/-- `DataQualityBreakdown`, less the scores with a default. -/
structure DataQualityBreakdown where
  overall : ℚ
  issues : List String := []
  deriving DecidableEq

/-- `CanonicalNewsItem`, less the columns that nothing here reads. -/
structure NewsItem where
  newsId : String
  providerArticleId : Option String
  headline : String
  sourceUrlReference : Option String
  publishedAt : ℤ
  updatedAt : Option ℤ
  collectedAt : Option ℤ
  symbols : List String
  categories : List String
  isCorrection : Bool
  quality : Option DataQualityBreakdown := none
  deriving DecidableEq

/-- `Provenance`, as a cluster has it. -/
structure Provenance where
  providerName : String
  providerRecordId : String
  collectionTimestamp : ℤ
  sourceTimestamp : ℤ
  deriving DecidableEq

/-- `CanonicalNewsEventCluster`. -/
structure NewsCluster where
  asOf : ℤ
  collectedAt : Option ℤ
  eventClusterId : String
  primaryArticleId : String
  memberArticleIds : List String
  firstSeenAt : ℤ
  lastUpdatedAt : ℤ
  affectedSymbols : List String
  category : Option String
  confidence : ℚ
  deduplicationMethod : String
  provenance : Provenance
  deriving DecidableEq

section Texts

def squeeze : Bool → List Char → List Char
  | _, [] => []
  | blank, c :: cs =>
    if isSpace c then if blank then squeeze true cs else ' ' :: squeeze true cs
    else c :: squeeze false cs

section

variable [Casing]

/-- `normalize_headline`. -/
def normalizeHeadline (headline : String) : String :=
  String.ofList (squeeze false (Casing.lower (strip headline)).toList)

/-- `text.rstrip("/")`. -/
def withoutSlashes (text : String) : String :=
  String.ofList (text.toList.reverse.dropWhile (· = '/')).reverse

/-- `_norm_url`; an empty text counts as none. -/
def normUrl (url : Option String) : Option String :=
  (url.map fun url => withoutSlashes (Casing.lower (strip url))).filter (· ≠ "")

/-- `re.findall(r"[a-z0-9]+", ...)`, as a set. -/
def headlineWords (headline : String) : Finset (List Char) :=
  (((normalizeHeadline headline).toList.splitOnP fun c =>
    !(('a' ≤ c && c ≤ 'z') || c.isDigit)).filter (· ≠ [])).toFinset

/-- `_similar`: at least 60% of the words are shared. -/
def similar (a b : String) : Bool :=
  let na := headlineWords a
  let nb := headlineWords b
  decide (na ≠ ∅) && decide (nb ≠ ∅) && decide (3 * (na ∪ nb).card ≤ 5 * (na ∩ nb).card)

/-- `_fingerprint`. -/
def fingerprint (digest : String → String) (item : NewsItem) : String :=
  let symbols := String.intercalate "," ((item.symbols.map Casing.upper).insertionSort (· ≤ ·))
  let cats := String.intercalate "," (item.categories.insertionSort (· ≤ ·))
  digest (symbols ++ "|" ++ cats ++ "|" ++ takeChars 80 (normalizeHeadline item.headline))

/-! ## The matches -/

/-- The two were published within the window. -/
def inWindow (window : ℤ) (item other : NewsItem) : Bool :=
  decide (|item.publishedAt - other.publishedAt| ≤ window)

/-- The two share a symbol, their headlines are similar, and both are within the window. -/
def similarItem (window : ℤ) (item other : NewsItem) : Bool :=
  (other.symbols.map Casing.upper).any (· ∈ item.symbols.map Casing.upper) &&
    similar other.headline item.headline && inWindow window item other

/-- The items seen so far: three indices, the unique ones, and the clusters. -/
structure NewsIndex where
  byProvider : Dict NewsItem
  byUrl : Dict NewsItem
  byHeadline : Dict NewsItem
  unique : List NewsItem
  clusters : Dict NewsCluster

def providerId (item : NewsItem) : Option String := item.providerArticleId.filter (· ≠ "")

def matchOf (window : ℤ) (st : NewsIndex) (item : NewsItem) : Option (NewsItem × String) :=
  match (providerId item).bind (Dict.get? st.byProvider) with
  | some primary => some (primary, "provider_id")
  | none =>
    match (normUrl item.sourceUrlReference).bind (Dict.get? st.byUrl) with
    | some primary => some (primary, "url")
    | none =>
      match (Dict.get? st.byHeadline (normalizeHeadline item.headline)).filter
          (inWindow window item) with
      | some primary => some (primary, "headline_hash")
      | none => (st.unique.find? (similarItem window item)).map (·, "similar_headline")

/-- `_mark_dup`: the issue is named in the item's quality. A new quality would have no `overall`,
    so an item without one is not validated. -/
def markDup (item : NewsItem) (method : String) : Option NewsItem :=
  item.quality.map fun q =>
    { item with quality := some { q with issues := q.issues ++ ["duplicate:" ++ method] } }

/-- `_mark_dup` has its own name for the first method. -/
def issueOf (method : String) : String :=
  if method = "provider_id" then "provider_article_id" else method

def NewsCluster.join (cluster : NewsCluster) (member : NewsItem) (method : String) : NewsCluster :=
  let confidence := min 1 cluster.confidence
  { cluster with
    memberArticleIds :=
      if member.newsId ∈ cluster.memberArticleIds then cluster.memberArticleIds
      else cluster.memberArticleIds ++ [member.newsId]
    lastUpdatedAt := max cluster.lastUpdatedAt member.publishedAt
    deduplicationMethod := method
    confidence := if member.isCorrection then min confidence (9 / 10) else confidence }

/-- `_add_to_cluster`. -/
def addToCluster (digest : String → String) (clusters : Dict NewsCluster) (primary member : NewsItem)
    (method : String) : Dict NewsCluster :=
  match Dict.get? clusters (fingerprint digest primary) with
  | none => clusters
  | some cluster => Dict.set clusters (fingerprint digest primary) (cluster.join member method)

def openCluster (digest : String → String) (now : ℤ) (item : NewsItem) : NewsCluster :=
  let fp := fingerprint digest item
  { asOf := item.publishedAt
    collectedAt := item.collectedAt
    eventClusterId := fp
    primaryArticleId := item.newsId
    memberArticleIds := [item.newsId]
    firstSeenAt := item.publishedAt
    lastUpdatedAt := item.updatedAt.getD item.publishedAt
    affectedSymbols := item.symbols
    category := item.categories.head?
    confidence := 1
    deduplicationMethod := "primary"
    provenance :=
      { providerName := "news_cluster"
        providerRecordId := fp
        collectionTimestamp := now
        sourceTimestamp := item.publishedAt } }

/-- An index that may have nothing to add. -/
def indexed (index : Dict NewsItem) (key : Option String) (item : NewsItem) : Dict NewsItem :=
  match key with
  | some key => Dict.set index key item
  | none => index

def keep (digest : String → String) (now : ℤ) (st : NewsIndex) (item : NewsItem) : NewsIndex :=
  { byProvider := indexed st.byProvider (providerId item) item
    byUrl := indexed st.byUrl (normUrl item.sourceUrlReference) item
    byHeadline := Dict.set st.byHeadline (normalizeHeadline item.headline) item
    unique := st.unique ++ [item]
    clusters := Dict.set st.clusters (fingerprint digest item) (openCluster digest now item) }

/-- One item; `none` for the `ValidationError` of its mark. -/
def newsStep (digest : String → String) (window now : ℤ) (st : NewsIndex) (item : NewsItem) :
    Option NewsIndex :=
  match matchOf window st item with
  | some (primary, method) =>
    (markDup item (issueOf method)).map fun item =>
      { st with clusters := addToCluster digest st.clusters primary item method }
  | none => some (keep digest now st item)

def noNews : NewsIndex := ⟨[], [], [], [], []⟩

/-- `cluster_news`, up to the two results. -/
def clusterRun (digest : String → String) (window now : ℤ) (items : List NewsItem) :
    Option NewsIndex :=
  items.foldlM (newsStep digest window now) noNews

/-- `cluster_news`: the unique items and the clusters. -/
def clusterNews (digest : String → String) (window now : ℤ) (items : List NewsItem) :
    Option (List NewsItem × List NewsCluster) :=
  (clusterRun digest window now items).map fun st => (st.unique, st.clusters.map (·.2))

/-! ## The property -/

/-- The item matches a unique one: by the provider's id, by the URL, or by its headline within the
    window. -/
def Matches (window : ℤ) (item primary : NewsItem) : Prop :=
  (∃ id, providerId item = some id ∧ providerId primary = some id) ∨
  (∃ url, normUrl item.sourceUrlReference = some url ∧
    normUrl primary.sourceUrlReference = some url) ∨
  (normalizeHeadline item.headline = normalizeHeadline primary.headline ∧
    inWindow window item primary = true) ∨
  similarItem window item primary = true

structure Partition (digest : String → String) (window : ℤ) (items unique : List NewsItem)
    (clusters : List NewsCluster) : Prop where
  once : ∀ item ∈ items, (clusters.filter fun c => item.newsId ∈ c.memberArticleIds).length = 1
  primaries : (clusters.map (·.primaryArticleId)).Perm (unique.map (·.newsId))
  matched : ∀ item ∈ items, ∃ primary ∈ unique, (primary = item ∨ Matches window item primary) ∧
    ∃ c ∈ clusters, c.eventClusterId = fingerprint digest primary ∧
      c.primaryArticleId = primary.newsId ∧ item.newsId ∈ c.memberArticleIds

/-- Where an item goes, its mark apart, which no cluster reads. -/
def placed (digest : String → String) (window now : ℤ) (st : NewsIndex) (item : NewsItem) :
    NewsIndex :=
  match matchOf window st item with
  | some (primary, method) =>
    { st with clusters := addToCluster digest st.clusters primary item method }
  | none => keep digest now st item

/-- Every item that matches an earlier one has a quality to be marked in. -/
def MarkedRun (digest : String → String) (window now : ℤ) : NewsIndex → List NewsItem → Prop
  | _, [] => True
  | st, item :: items =>
    ((matchOf window st item).isSome → item.quality.isSome) ∧
      MarkedRun digest window now (placed digest window now st item) items

def target (digest : String → String) (window : ℤ) (st : NewsIndex) (item : NewsItem) : String :=
  match matchOf window st item with
  | some (primary, _) => fingerprint digest primary
  | none => fingerprint digest item

/-- The step of an item whose id is in no other cluster, and which takes no cluster's place if it
    is unique. -/
structure CleanStep (digest : String → String) (window : ℤ) (st : NewsIndex) (item : NewsItem) :
    Prop where
  fresh : matchOf window st item = none → Dict.get? st.clusters (fingerprint digest item) = none
  once : ∀ e ∈ st.clusters, item.newsId ∈ e.2.memberArticleIds → e.1 = target digest window st item

def CleanRun (digest : String → String) (window now : ℤ) : NewsIndex → List NewsItem → Prop
  | _, [] => True
  | st, item :: items =>
    CleanStep digest window st item ∧
      CleanRun digest window now (placed digest window now st item) items

end

/-! ## The matches are unique items -/

section Indices

variable {digest : String → String} {window now : ℤ} {st : NewsIndex} {item : NewsItem}

structure Indexed [Casing] (st : NewsIndex) : Prop where
  provider : ∀ id u, Dict.get? st.byProvider id = some u → u ∈ st.unique ∧ providerId u = some id
  url : ∀ url u, Dict.get? st.byUrl url = some u →
    u ∈ st.unique ∧ normUrl u.sourceUrlReference = some url
  headline : ∀ h u, Dict.get? st.byHeadline h = some u →
    u ∈ st.unique ∧ normalizeHeadline u.headline = h

theorem get?_indexed {index : Dict NewsItem} {key : Option String} {k : String} {u : NewsItem}
    (h : Dict.get? (indexed index key item) k = some u) :
    Dict.get? index k = some u ∨ (u = item ∧ key = some k) := by
  unfold indexed at h
  cases key with
  | none => exact Or.inl h
  | some key =>
    dsimp only at h
    rw [Dict.get?_set] at h
    split at h
    · rename_i hkey
      exact Or.inr ⟨(Option.some.inj h).symm, congrArg some hkey⟩
    · exact Or.inl h

theorem indexed_keep [Casing] (h : Indexed st) : Indexed (keep digest now st item) := by
  have hmem : item ∈ st.unique ++ [item] := List.mem_append.mpr (Or.inr (List.mem_singleton.mpr rfl))
  refine ⟨fun id u hu => ?_, fun url u hu => ?_, fun hh u hu => ?_⟩
  · rcases get?_indexed hu with hold | ⟨rfl, hid⟩
    · obtain ⟨hunique, hid⟩ := h.provider id u hold
      exact ⟨List.mem_append.mpr (Or.inl hunique), hid⟩
    · exact ⟨hmem, hid⟩
  · rcases get?_indexed hu with hold | ⟨rfl, hurl⟩
    · obtain ⟨hunique, hurl⟩ := h.url url u hold
      exact ⟨List.mem_append.mpr (Or.inl hunique), hurl⟩
    · exact ⟨hmem, hurl⟩
  · have hset : Dict.get? (Dict.set st.byHeadline (normalizeHeadline item.headline) item) hh =
      some u := hu
    rw [Dict.get?_set] at hset
    split at hset
    · rename_i hkey
      rw [← Option.some.inj hset]
      exact ⟨hmem, hkey⟩
    · obtain ⟨hunique, hhead⟩ := h.headline hh u hset
      exact ⟨List.mem_append.mpr (Or.inl hunique), hhead⟩

theorem indexed_placed [Casing] (h : Indexed st) : Indexed (placed digest window now st item) := by
  unfold placed
  split
  · exact ⟨h.provider, h.url, h.headline⟩
  · exact indexed_keep h

theorem matchOf_spec [Casing] (h : Indexed st) {primary : NewsItem} {method : String}
    (hmatch : matchOf window st item = some (primary, method)) :
    primary ∈ st.unique ∧ Matches window item primary := by
  unfold matchOf at hmatch
  split at hmatch
  · rename_i u hprovider
    cases hmatch
    obtain ⟨id, hid, hget⟩ := Option.bind_eq_some_iff.mp hprovider
    obtain ⟨hunique, hprimary⟩ := h.provider id _ hget
    exact ⟨hunique, Or.inl ⟨id, hid, hprimary⟩⟩
  · split at hmatch
    · rename_i u hurl
      cases hmatch
      obtain ⟨url, hid, hget⟩ := Option.bind_eq_some_iff.mp hurl
      obtain ⟨hunique, hprimary⟩ := h.url url _ hget
      exact ⟨hunique, Or.inr (Or.inl ⟨url, hid, hprimary⟩)⟩
    · split at hmatch
      · rename_i u hheadline
        cases hmatch
        obtain ⟨hget, hwindow⟩ := Option.filter_eq_some_iff.mp hheadline
        obtain ⟨hunique, hprimary⟩ := h.headline _ _ hget
        exact ⟨hunique, Or.inr (Or.inr (Or.inl ⟨hprimary.symm, hwindow⟩))⟩
      · obtain ⟨u, hfind, heq⟩ := Option.map_eq_some_iff.mp hmatch
        cases heq
        exact ⟨List.mem_of_find?_eq_some hfind,
          Or.inr (Or.inr (Or.inr (List.find?_some hfind)))⟩

end Indices

/-! ## Clean steps keep the partition -/

def holds (id : String) (e : String × NewsCluster) : Bool := decide (id ∈ e.2.memberArticleIds)

theorem mem_join {cluster : NewsCluster} {member : NewsItem} {method id : String} :
    id ∈ (cluster.join member method).memberArticleIds ↔
      id ∈ cluster.memberArticleIds ∨ id = member.newsId := by
  unfold NewsCluster.join
  dsimp only
  split
  · rename_i hmem
    refine ⟨Or.inl, fun h => ?_⟩
    rcases h with hold | heq
    · exact hold
    · rw [heq]
      exact hmem
  · simp

/-- The clusters of the items so far, in the order of the unique ones. -/
structure Partitioned [Casing] (digest : String → String) (window : ℤ) (items : List NewsItem)
    (st : NewsIndex) : Prop where
  indexed : Indexed st
  aligned : st.clusters.map (fun e => (e.1, e.2.eventClusterId, e.2.primaryArticleId)) =
    st.unique.map fun u => (fingerprint digest u, fingerprint digest u, u.newsId)
  distinct : (st.clusters.map (·.1)).Nodup
  once : ∀ item ∈ items, st.clusters.countP (holds item.newsId) = 1
  matched : ∀ item ∈ items, ∃ primary ∈ st.unique, (primary = item ∨ Matches window item primary) ∧
    ∃ e ∈ st.clusters, e.1 = fingerprint digest primary ∧ item.newsId ∈ e.2.memberArticleIds

section Steps

variable {digest : String → String} {window now : ℤ} {st : NewsIndex} {item : NewsItem}
  {items : List NewsItem}

section

variable [Casing]

theorem Partitioned.keys (h : Partitioned digest window items st) :
    st.clusters.map (·.1) = st.unique.map (fingerprint digest) := by
  have hfirst := congrArg (List.map Prod.fst) h.aligned
  simpa [List.map_map, Function.comp_def] using hfirst

theorem Partitioned.primary (h : Partitioned digest window items st) {e : String × NewsCluster}
    (he : e ∈ st.clusters) : ∃ u ∈ st.unique, e.1 = fingerprint digest u ∧
      e.2.eventClusterId = fingerprint digest u ∧ e.2.primaryArticleId = u.newsId := by
  have hmem := List.mem_map_of_mem (f := fun e : String × NewsCluster =>
    (e.1, e.2.eventClusterId, e.2.primaryArticleId)) he
  rw [h.aligned] at hmem
  obtain ⟨u, hu, heq⟩ := List.mem_map.mp hmem
  simp only [Prod.mk.injEq] at heq
  exact ⟨u, hu, heq.1.symm, heq.2.1.symm, heq.2.2.symm⟩

theorem Partitioned.cluster (h : Partitioned digest window items st) {u : NewsItem}
    (hu : u ∈ st.unique) : ∃ c, Dict.get? st.clusters (fingerprint digest u) = some c := by
  apply Option.ne_none_iff_exists'.mp
  rw [Ne, Dict.get?_eq_none_iff, h.keys, not_not]
  exact List.mem_map_of_mem hu

theorem partitioned_nil : Partitioned digest window [] noNews where
  indexed := ⟨(fun _ _ h => nomatch h), (fun _ _ h => nomatch h), (fun _ _ h => nomatch h)⟩
  aligned := rfl
  distinct := List.nodup_nil
  once := by simp
  matched := by simp

theorem partitioned_joined (h : Partitioned digest window items st) {primary : NewsItem}
    {method : String} (hmatch : matchOf window st item = some (primary, method))
    (hclean : CleanStep digest window st item) :
    Partitioned digest window (items ++ [item]) (placed digest window now st item) := by
  obtain ⟨hunique, hmatches⟩ := matchOf_spec h.indexed hmatch
  obtain ⟨c, hc⟩ := h.cluster hunique
  obtain ⟨front, back, hsplit, hset⟩ := Dict.exists_set_eq hc
  have htarget : target digest window st item = fingerprint digest primary := by
    unfold target
    rw [hmatch]
  have hstep : placed digest window now st item =
      { st with clusters := front ++ (fingerprint digest primary,
          c.join item method) :: back } := by
    unfold placed addToCluster
    rw [hmatch]
    dsimp only
    rw [hc]
    dsimp only
    rw [hset]
  have hkeys := h.distinct
  rw [hsplit, List.map_append, List.map_cons, List.nodup_middle, List.nodup_cons] at hkeys
  have hother : ∀ e ∈ front ++ back, holds item.newsId e = false := by
    intro e he
    rw [Bool.eq_false_iff]
    intro hholds
    have hmem : e ∈ st.clusters := by
      rw [hsplit]
      rcases List.mem_append.mp he with hf | hb
      · exact List.mem_append.mpr (Or.inl hf)
      · exact List.mem_append.mpr (Or.inr (List.mem_cons_of_mem _ hb))
    have hkey := (hclean.once e hmem (by simpa [holds] using hholds)).trans htarget
    have hrepeated := List.mem_map_of_mem (f := fun e : String × NewsCluster => e.1) he
    rw [List.map_append, hkey] at hrepeated
    exact hkeys.1 hrepeated
  have hcount : ∀ id, (front ++ (fingerprint digest primary,
      c.join item method) :: back).countP (holds id) =
      if id = item.newsId then 1 else st.clusters.countP (holds id) := by
    intro id
    split
    · rename_i hid
      have hnone : (front ++ back).countP (holds id) = 0 := by
        rw [hid]
        exact List.countP_eq_zero.mpr fun e he => by simp [hother e he]
      rw [List.countP_append] at hnone
      rw [List.countP_append, List.countP_cons]
      have hhere : holds id (fingerprint digest primary,
          c.join item method) = true := by
        simp [holds, mem_join, hid]
      rw [hhere]
      simp
      omega
    · rename_i hid
      rw [hsplit, List.countP_append, List.countP_append, List.countP_cons, List.countP_cons]
      have hsame : holds id (fingerprint digest primary,
          c.join item method) =
          holds id (fingerprint digest primary, c) := by
        simp only [holds, mem_join]
        simp [hid]
      rw [hsame]
  rw [hstep]
  refine ⟨⟨h.indexed.provider, h.indexed.url, h.indexed.headline⟩, ?_, ?_, fun i hi => ?_,
    fun i hi => ?_⟩
  · have haligned := h.aligned
    rw [hsplit] at haligned
    dsimp only
    rw [← haligned]
    simp [NewsCluster.join]
  · dsimp only
    rw [List.map_append, List.map_cons, List.nodup_middle, List.nodup_cons]
    exact hkeys
  · dsimp only
    rw [hcount]
    split
    · rfl
    · rename_i hid
      rcases List.mem_append.mp hi with hold | hnew
      · exact h.once i hold
      · rw [List.mem_singleton.mp hnew] at hid
        exact absurd rfl hid
  · have hlast : (fingerprint digest primary, c.join item method) ∈
        front ++ (fingerprint digest primary, c.join item method) ::
          back := List.mem_append.mpr (Or.inr List.mem_cons_self)
    rcases List.mem_append.mp hi with hold | hnew
    · obtain ⟨u, hu, hrelated, e, he, hkey, hmember⟩ := h.matched i hold
      refine ⟨u, hu, hrelated, ?_⟩
      rw [hsplit] at he
      rcases List.mem_append.mp he with hf | hb
      · exact ⟨e, List.mem_append.mpr (Or.inl hf), hkey, hmember⟩
      · rcases List.mem_cons.mp hb with rfl | hb
        · exact ⟨_, hlast, hkey, mem_join.mpr (Or.inl hmember)⟩
        · exact ⟨e, List.mem_append.mpr (Or.inr (List.mem_cons_of_mem _ hb)), hkey, hmember⟩
    · rw [List.mem_singleton.mp hnew]
      exact ⟨primary, hunique, Or.inr hmatches, _, hlast, rfl, mem_join.mpr (Or.inr rfl)⟩

theorem partitioned_kept (h : Partitioned digest window items st)
    (hmatch : matchOf window st item = none) (hclean : CleanStep digest window st item) :
    Partitioned digest window (items ++ [item]) (placed digest window now st item) := by
  have hfresh := Dict.get?_eq_none_iff.mp (hclean.fresh hmatch)
  have htarget : target digest window st item = fingerprint digest item := by
    unfold target
    rw [hmatch]
  have hnone : st.clusters.countP (holds item.newsId) = 0 := by
    rw [List.countP_eq_zero]
    intro e he hholds
    have hkey := (hclean.once e he (by simpa [holds] using hholds)).trans htarget
    exact hfresh (hkey ▸ List.mem_map_of_mem he)
  have hclusters : (placed digest window now st item).clusters =
      st.clusters ++ [(fingerprint digest item, openCluster digest now item)] := by
    unfold placed
    rw [hmatch]
    exact Dict.set_of_notMem hfresh
  have hunique : (placed digest window now st item).unique = st.unique ++ [item] := by
    unfold placed
    rw [hmatch]
    rfl
  refine ⟨indexed_placed h.indexed, ?_, ?_, fun i hi => ?_, fun i hi => ?_⟩
  · rw [hclusters, hunique, List.map_append, List.map_append, h.aligned]
    rfl
  · rw [hclusters, List.map_append, List.nodup_append]
    refine ⟨h.distinct, List.nodup_singleton _, fun a ha b hb heq => ?_⟩
    rw [heq, List.mem_singleton.mp hb] at ha
    exact hfresh ha
  · rw [hclusters, List.countP_append]
    rcases List.mem_append.mp hi with hold | hnew
    · have hone := h.once i hold
      have hid : i.newsId ≠ item.newsId := by
        intro heq
        rw [heq, hnone] at hone
        cases hone
      rw [hone]
      simp [holds, openCluster, hid]
    · rw [List.mem_singleton.mp hnew, hnone]
      simp [holds, openCluster]
  · rw [hclusters, hunique]
    rcases List.mem_append.mp hi with hold | hnew
    · obtain ⟨u, hu, hrelated, e, he, hkey, hmember⟩ := h.matched i hold
      exact ⟨u, List.mem_append.mpr (Or.inl hu), hrelated, e, List.mem_append.mpr (Or.inl he), hkey,
        hmember⟩
    · rw [List.mem_singleton.mp hnew]
      refine ⟨item, by simp, Or.inl rfl, (fingerprint digest item, openCluster digest now item),
        by simp, rfl, ?_⟩
      simp [openCluster]

theorem partitioned_placed (h : Partitioned digest window items st)
    (hclean : CleanStep digest window st item) :
    Partitioned digest window (items ++ [item]) (placed digest window now st item) := by
  cases hmatch : matchOf window st item with
  | none => exact partitioned_kept h hmatch hclean
  | some found => exact partitioned_joined h hmatch hclean

end

/-! ## A step that is not clean -/

/-- The partition is lost: a unique item has no cluster, or an id is in two. -/
def Broken (items : List NewsItem) (st : NewsIndex) : Prop :=
  st.clusters.length < st.unique.length ∨
    ∃ item ∈ items, 2 ≤ st.clusters.countP (holds item.newsId)

theorem two_le_countP {α : Type} {p : α → Bool} {xs : List α} {a b : α} (ha : a ∈ xs) (hb : b ∈ xs)
    (hne : a ≠ b) (hpa : p a = true) (hpb : p b = true) : 2 ≤ xs.countP p := by
  rw [List.countP_eq_length_filter]
  have hma : a ∈ xs.filter p := List.mem_filter.mpr ⟨ha, hpa⟩
  have hmb : b ∈ xs.filter p := List.mem_filter.mpr ⟨hb, hpb⟩
  match hlist : xs.filter p with
  | [] =>
    rw [hlist] at hma
    cases hma
  | [x] =>
    rw [hlist, List.mem_singleton] at hma hmb
    exact absurd (hma.trans hmb.symm) hne
  | x :: y :: rest => simp

theorem placed_cases [Casing] (digest : String → String) (window now : ℤ) (st : NewsIndex)
    (item : NewsItem) :
    (∃ primary method, matchOf window st item = some (primary, method) ∧
      Dict.get? st.clusters (fingerprint digest primary) = none ∧
      placed digest window now st item = st) ∨
    (∃ primary method c, matchOf window st item = some (primary, method) ∧
      Dict.get? st.clusters (fingerprint digest primary) = some c ∧
      placed digest window now st item = { st with
        clusters := Dict.set st.clusters (fingerprint digest primary)
          (c.join item method) }) ∨
    (matchOf window st item = none ∧ placed digest window now st item = keep digest now st item) := by
  unfold placed addToCluster
  cases hmatch : matchOf window st item with
  | none => exact Or.inr (Or.inr ⟨rfl, rfl⟩)
  | some found =>
    obtain ⟨primary, method⟩ := found
    cases hget : Dict.get? st.clusters (fingerprint digest primary) with
    | none =>
      refine Or.inl ⟨primary, method, rfl, hget, ?_⟩
      dsimp only
      rw [hget]
    | some c =>
      refine Or.inr (Or.inl ⟨primary, method, c, rfl, hget, ?_⟩)
      dsimp only
      rw [hget]

theorem length_set_of_some {clusters : Dict NewsCluster} {k : String} {old c : NewsCluster}
    (h : Dict.get? clusters k = some old) : (Dict.set clusters k c).length = clusters.length := by
  obtain ⟨front, back, hsplit, hset⟩ := Dict.exists_set_eq h
  rw [hset, hsplit]
  simp

theorem length_set_of_none {clusters : Dict NewsCluster} {k : String} {c : NewsCluster}
    (h : Dict.get? clusters k = none) : (Dict.set clusters k c).length = clusters.length + 1 := by
  rw [Dict.set_of_notMem (Dict.get?_eq_none_iff.mp h)]
  simp

theorem length_clusters_le [Casing] (h : st.clusters.length ≤ st.unique.length) :
    (placed digest window now st item).clusters.length ≤
      (placed digest window now st item).unique.length := by
  rcases placed_cases digest window now st item with ⟨p, m, _, _, hstep⟩ | ⟨p, m, c, _, hget, hstep⟩ |
    ⟨_, hstep⟩
  · rw [hstep]
    exact h
  · rw [hstep]
    dsimp only
    rw [length_set_of_some hget]
    exact h
  · rw [hstep]
    unfold keep
    dsimp only
    rw [List.length_append, List.length_singleton]
    cases hget : Dict.get? st.clusters (fingerprint digest item) with
    | none =>
      rw [length_set_of_none hget]
      omega
    | some c =>
      rw [length_set_of_some hget]
      omega

theorem broken_placed [Casing] (h : Broken items st) (hlength : st.clusters.length ≤ st.unique.length) :
    Broken (items ++ [item]) (placed digest window now st item) := by
  have hold : ∀ {i}, i ∈ items → i ∈ items ++ [item] := fun hi => List.mem_append.mpr (Or.inl hi)
  rcases placed_cases digest window now st item with ⟨p, m, _, _, hstep⟩ | ⟨p, m, c, _, hget, hstep⟩ |
    ⟨_, hstep⟩
  · rw [hstep]
    exact h.imp_right fun ⟨i, hi, htwo⟩ => ⟨i, hold hi, htwo⟩
  · rw [hstep]
    refine h.imp (fun hless => ?_) fun ⟨i, hi, htwo⟩ => ⟨i, hold hi, htwo.trans ?_⟩
    · dsimp only
      rw [length_set_of_some hget]
      exact hless
    · obtain ⟨front, back, hsplit, hset⟩ := Dict.exists_set_eq hget
      dsimp only
      rw [hset, hsplit, List.countP_append, List.countP_append, List.countP_cons, List.countP_cons]
      have hjoin : holds i.newsId (fingerprint digest p, c) = true →
          holds i.newsId (fingerprint digest p,
            c.join item m) = true := by
        intro hholds
        simp only [holds, decide_eq_true_eq] at hholds ⊢
        exact mem_join.mpr (Or.inl hholds)
      split_ifs with hbefore hafter
      · omega
      · exact absurd (hjoin hbefore) hafter
      · omega
      · omega
  · rw [hstep]
    unfold Broken keep
    dsimp only
    rw [List.length_append, List.length_singleton]
    cases hget : Dict.get? st.clusters (fingerprint digest item) with
    | none =>
      refine h.imp (fun hless => ?_) fun ⟨i, hi, htwo⟩ => ⟨i, hold hi, htwo.trans ?_⟩
      · rw [length_set_of_none hget]
        omega
      · rw [Dict.set_of_notMem (Dict.get?_eq_none_iff.mp hget), List.countP_append]
        omega
    | some c =>
      left
      rw [length_set_of_some hget]
      omega

theorem broken_of_unclean [Casing] (h : Partitioned digest window items st)
    (hunclean : ¬ CleanStep digest window st item) :
    Broken (items ++ [item]) (placed digest window now st item) := by
  have hlength : st.clusters.length = st.unique.length := by
    have hkeys := congrArg List.length h.keys
    simpa using hkeys
  have hlast : item ∈ items ++ [item] := by simp
  have hstray : (∀ e ∈ st.clusters, item.newsId ∈ e.2.memberArticleIds →
      e.1 = target digest window st item) ∨
      ∃ e ∈ st.clusters, item.newsId ∈ e.2.memberArticleIds ∧
        e.1 ≠ target digest window st item := by
    by_contra hnot
    rw [not_or] at hnot
    refine hnot.1 fun e he hmember => ?_
    by_contra hne
    exact hnot.2 ⟨e, he, hmember, hne⟩
  rcases placed_cases digest window now st item with ⟨p, m, hmatch, hget, _⟩ |
    ⟨p, m, c, hmatch, hget, hstep⟩ | ⟨hmatch, hstep⟩
  · obtain ⟨c, hc⟩ := h.cluster (matchOf_spec h.indexed hmatch).1
    rw [hget] at hc
    cases hc
  · have htarget : target digest window st item = fingerprint digest p := by
      unfold target
      rw [hmatch]
    rcases hstray with honce | ⟨e, he, hmember, hne⟩
    · refine absurd ⟨fun hnone => ?_, honce⟩ hunclean
      rw [hmatch] at hnone
      cases hnone
    · right
      refine ⟨item, hlast, ?_⟩
      rw [hstep]
      dsimp only
      rw [htarget] at hne
      obtain ⟨front, back, hsplit, hset⟩ := Dict.exists_set_eq hget
      have hother : e ∈ front ++ back := by
        rw [hsplit] at he
        rcases List.mem_append.mp he with hf | hb
        · exact List.mem_append.mpr (Or.inl hf)
        · rcases List.mem_cons.mp hb with rfl | hb
          · exact absurd rfl hne
          · exact List.mem_append.mpr (Or.inr hb)
      rw [hset]
      refine two_le_countP (a := e) (b := (fingerprint digest p,
        c.join item m)) ?_ ?_ (fun heq => hne (congrArg Prod.fst heq)) ?_ ?_
      · rcases List.mem_append.mp hother with hf | hb
        · exact List.mem_append.mpr (Or.inl hf)
        · exact List.mem_append.mpr (Or.inr (List.mem_cons_of_mem _ hb))
      · exact List.mem_append.mpr (Or.inr List.mem_cons_self)
      · simpa [holds] using hmember
      · have hjoined : item.newsId ∈ (c.join item m).memberArticleIds :=
          mem_join.mpr (Or.inr rfl)
        simpa [holds] using hjoined
  · have htarget : target digest window st item = fingerprint digest item := by
      unfold target
      rw [hmatch]
    rw [hstep]
    unfold Broken keep
    dsimp only
    cases hget : Dict.get? st.clusters (fingerprint digest item) with
    | some c =>
      left
      rw [length_set_of_some hget, List.length_append, List.length_singleton]
      omega
    | none =>
      rcases hstray with honce | ⟨e, he, hmember, hne⟩
      · exact absurd ⟨fun _ => hget, honce⟩ hunclean
      · right
        rw [htarget] at hne
        refine ⟨item, hlast, ?_⟩
        rw [Dict.set_of_notMem (Dict.get?_eq_none_iff.mp hget)]
        refine two_le_countP (a := e) (b := (fingerprint digest item, openCluster digest now item))
          (List.mem_append.mpr (Or.inl he)) (by simp) (fun heq => hne (congrArg Prod.fst heq)) ?_ ?_
        · simpa [holds] using hmember
        · simp [holds, openCluster]

end Steps

/-! ## Whole runs -/

section Runs

variable {digest : String → String} {window now : ℤ} {st : NewsIndex} {done items : List NewsItem}

theorem newsStep_eq_some_iff [Casing] {st' : NewsIndex} {item : NewsItem} :
    newsStep digest window now st item = some st' ↔
      ((matchOf window st item).isSome → item.quality.isSome) ∧
        placed digest window now st item = st' := by
  unfold newsStep placed
  cases matchOf window st item with
  | none => simp
  | some found =>
    obtain ⟨primary, method⟩ := found
    unfold markDup
    cases hquality : item.quality with
    | none => simp
    | some q => simp [addToCluster, NewsCluster.join]

theorem foldlM_newsStep_iff [Casing] {st' : NewsIndex} :
    items.foldlM (newsStep digest window now) st = some st' ↔
      MarkedRun digest window now st items ∧ items.foldl (placed digest window now) st = st' := by
  induction items generalizing st with
  | nil => simp [MarkedRun]
  | cons item items ih =>
    rw [List.foldlM_cons, Option.bind_eq_bind, Option.bind_eq_some_iff]
    simp only [newsStep_eq_some_iff, ih, MarkedRun, List.foldl_cons]
    constructor
    · rintro ⟨st₁, ⟨hmarked, rfl⟩, hrun, hend⟩
      exact ⟨⟨hmarked, hrun⟩, hend⟩
    · rintro ⟨⟨hmarked, hrun⟩, hend⟩
      exact ⟨_, ⟨hmarked, rfl⟩, hrun, hend⟩

theorem broken_run [Casing] (h : Broken done st) (hlength : st.clusters.length ≤ st.unique.length) :
    Broken (done ++ items) (items.foldl (placed digest window now) st) := by
  induction items generalizing done st with
  | nil => simpa using h
  | cons item items ih =>
    have hstep : Broken (done ++ [item]) (placed digest window now st item) :=
      broken_placed h hlength
    have hrun := ih hstep (length_clusters_le hlength)
    rw [List.append_assoc] at hrun
    exact hrun

/-- A clean run partitions its items, and any other breaks the partition. -/
theorem run_cases [Casing] (now : ℤ) (items : List NewsItem) (h : Partitioned digest window done st) :
    (CleanRun digest window now st items ∧
      Partitioned digest window (done ++ items) (items.foldl (placed digest window now) st)) ∨
    (¬ CleanRun digest window now st items ∧
      Broken (done ++ items) (items.foldl (placed digest window now) st)) := by
  induction items generalizing done st with
  | nil => exact Or.inl ⟨trivial, by simpa using h⟩
  | cons item items ih =>
    have hsplit : done ++ item :: items = (done ++ [item]) ++ items := by simp
    have hlength : st.clusters.length ≤ st.unique.length := by
      have hkeys := congrArg List.length h.keys
      simp only [List.length_map] at hkeys
      exact hkeys.le
    by_cases hclean : CleanStep digest window st item
    · have hstep : Partitioned digest window (done ++ [item]) (placed digest window now st item) :=
        partitioned_placed h hclean
      rw [hsplit]
      refine (ih hstep).imp (fun hrun => ?_) fun hrun => ?_
      · exact ⟨⟨hclean, hrun.1⟩, hrun.2⟩
      · exact ⟨fun hall => hrun.1 hall.2, hrun.2⟩
    · right
      refine ⟨fun hall => hclean hall.1, ?_⟩
      rw [hsplit]
      exact broken_run (broken_of_unclean h hclean) (length_clusters_le hlength)

theorem length_filter_members (clusters : Dict NewsCluster) (id : String) :
    ((clusters.map (·.2)).filter fun c => id ∈ c.memberArticleIds).length =
      clusters.countP (holds id) := by
  rw [← List.countP_eq_length_filter, List.countP_map]
  rfl

theorem partition_of_partitioned [Casing] (h : Partitioned digest window items st) :
    Partition digest window items st.unique (st.clusters.map (·.2)) := by
  refine ⟨fun item hitem => ?_, ?_, fun item hitem => ?_⟩
  · rw [length_filter_members]
    exact h.once item hitem
  · have hids := congrArg (List.map fun e : String × String × String => e.2.2) h.aligned
    simp only [List.map_map, Function.comp_def] at hids
    rw [List.map_map]
    simp only [Function.comp_def]
    rw [hids]
  · obtain ⟨u, hu, hrelated, e, he, hkey, hmember⟩ := h.matched item hitem
    refine ⟨u, hu, hrelated, e.2, List.mem_map_of_mem he, ?_, ?_, hmember⟩
    · obtain ⟨u', _, hkey', hid, _⟩ := h.primary he
      rw [hid, ← hkey', hkey]
    · obtain ⟨u', hu', hkey', _, hprimary⟩ := h.primary he
      have hnodup := h.distinct
      rw [h.keys] at hnodup
      rw [hprimary, List.inj_on_of_nodup_map hnodup hu' hu (hkey'.symm.trans hkey)]

theorem not_partition_of_broken [Casing] (h : Broken items st) :
    ¬ Partition digest window items st.unique (st.clusters.map (·.2)) := by
  rintro ⟨honce, hprimaries, _⟩
  rcases h with hless | ⟨item, hitem, htwo⟩
  · have hlength := hprimaries.length_eq
    simp only [List.length_map] at hlength
    omega
  · have hone := honce item hitem
    rw [length_filter_members] at hone
    omega

end Runs

/-- **When the clusters partition the items.** The call returns and they do exactly where every item
    that matches an earlier one has a quality, and every step is clean: a unique item's fingerprint
    is new, and no item's id is in a cluster that it does not go to. -/
theorem partition_iff [Casing] (digest : String → String) (window now : ℤ) (items : List NewsItem) :
    (∃ unique clusters, clusterNews digest window now items = some (unique, clusters) ∧
        Partition digest window items unique clusters) ↔
      MarkedRun digest window now noNews items ∧ CleanRun digest window now noNews items := by
  have hreturns : ∀ unique clusters, clusterNews digest window now items = some (unique, clusters) ↔
      MarkedRun digest window now noNews items ∧
        (items.foldl (placed digest window now) noNews).unique = unique ∧
        (items.foldl (placed digest window now) noNews).clusters.map (·.2) = clusters := by
    intro unique clusters
    unfold clusterNews clusterRun
    rw [Option.map_eq_some_iff]
    simp only [foldlM_newsStep_iff, Prod.mk.injEq]
    exact ⟨fun ⟨st, ⟨hmarked, hst⟩, hend⟩ => hst ▸ ⟨hmarked, hend⟩,
      fun ⟨hmarked, hend⟩ => ⟨_, ⟨hmarked, rfl⟩, hend⟩⟩
  simp only [hreturns]
  have hstart : Partitioned digest window [] noNews := partitioned_nil
  have hrun := run_cases now items hstart
  rw [List.nil_append] at hrun
  rcases hrun with ⟨hclean, hpartitioned⟩ | ⟨hunclean, hbroken⟩
  · constructor
    · rintro ⟨unique, clusters, ⟨hmarked, -⟩, -⟩
      exact ⟨hmarked, hclean⟩
    · rintro ⟨hmarked, -⟩
      exact ⟨_, _, ⟨hmarked, rfl, rfl⟩, partition_of_partitioned hpartitioned⟩
  · refine iff_of_false ?_ fun h => hunclean h.2
    rintro ⟨unique, clusters, ⟨-, rfl, rfl⟩, hpartition⟩
    exact not_partition_of_broken hbroken hpartition

end Texts

section Sample

attribute [local instance] asciiCasing

def report (newsId : String) (hour : ℤ) : NewsItem where
  newsId
  providerArticleId := none
  headline := "Acme beats estimates"
  sourceUrlReference := none
  publishedAt := hour * 3600000000
  updatedAt := none
  collectedAt := none
  symbols := ["ACME"]
  categories := []
  isCorrection := false
  quality := some { overall := 1 }

/-- The headline of the morning is repeated in the evening: the first report is in no cluster. -/
theorem evening_repeat_lost :
    ¬ ∀ (digest : String → String) (window now : ℤ) (items : List NewsItem), ∃ unique clusters,
      clusterNews digest window now items = some (unique, clusters) ∧
        Partition digest window items unique clusters := by
  intro h
  obtain ⟨unique, clusters, hreturns, hevening⟩ :=
    h id (6 * 3600000000) 0 [report "a" 8, report "b" 20]
  have hlost : (clusterNews id (6 * 3600000000) 0 [report "a" 8, report "b" 20]).all (fun r =>
      (r.2.filter fun c => (report "a" 8).newsId ∈ c.memberArticleIds).length = 0) = true := by
    decide +kernel
  rw [hreturns, Option.all_some, decide_eq_true_iff] at hlost
  rw [hevening.once (report "a" 8) (by simp)] at hlost
  cases hlost

/-- A duplicate without a quality. -/
example : clusterNews id (6 * 3600000000) 0 [report "a" 8, { report "b" 9 with quality := none }] =
    none := by decide +kernel

end Sample

end Investor.DataQuality
