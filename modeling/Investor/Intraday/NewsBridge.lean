import Investor.Intraday.DedupedEvents
import Investor.Market.Venues

/-!
# News on the event bus

`ingest_high_importance_news` takes the newest rows of the lookback and only then asks which of
them matter, and it leaves it to the bus not to publish a row twice. The bus forgets a row that
was dealt with once the window is over, long before the lookback is. So forty newer rows of no
importance hide one that matters, and a row that was handled is published again
(`news_missed_and_repeated`).

`newsPublishedOnce_iff` says of every run when each row that was to be published is on the bus
once.
-/

namespace Investor.Intraday

open Lib
open Market (Settings Venue)

/-! ## News -/

/-- A row of `news_items`, less the columns that nothing here reads. -/
structure NewsItem where
  id : String
  provider : String
  externalId : Option String
  headline : String
  headlineHash : String
  publishedAt : Int
  symbols : List Json
  category : Option String
  rawPayload : Json
  isDuplicate : Bool

/-- `_HIGH_CATEGORIES`. -/
def HIGH_CATEGORIES : List String :=
  ["earnings", "fed", "macro", "mna", "m&a", "guidance", "fda", "lawsuit", "downgrade", "upgrade"]

/-- `_HIGH_HEADLINE_TOKENS`. -/
def HIGH_HEADLINE_TOKENS : List String :=
  ["earnings", "fed ", "fomc", "cpi ", "inflation", "bankruptcy", "sec charges", "downgrade", "guidance cut",
    "acquisition", "halted"]

structure BridgeSettings where
  venues : Settings
  primaryBenchmark : String
  primaryBenchmarkAu : String
  intradayNewsLookbackMinutes : Int
  eventDeduplicationWindowSeconds : Int

/-- The settings, the book that `parse_venue` found, `str` and `isoformat`, and the sorts of the two queries. -/
structure Bridge where
  cfg : BridgeSettings
  book : Option Venue
  str : Json → String
  isoformat : Int → String
  newest : NewestFirst NewsItem.publishedAt
  detected : NewestFirst IntradayEvent.detectedAt

/-- A call of `ingest_high_importance_news`. `clock` is when a row is published, if it is. -/
structure NewsTick where
  now : Int
  lookbackMinutes : Option Int
  limit : ℕ
  heldSymbols : List String
  clock : NewsItem → Int

structure IngestResult where
  scanned : ℕ
  published : ℕ
  skipped : ℕ
  eventIds : List ℕ
  lookbackMinutes : Int
  venue : Option String

namespace Bridge

section Ingest

variable (b : Bridge)

def classifyNewsImportance [Casing] (item : NewsItem) : Option String :=
  let payload := match item.rawPayload with
    | .obj entries => entries
    | _ => []
  let rawImp := Casing.lower (valueText b.str
    ((Dict.at payload "importance").orElse ((Dict.at payload "priority").orElse (.str ""))))
  let cat := strip (Casing.lower (item.category.getD ""))
  if rawImp ∈ ["critical", "high"] then some rawImp
  else if cat ∈ HIGH_CATEGORIES ∨ ["earn", "fed", "macro"].any (hasPart cat) then some "high"
  else if HIGH_HEADLINE_TOKENS.any (hasPart (Casing.lower item.headline)) then some "high"
  else none

def newsRelevantToVenue [Casing] (newsSymbols : List String) (want : Venue) (heldSymbols : List String) :
    Bool :=
  let tagged := (newsSymbols.filter (· ≠ "")).map Casing.upper
  let held := (heldSymbols.filter (· ≠ "")).map Casing.upper
  let benchmark := match want with
    | .au => Casing.upper (if b.cfg.primaryBenchmarkAu = "" then "VAS" else b.cfg.primaryBenchmarkAu)
    | .us => Casing.upper (if b.cfg.primaryBenchmark = "" then "SPY" else b.cfg.primaryBenchmark)
  tagged.isEmpty || tagged.any fun s => s ∈ b.cfg.venues.allowlistForVenue want || s = benchmark || s ∈ held

def itemSyms [Casing] (item : NewsItem) : List String :=
  (item.symbols.filter Json.truthy).map fun s => Casing.upper (valueText b.str s)

def escalates [Casing] (tick : NewsTick) (item : NewsItem) : Option String :=
  (b.classifyNewsImportance item).filter fun _ => b.book.all fun book =>
    b.newsRelevantToVenue (b.itemSyms item) book ((tick.heldSymbols.filter (· ≠ "")).map Casing.upper)

def dedupe (item : NewsItem) : String :=
  let key := "news:" ++ (item.provider ++ (":" ++ (item.externalId.filter (· ≠ "")).getD item.headlineHash))
  match b.book with
  | some book => book.value ++ (":" ++ key)
  | none => key

variable [Casing]

def publication (item : NewsItem) (importance : String) : Publication :=
  { eventType := "HIGH_IMPORTANCE_NEWS", source := "news_bridge", symbols := (b.itemSyms item).take 12, importance
    deduplicationKey := b.dedupe item, requiresAnalysis := true, requiresRiskReview := importance = "critical"
    requiresExecutionReview := false
    payload := [("headline", .str (takeChars 240 item.headline)), ("news_id", .str item.id),
      ("category", item.category.elim .null .str), ("published_at", .str (b.isoformat item.publishedAt)),
      ("venue", b.book.elim .null fun book => .str book.value)]
    workflowRunId := none, decisionId := none, intentId := none, orderId := none, positionId := none
    sourceEventId := none, bypassCooldown := false }

/-- `max(15, int(lookback_minutes or cfg.intraday_news_lookback_minutes))`. -/
def lookback (tick : NewsTick) : Int :=
  max 15 ((tick.lookbackMinutes.filter (· ≠ 0)).getD b.cfg.intradayNewsLookbackMinutes)

def cutoff (tick : NewsTick) : Int := tick.now - b.lookback tick * 60 * 1000000

def scanned (rows : List NewsItem) (tick : NewsTick) : List NewsItem :=
  (b.newest.sort (rows.filter fun x => b.cutoff tick ≤ x.publishedAt && !x.isDuplicate)).take tick.limit

def publishItem (tick : NewsTick) (item : NewsItem) (importance : String) (t : EventTable) :
    EventTable × Option EventPublishResult :=
  publish b.detected b.cfg.eventDeduplicationWindowSeconds (b.publication item importance) (tick.clock item) t

/-- The loop: the bus, and the ids of the new events with the count of what was skipped, unless it raises. -/
def ingestRows (tick : NewsTick) : List NewsItem → EventTable → EventTable × Option (List ℕ × ℕ)
  | [], t => (t, some ([], 0))
  | item :: items, t =>
    match b.escalates tick item with
    | none =>
      let (t, rest) := ingestRows tick items t
      (t, rest.map fun r => (r.1, r.2 + 1))
    | some importance =>
      match b.publishItem tick item importance t with
      | (t, none) => (t, none)
      | (t, some result) =>
        let (t, rest) := ingestRows tick items t
        (t, rest.map fun r => if result.status = .new then (result.eventId :: r.1, r.2) else (r.1, r.2 + 1))

def ingestHighImportanceNews (rows : List NewsItem) (tick : NewsTick) (t : EventTable) :
    EventTable × Option IngestResult :=
  let (t, out) := b.ingestRows tick (b.scanned rows tick) t
  (t, out.map fun r =>
    { scanned := (b.scanned rows tick).length, published := r.1.length, skipped := r.2, eventIds := r.1
      lookbackMinutes := b.lookback tick, venue := b.book.map Venue.value })

end Ingest

end Bridge

/-! ## Events of a key -/

def ofKey (key : String) (t : EventTable) : List IntradayEvent := t.rows.filter fun r => r.deduplicationKey = key

/-- An event of the key is still to be dealt with or was detected within the window. -/
def Remembered (windowSeconds : Int) (t : EventTable) (key : String) (now : Int) : Prop :=
  ∃ r ∈ ofKey key t, now - windowSeconds * 1000000 ≤ r.detectedAt ∨ isOpenStatus r.status = true

def HitsCount (t : EventTable) : Prop := ∀ r ∈ t.rows, (countOf (Dict.at r.payload "dedupe_hits")).isSome

section Keys

variable {o : NewestFirst IntradayEvent.detectedAt} {windowSeconds now : Int} {p : Publication} {t : EventTable}
  {key : String}

theorem existingEvent_eq_none_iff :
    existingEvent o windowSeconds p now t = none ↔ ¬ Remembered windowSeconds t p.deduplicationKey now := by
  constructor
  · rintro h ⟨r, hr, known⟩
    obtain ⟨hrow, hkey⟩ := List.mem_filter.mp hr
    obtain ⟨old, closed⟩ := existingEvent_none h hrow (by simpa using hkey)
    obtain known | known := known
    · omega
    · rw [closed] at known
      cases known
  · intro h
    simp only [existingEvent, inWindow, stillOpen, Option.or_eq_none_iff, NewestFirst.head?_eq_none_iff,
      List.filter_eq_nil_iff, Bool.and_eq_true, decide_eq_true_eq, not_and]
    exact ⟨fun r hr hkey recent => h ⟨r, List.mem_filter.mpr ⟨hr, by simpa using hkey⟩, Or.inl recent⟩,
      fun r hr hkey still => h ⟨r, List.mem_filter.mpr ⟨hr, by simpa using hkey⟩, Or.inr still⟩⟩

theorem key_hit (r : IntradayEvent) : (hit r).deduplicationKey = r.deduplicationKey := (kept_hit r).key

theorem ofKey_publish_ne (h : p.deduplicationKey ≠ key) :
    ofKey key (publish o windowSeconds p now t).1 = ofKey key t := by
  obtain ⟨r, hr, hkey, hrows⟩ | ⟨-, hrows⟩ := publish_cases o windowSeconds p now t
  · have other : ∀ x ∈ t.rows, x.deduplicationKey = key → x.id ≠ r.id := by
      intro x hx hxkey hid
      rw [t.eq_of_key_eq hx hr hid, hkey] at hxkey
      exact h hxkey
    rw [ofKey, hrows, List.filter_map]
    have same : (t.rows.filter ((fun x => decide (x.deduplicationKey = key)) ∘
        fun x => if x.id = r.id then hit x else x)) = ofKey key t := by
      apply List.filter_congr
      intro x _
      dsimp only [Function.comp]
      split
      · rw [key_hit]
      · rfl
    rw [same]
    conv_rhs => rw [← List.map_id (ofKey key t)]
    apply List.map_congr_left
    intro x hx
    obtain ⟨hx, hxkey⟩ := List.mem_filter.mp hx
    exact if_neg (other x hx (by simpa using hxkey))
  · rw [ofKey, hrows, List.filter_append]
    have new : [newEvent p now (freshId t)].filter (fun r => decide (r.deduplicationKey = key)) = [] := by
      simpa [newEvent] using h
    rw [new, List.append_nil]
    rfl

theorem length_ofKey_publish : (ofKey p.deduplicationKey (publish o windowSeconds p now t).1).length =
    (ofKey p.deduplicationKey t).length +
      (existingEvent o windowSeconds p now t).elim 1 fun _ => 0 := by
  cases h : existingEvent o windowSeconds p now t with
  | none =>
    rw [ofKey, rows_publish_new h, List.filter_append]
    simp [newEvent, ofKey]
  | some r =>
    have rows : (publish o windowSeconds p now t).1.rows = t.rows.map fun x => if x.id = r.id then hit x else x := by
      rw [publish, h]
      rfl
    rw [ofKey, rows, List.filter_map, List.length_map]
    dsimp only [Option.elim]
    congr 1
    apply List.filter_congr
    intro x _
    dsimp only [Function.comp]
    split
    · rw [key_hit]
    · rfl

theorem remembered_congr {t' : EventTable} (h : ofKey key t' = ofKey key t) :
    Remembered windowSeconds t' key now ↔ Remembered windowSeconds t key now := by
  rw [Remembered, h, Remembered]

theorem countOf_num (q : ℚ) : (countOf (.num q)).isSome := by
  by_cases h : (Json.num q).truthy = true <;> simp [countOf, Json.orElse, h]

theorem hitsCount_publish (h : HitsCount t) (none_yet : Dict.get? p.payload "dedupe_hits" = none) :
    HitsCount (publish o windowSeconds p now t).1 ∧ ∃ result, (publish o windowSeconds p now t).2 = some result := by
  have counts : ∀ r : IntradayEvent, (countOf (Dict.at r.payload "dedupe_hits")).isSome →
      (countOf (Dict.at (hit r).payload "dedupe_hits")).isSome := by
    intro r hr
    obtain ⟨n, hn⟩ := Option.isSome_iff_exists.mp hr
    have set : (hit r).payload = Dict.set r.payload "dedupe_hits" (.num (n + 1 : Int)) := by simp only [hit, hn]
    rw [set, Dict.at, Dict.get?_set_self]
    exact countOf_num _
  cases he : existingEvent o windowSeconds p now t with
  | none =>
    refine ⟨?_, by simp [publish, he]⟩
    intro r hr
    rw [rows_publish_new he] at hr
    obtain hr | hr := List.mem_append.mp hr
    · exact h r hr
    · cases List.mem_singleton.mp hr
      simp [newEvent, Dict.at, none_yet, countOf, Json.orElse, Json.truthy]
  | some r =>
    obtain ⟨n, hn⟩ := Option.isSome_iff_exists.mp (h r (existingEvent_some he).1)
    refine ⟨?_, by simp [publish, he, hn]⟩
    intro x hx
    simp only [publish, he] at hx
    obtain ⟨y, hy, rfl⟩ := List.mem_map.mp hx
    split
    · exact counts y (h y hy)
    · exact h y hy

theorem hitsCount_mark {eventId : ℕ} {status : String} (h : HitsCount t) : HitsCount (mark eventId status t).1 := by
  intro x hx
  obtain ⟨y, hy, rfl⟩ := mem_mark hx
  split <;> exact h y hy

theorem length_ofKey_mark (eventId : ℕ) (status : String) (t : EventTable) :
    (ofKey key (mark eventId status t).1).length = (ofKey key t).length := by
  have rows : (mark eventId status t).1.rows =
      t.rows.map fun x => if x.id = eventId then { x with status } else x := rfl
  rw [ofKey, rows, List.filter_map, List.length_map]
  congr 1
  apply List.filter_congr
  intro x _
  dsimp only [Function.comp]
  split <;> rfl

end Keys

/-! ## One call -/

namespace Bridge

section Runs

variable (b : Bridge)

abbrev Knows (t : EventTable) (tick : NewsTick) (x : NewsItem) : Prop :=
  Remembered b.cfg.eventDeduplicationWindowSeconds t (b.dedupe x) (tick.clock x)

section

variable [Casing]

theorem publishItem_spec (tick : NewsTick) (x : NewsItem) (importance : String) {t : EventTable} (hits : HitsCount t) :
    HitsCount (b.publishItem tick x importance t).1 ∧ (∃ result, (b.publishItem tick x importance t).2 = some result) ∧
    (∀ key, b.dedupe x ≠ key → ofKey key (b.publishItem tick x importance t).1 = ofKey key t) ∧
    (b.Knows t tick x →
      (ofKey (b.dedupe x) (b.publishItem tick x importance t).1).length = (ofKey (b.dedupe x) t).length) ∧
    (¬ b.Knows t tick x →
      (ofKey (b.dedupe x) (b.publishItem tick x importance t).1).length = (ofKey (b.dedupe x) t).length + 1) := by
  obtain ⟨hits', result⟩ := hitsCount_publish (p := b.publication x importance) hits rfl
  have count := @length_ofKey_publish b.detected b.cfg.eventDeduplicationWindowSeconds (tick.clock x)
    (b.publication x importance) t
  change (ofKey (b.dedupe x) (b.publishItem tick x importance t).1).length =
    (ofKey (b.dedupe x) t).length + _ at count
  refine ⟨hits', result, fun key h => ofKey_publish_ne h, ?_, ?_⟩
  · intro knows
    cases he : existingEvent b.detected b.cfg.eventDeduplicationWindowSeconds (b.publication x importance)
        (tick.clock x) t with
    | none => exact absurd knows (existingEvent_eq_none_iff.mp he)
    | some r => rw [count, he, Option.elim, Nat.add_zero]
  · intro unknown
    rw [count, existingEvent_eq_none_iff.mpr unknown, Option.elim]

/-- An escalated article is one event more, unless its key is known. -/
theorem ingestRows_spec {tick : NewsTick} {items : List NewsItem} {t : EventTable}
    (keys : (items.map b.dedupe).Nodup) (hits : HitsCount t) :
    HitsCount (b.ingestRows tick items t).1 ∧
    (∀ key, (∀ x ∈ items, (b.escalates tick x).isSome → b.dedupe x ≠ key) →
      ofKey key (b.ingestRows tick items t).1 = ofKey key t) ∧
    ∀ x ∈ items, (b.escalates tick x).isSome →
      (b.Knows t tick x → (ofKey (b.dedupe x) (b.ingestRows tick items t).1).length = (ofKey (b.dedupe x) t).length) ∧
      (¬ b.Knows t tick x →
        (ofKey (b.dedupe x) (b.ingestRows tick items t).1).length = (ofKey (b.dedupe x) t).length + 1) := by
  induction items generalizing t with
  | nil => exact ⟨hits, fun _ _ => rfl, fun x hx => absurd hx List.not_mem_nil⟩
  | cons item items ih =>
    obtain ⟨fresh, keys⟩ := List.nodup_cons.mp keys
    cases himp : b.escalates tick item with
    | none =>
      obtain ⟨hits', others, here⟩ := ih keys hits
      simp only [ingestRows, himp]
      refine ⟨hits', fun key h => others key fun x hx => h x (List.mem_cons_of_mem _ hx), ?_⟩
      intro x hx esc
      obtain rfl | hx := List.mem_cons.mp hx
      · simp [himp] at esc
      · exact here x hx esc
    | some importance =>
      obtain ⟨hits₁, ⟨result, hresult⟩, apart, same, more⟩ := b.publishItem_spec tick item importance hits
      have after : (b.ingestRows tick (item :: items) t).1 =
          (b.ingestRows tick items (b.publishItem tick item importance t).1).1 := by
        cases hsend : b.publishItem tick item importance t with
        | mk t₁ out =>
          rw [hsend] at hresult
          cases hresult
          simp only [ingestRows, himp, hsend]
      rw [after]
      obtain ⟨hits', others, here⟩ := ih keys hits₁
      have notAgain : ∀ x ∈ items, b.dedupe x ≠ b.dedupe item := fun x hx e => fresh (List.mem_map.mpr ⟨x, hx, e⟩)
      refine ⟨hits', ?_, ?_⟩
      · intro key h
        rw [others key fun x hx => h x (List.mem_cons_of_mem _ hx)]
        exact apart key (h item (List.mem_cons_self ..) (by simp [himp]))
      · intro x hx esc
        obtain rfl | hx := List.mem_cons.mp hx
        · rw [others _ fun y hy _ => notAgain y hy]
          exact ⟨same, more⟩
        · have unchanged := apart (b.dedupe x) (notAgain x hx).symm
          rw [← unchanged, Knows, ← remembered_congr unchanged]
          exact here x hx esc

/-! ## Runs of calls -/

inductive BridgeStep
  | tick (tick : NewsTick)
  | mark (eventId : ℕ) (status : String)

def step (rows : List NewsItem) (t : EventTable) : BridgeStep → EventTable
  | .tick tick => (b.ingestHighImportanceNews rows tick t).1
  | .mark eventId status => (mark eventId status t).1

def after (rows : List NewsItem) (steps : List BridgeStep) : EventTable := runFrom (b.step rows) KeyedTable.empty steps

/-- The row is to be published: it is no duplicate, in the lookback, important and relevant. -/
def Wanted (tick : NewsTick) (x : NewsItem) : Prop :=
  x.isDuplicate = false ∧ b.cutoff tick ≤ x.publishedAt ∧ (b.escalates tick x).isSome

def WasWanted (done : List BridgeStep) (x : NewsItem) : Prop := ∃ tick, .tick tick ∈ done ∧ b.Wanted tick x

def PublishedOnce (rows : List NewsItem) (done : List BridgeStep) : Prop :=
  ∀ x ∈ rows, b.WasWanted done x → (ofKey (b.dedupe x) (b.after rows done)).length = 1

/-- A row that is to be published for the first time is among the newest; one that was before and is among them is still
known to the bus. -/
def Served (rows : List NewsItem) (done : List BridgeStep) (tick : NewsTick) : Prop :=
  ∀ x ∈ rows, b.Wanted tick x →
    (¬ b.WasWanted done x → x ∈ b.scanned rows tick) ∧
    (b.WasWanted done x → x ∈ b.scanned rows tick → b.Knows (b.after rows done) tick x)

end

section Fixed

variable {b} {rows : List NewsItem} {done : List BridgeStep} {tick : NewsTick} {x : NewsItem}

theorem mem_scanned (h : x ∈ b.scanned rows tick) :
    x ∈ rows ∧ b.cutoff tick ≤ x.publishedAt ∧ x.isDuplicate = false := by
  have := List.mem_filter.mp (b.newest.mem_sort.mp (List.mem_of_mem_take h))
  simpa using this

theorem nodup_scanned (keys : (rows.map b.dedupe).Nodup) (tick : NewsTick) :
    ((b.scanned rows tick).map b.dedupe).Nodup := by
  have kept := keys.sublist (List.filter_sublist.map b.dedupe :
    ((rows.filter fun x => b.cutoff tick ≤ x.publishedAt && !x.isDuplicate).map b.dedupe).Sublist (rows.map b.dedupe))
  exact (((b.newest.perm _).map b.dedupe).nodup_iff.mpr kept).sublist ((List.take_sublist ..).map b.dedupe)

section

variable [Casing]

theorem after_concat (s : BridgeStep) : b.after rows (done ++ [s]) = b.step rows (b.after rows done) s := by
  rw [after, runFrom_append]
  rfl

theorem hitsCount_after (keys : (rows.map b.dedupe).Nodup) (done : List BridgeStep) : HitsCount (b.after rows done) := by
  induction done using List.reverseRecOn with
  | nil => exact fun r hr => absurd hr List.not_mem_nil
  | append_singleton done s ih =>
    rw [after_concat]
    cases s with
    | tick tick => exact (b.ingestRows_spec (nodup_scanned keys tick) ih).1
    | mark eventId status => exact hitsCount_mark ih

theorem wasWanted_concat_tick : b.WasWanted (done ++ [.tick tick]) x ↔ b.WasWanted done x ∨ b.Wanted tick x := by
  constructor
  · rintro ⟨t, ht, h⟩
    obtain ht | ht := List.mem_append.mp ht
    · exact Or.inl ⟨t, ht, h⟩
    · cases List.mem_singleton.mp ht
      exact Or.inr h
  · rintro (⟨t, ht, h⟩ | h)
    · exact ⟨t, List.mem_append_left _ ht, h⟩
    · exact ⟨tick, List.mem_append_right _ (List.mem_singleton.mpr rfl), h⟩

theorem wasWanted_concat_mark {eventId : ℕ} {status : String} :
    b.WasWanted (done ++ [.mark eventId status]) x ↔ b.WasWanted done x := by
  constructor
  · rintro ⟨t, ht, h⟩
    obtain ht | ht := List.mem_append.mp ht
    · exact ⟨t, ht, h⟩
    · cases List.mem_singleton.mp ht
  · rintro ⟨t, ht, h⟩
    exact ⟨t, List.mem_append_left _ ht, h⟩

theorem length_after_tick (keys : (rows.map b.dedupe).Nodup) (done : List BridgeStep) (tick : NewsTick)
    (hx : x ∈ rows) :
    (x ∈ b.scanned rows tick ∧ b.Wanted tick x ∧ ¬ b.Knows (b.after rows done) tick x ∧
      (ofKey (b.dedupe x) (b.after rows (done ++ [.tick tick]))).length =
        (ofKey (b.dedupe x) (b.after rows done)).length + 1) ∨
    ((x ∈ b.scanned rows tick → b.Wanted tick x → b.Knows (b.after rows done) tick x) ∧
      (ofKey (b.dedupe x) (b.after rows (done ++ [.tick tick]))).length =
        (ofKey (b.dedupe x) (b.after rows done)).length) := by
  obtain ⟨-, others, here⟩ := b.ingestRows_spec (nodup_scanned keys tick) (hitsCount_after keys done)
  rw [after_concat]
  by_cases sent : x ∈ b.scanned rows tick ∧ b.Wanted tick x
  · obtain ⟨hs, wanted⟩ := sent
    obtain ⟨same, more⟩ := here x hs wanted.2.2
    by_cases knows : b.Knows (b.after rows done) tick x
    · exact Or.inr ⟨fun _ _ => knows, same knows⟩
    · exact Or.inl ⟨hs, wanted, knows, more knows⟩
  · refine Or.inr ⟨fun hs wanted => absurd ⟨hs, wanted⟩ sent, congrArg List.length (others _ ?_)⟩
    intro y hy esc e
    obtain ⟨hyrows, recent, single⟩ := mem_scanned hy
    cases List.inj_on_of_nodup_map keys hyrows hx e
    exact sent ⟨hy, single, recent, esc⟩

theorem ofKey_after_eq_nil (keys : (rows.map b.dedupe).Nodup) (hx : x ∈ rows) (h : ¬ b.WasWanted done x) :
    ofKey (b.dedupe x) (b.after rows done) = [] := by
  induction done using List.reverseRecOn with
  | nil => rfl
  | append_singleton done s ih =>
    apply List.eq_nil_of_length_eq_zero
    cases s with
    | tick tick =>
      rw [wasWanted_concat_tick, not_or] at h
      obtain ⟨-, wanted, -⟩ | ⟨-, same⟩ := length_after_tick keys done tick hx
      · exact absurd wanted h.2
      · rw [same, ih h.1, List.length_nil]
    | mark eventId status =>
      rw [wasWanted_concat_mark] at h
      rw [after_concat]
      exact (length_ofKey_mark ..).trans (by rw [ih h, List.length_nil])

theorem served_of_once (keys : (rows.map b.dedupe).Nodup) (before : b.PublishedOnce rows done)
    (once : b.PublishedOnce rows (done ++ [.tick tick])) : b.Served rows done tick := by
  intro x hx wanted
  have one := once x hx (wasWanted_concat_tick.mpr (Or.inr wanted))
  obtain ⟨hs, -, -, more⟩ | ⟨known, same⟩ := length_after_tick keys done tick hx
  · refine ⟨fun _ => hs, fun was _ => ?_⟩
    have := before x hx was
    omega
  · refine ⟨fun new => ?_, fun _ hs => known hs wanted⟩
    rw [ofKey_after_eq_nil keys hx new, one] at same
    cases same

theorem once_of_served (keys : (rows.map b.dedupe).Nodup) (before : b.PublishedOnce rows done)
    (served : b.Served rows done tick) : b.PublishedOnce rows (done ++ [.tick tick]) := by
  intro x hx was
  by_cases earlier : b.WasWanted done x
  · have one := before x hx earlier
    obtain ⟨hs, wanted, unknown, -⟩ | ⟨-, same⟩ := length_after_tick keys done tick hx
    · exact absurd ((served x hx wanted).2 earlier hs) unknown
    · exact same.trans one
  · have wanted := (wasWanted_concat_tick.mp was).resolve_left earlier
    have none := ofKey_after_eq_nil keys hx earlier
    obtain ⟨-, -, -, more⟩ | ⟨known, -⟩ := length_after_tick keys done tick hx
    · rw [more, none, List.length_nil]
    · obtain ⟨r, hr, -⟩ := known ((served x hx wanted).1 earlier) wanted
      rw [none] at hr
      cases hr

end

end Fixed

/-- **In every run each row that was to be published is on the bus once** exactly if every call serves the rows. -/
theorem newsPublishedOnce_iff [Casing] (rows : List NewsItem) (keys : (rows.map b.dedupe).Nodup)
    (steps : List BridgeStep) :
    (∀ done, done <+: steps → b.PublishedOnce rows done) ↔
      ∀ done tick, done ++ [.tick tick] <+: steps → b.Served rows done tick := by
  constructor
  · intro once done tick h
    exact served_of_once keys (once done ((List.prefix_append ..).trans h)) (once _ h)
  · intro served done
    induction done using List.reverseRecOn with
    | nil => exact fun _ x _ ⟨_, h, _⟩ => absurd h List.not_mem_nil
    | append_singleton done s ih =>
      intro h
      have before := ih ((List.prefix_append ..).trans h)
      cases s with
      | tick tick => exact once_of_served keys before (served done tick h)
      | mark eventId status =>
        intro x hx was
        rw [after_concat]
        exact (length_ofKey_mark ..).trans (before x hx (wasWanted_concat_mark.mp was))

end Runs

end Bridge

/-! ## Missed, and published again -/

section Sample

attribute [local instance] asciiCasing

def usBridge : Bridge where
  cfg := ⟨Market.mockSettings, "SPY", "VAS", 90, 300⟩
  book := some .us
  str _ := ""
  isoformat _ := ""
  newest := lastAmong _ fun _ => false
  detected := inTurn

def newsRow (externalId headline : String) (publishedAt : Int) : NewsItem :=
  ⟨externalId, "wire", some externalId, headline, "", publishedAt, [], none, .null, false⟩

def tickAt (now : Int) : NewsTick := ⟨now, none, 40, [], fun _ => now⟩

def fedNews : NewsItem := newsRow "fed" "fed raises rates" 0

def crowd : List NewsItem := (List.range 40).map fun n => newsRow (String.ofList (List.replicate n 'x')) "chatter" 1

theorem fed_kept_twice : (∀ done, done <+: [.tick (tickAt 0), .tick (tickAt 200000000)] →
      usBridge.PublishedOnce [fedNews] done) ↔
    ∀ done tick, done ++ [.tick tick] <+: [.tick (tickAt 0), .tick (tickAt 200000000)] →
      usBridge.Served [fedNews] done tick :=
  usBridge.newsPublishedOnce_iff [fedNews] (by decide) _

theorem news_missed_and_repeated :
    ((fedNews :: crowd).map fun x => (x.provider, x.externalId)).Nodup ∧
      ¬ usBridge.PublishedOnce (fedNews :: crowd) [.tick (tickAt 60000000)] ∧
      ¬ usBridge.PublishedOnce [fedNews]
        [.tick (tickAt 0), .mark 1 "PROCESSED", .tick (tickAt 360000000)] := by
  refine ⟨by decide +kernel, ?_, ?_⟩
  · intro once
    have := once fedNews (List.mem_cons_self ..)
      ⟨tickAt 60000000, List.mem_cons_self .., rfl, by decide, by decide +kernel⟩
    revert this
    decide +kernel
  · intro once
    have := once fedNews (List.mem_cons_self ..) ⟨tickAt 0, List.mem_cons_self .., rfl, by decide, by decide +kernel⟩
    revert this
    decide +kernel

end Sample

end Investor.Intraday
