import Investor.Intraday.EventBus
import Investor.Lib.Run
import Mathlib.Algebra.Order.Group.Unbundled.Int

/-!
# Deduplicated events

What `publish` does to a table is one of two things (`publish_cases`): a hit on a row of the key,
or a new row of a key that has only rows which are older than the window and dealt with. From this
come the distance of the rows of a key, and that no publication opens a second one, over any
interleaving of calls and at any times.

`mark` sets whatever status it is given. The endpoint and the drain that call it set `PROCESSING`
and `PROCESSED`; a call that sets `NEW` or `QUEUED` can open a row beside one that is open, and
exactly such calls let a key have two (`openOnce_step`).
-/

namespace Investor.Intraday

open Lib

inductive BusCall
  | publish (p : Publication) (now : Int)
  | mark (eventId : ℕ) (status : String)

def BusCall.now? : BusCall → Option Int
  | .publish _ now => some now
  | .mark _ _ => none

def InOrder (calls : List BusCall) : Prop := (calls.filterMap BusCall.now?).Pairwise (· ≤ ·)

instance (calls : List BusCall) : Decidable (InOrder calls) :=
  inferInstanceAs (Decidable ((calls.filterMap BusCall.now?).Pairwise (· ≤ ·)))

def busStep (o : NewestFirst IntradayEvent.detectedAt) (windowSeconds : Int) (t : EventTable) :
    BusCall → EventTable
  | .publish p now => (publish o windowSeconds p now t).1
  | .mark eventId status => (mark eventId status t).1

def afterCalls (o : NewestFirst IntradayEvent.detectedAt) (windowSeconds : Int)
    (calls : List BusCall) : EventTable :=
  runFrom (busStep o windowSeconds) KeyedTable.empty calls

/-- A row as a publication leaves it: only its revision and its count of hits are other ones. -/
structure Kept (r r' : IntradayEvent) : Prop where
  id : r'.id = r.id
  key : r'.deduplicationKey = r.deduplicationKey
  detectedAt : r'.detectedAt = r.detectedAt
  status : r'.status = r.status
  eventType : r'.eventType = r.eventType
  payload : ∀ k, k ≠ "dedupe_hits" → Dict.get? r'.payload k = Dict.get? r.payload k

/-- Two rows of one key are detected more than the window apart. -/
def WindowApart (windowSeconds : Int) (t : EventTable) : Prop :=
  ∀ x ∈ t.rows, ∀ y ∈ t.rows, x.deduplicationKey = y.deduplicationKey → x.id ≠ y.id →
    windowSeconds * 1000000 < |x.detectedAt - y.detectedAt|

/-- A key has at most one row that is `NEW` or `QUEUED`. -/
def OpenOnce (t : EventTable) : Prop :=
  ∀ x ∈ t.rows, ∀ y ∈ t.rows, x.deduplicationKey = y.deduplicationKey →
    isOpenStatus x.status → isOpenStatus y.status → x.id = y.id

instance (t : EventTable) : Decidable (OpenOnce t) :=
  inferInstanceAs (Decidable (∀ x ∈ t.rows, ∀ y ∈ t.rows, x.deduplicationKey = y.deduplicationKey →
    isOpenStatus x.status → isOpenStatus y.status → x.id = y.id))

/-- The call opens no row whose key has another one that is open. -/
def OpensNoSecond (t : EventTable) : BusCall → Prop
  | .publish _ _ => True
  | .mark eventId status => isOpenStatus status → ∀ r ∈ t.rows, r.id = eventId → ∀ x ∈ t.rows,
      x.deduplicationKey = r.deduplicationKey → isOpenStatus x.status → x.id = eventId

section Calls

variable {o : NewestFirst IntradayEvent.detectedAt} {windowSeconds now : Int} {p : Publication}
  {t : EventTable} {r x : IntradayEvent}

/-! ## What a publication does -/

theorem kept_refl (r : IntradayEvent) : Kept r r := ⟨rfl, rfl, rfl, rfl, rfl, fun _ _ => rfl⟩

theorem kept_hit (r : IntradayEvent) : Kept r (hit r) := by
  unfold hit
  split
  · exact ⟨rfl, rfl, rfl, rfl, rfl, fun k hk => Dict.get?_set_of_ne _ _ (Ne.symm hk)⟩
  · exact ⟨rfl, rfl, rfl, rfl, rfl, fun _ _ => rfl⟩

theorem freshId_notMem (t : EventTable) : freshId t ∉ t.rows.map (·.id) := foldl_max_succ_notMem _

theorem existingEvent_some (h : existingEvent o windowSeconds p now t = some r) :
    r ∈ t.rows ∧ r.deduplicationKey = p.deduplicationKey := by
  unfold existingEvent at h
  rcases Option.or_eq_some_iff.mp h with h | ⟨-, h⟩
  · have hmem := List.mem_filter.mp (o.mem_of_head? h)
    exact ⟨hmem.1, by simpa using (Bool.and_eq_true_iff.mp hmem.2).1⟩
  · have hmem := List.mem_filter.mp (o.mem_of_head? h)
    exact ⟨hmem.1, by simpa using (Bool.and_eq_true_iff.mp hmem.2).1⟩

theorem existingEvent_none (h : existingEvent o windowSeconds p now t = none) (hx : x ∈ t.rows)
    (hkey : x.deduplicationKey = p.deduplicationKey) :
    x.detectedAt < now - windowSeconds * 1000000 ∧ isOpenStatus x.status = false := by
  unfold existingEvent at h
  obtain ⟨hwindow, hopen⟩ := Option.or_eq_none_iff.mp h
  have hold := List.filter_eq_nil_iff.mp (o.head?_eq_none_iff.mp hwindow) x hx
  have hclosed := List.filter_eq_nil_iff.mp (o.head?_eq_none_iff.mp hopen) x hx
  rw [hkey, decide_eq_true rfl, Bool.true_and] at hold hclosed
  exact ⟨not_le.mp fun hle => hold (decide_eq_true hle), Bool.eq_false_iff.mpr hclosed⟩

theorem rows_publish_new (h : existingEvent o windowSeconds p now t = none) :
    (publish o windowSeconds p now t).1.rows = t.rows ++ [newEvent p now (freshId t)] := by
  rw [publish, h]
  dsimp only
  unfold KeyedTable.putNew
  cases hins : t.insert (newEvent p now (freshId t)) with
  | none => exact absurd (KeyedTable.insert_eq_none_iff.mp hins) (freshId_notMem t)
  | some t' => exact (KeyedTable.insert_eq_some hins).2

theorem publish_cases (o : NewestFirst IntradayEvent.detectedAt) (windowSeconds : Int)
    (p : Publication) (now : Int) (t : EventTable) :
    (∃ r ∈ t.rows, r.deduplicationKey = p.deduplicationKey ∧
      (publish o windowSeconds p now t).1.rows =
        t.rows.map fun x => if x.id = r.id then hit x else x) ∨
    (∀ x ∈ t.rows, x.deduplicationKey = p.deduplicationKey →
        x.detectedAt < now - windowSeconds * 1000000 ∧ isOpenStatus x.status = false) ∧
      (publish o windowSeconds p now t).1.rows = t.rows ++ [newEvent p now (freshId t)] := by
  cases h : existingEvent o windowSeconds p now t with
  | some r =>
    obtain ⟨hr, hkey⟩ := existingEvent_some h
    refine Or.inl ⟨r, hr, hkey, ?_⟩
    rw [publish, h]
    rfl
  | none =>
    exact Or.inr ⟨fun x hx => existingEvent_none h hx, rows_publish_new h⟩

theorem publish_keeps (hx : x ∈ t.rows) :
    ∃ x' ∈ (publish o windowSeconds p now t).1.rows, Kept x x' := by
  rcases publish_cases o windowSeconds p now t with ⟨r, -, -, hrows⟩ | ⟨-, hrows⟩
  · rw [hrows]
    refine ⟨_, List.mem_map_of_mem hx, ?_⟩
    split
    · exact kept_hit x
    · exact kept_refl x
  · rw [hrows]
    exact ⟨x, List.mem_append_left _ hx, kept_refl x⟩

theorem mem_publish (hx : x ∈ (publish o windowSeconds p now t).1.rows) :
    (∃ y ∈ t.rows, Kept y x) ∨ x = newEvent p now (freshId t) ∧
      ∀ y ∈ t.rows, y.deduplicationKey = p.deduplicationKey →
        y.detectedAt < now - windowSeconds * 1000000 ∧ isOpenStatus y.status = false := by
  rcases publish_cases o windowSeconds p now t with ⟨r, -, -, hrows⟩ | ⟨hold, hrows⟩
  · rw [hrows] at hx
    obtain ⟨y, hy, rfl⟩ := List.mem_map.mp hx
    refine Or.inl ⟨y, hy, ?_⟩
    split
    · exact kept_hit y
    · exact kept_refl y
  · rw [hrows] at hx
    rcases List.mem_append.mp hx with hx | hx
    · exact Or.inl ⟨x, hx, kept_refl x⟩
    · exact Or.inr ⟨List.mem_singleton.mp hx, hold⟩

theorem mem_mark {eventId : ℕ} {status : String} (hx : x ∈ (mark eventId status t).1.rows) :
    ∃ y ∈ t.rows, x = if y.id = eventId then { y with status } else y := by
  obtain ⟨y, hy, rfl⟩ := List.mem_map.mp hx
  exact ⟨y, hy, rfl⟩

/-! ## The window -/

theorem windowApart_publish (h : WindowApart windowSeconds t) :
    WindowApart windowSeconds (publish o windowSeconds p now t).1 := by
  intro x hx y hy hkey hne
  rcases mem_publish hx with ⟨x₀, hx₀, hkx⟩ | ⟨rfl, hold⟩
  · rcases mem_publish hy with ⟨y₀, hy₀, hky⟩ | ⟨rfl, hold⟩
    · rw [hkx.detectedAt, hky.detectedAt]
      exact h x₀ hx₀ y₀ hy₀ (hkx.key.symm.trans (hkey.trans hky.key)) (hkx.id ▸ hky.id ▸ hne)
    · have hlt := (hold x₀ hx₀ (hkx.key.symm.trans hkey)).1
      rw [hkx.detectedAt]
      have hle := neg_le_abs (x₀.detectedAt - now)
      show windowSeconds * 1000000 < |x₀.detectedAt - now|
      omega
  · rcases mem_publish hy with ⟨y₀, hy₀, hky⟩ | ⟨rfl, -⟩
    · have hlt := (hold y₀ hy₀ (hky.key.symm.trans hkey.symm)).1
      rw [hky.detectedAt]
      have hle := le_abs_self (now - y₀.detectedAt)
      show windowSeconds * 1000000 < |now - y₀.detectedAt|
      omega
    · exact absurd rfl hne

theorem windowApart_mark {eventId : ℕ} {status : String} (h : WindowApart windowSeconds t) :
    WindowApart windowSeconds (mark eventId status t).1 := by
  have hsame : ∀ z : IntradayEvent, let z' := if z.id = eventId then { z with status } else z
      z'.id = z.id ∧ z'.deduplicationKey = z.deduplicationKey ∧ z'.detectedAt = z.detectedAt := by
    intro z
    dsimp only
    split <;> exact ⟨rfl, rfl, rfl⟩
  intro x hx y hy hkey hne
  obtain ⟨x₀, hx₀, rfl⟩ := mem_mark hx
  obtain ⟨y₀, hy₀, rfl⟩ := mem_mark hy
  obtain ⟨hidx, hkeyx, hatx⟩ := hsame x₀
  obtain ⟨hidy, hkeyy, haty⟩ := hsame y₀
  rw [hatx, haty]
  exact h x₀ hx₀ y₀ hy₀ (hkeyx.symm.trans (hkey.trans hkeyy)) (hidx ▸ hidy ▸ hne)

theorem windowApart_step (t : EventTable) (call : BusCall) (h : WindowApart windowSeconds t) :
    WindowApart windowSeconds (busStep o windowSeconds t call) := by
  cases call with
  | publish p now => exact windowApart_publish h
  | mark eventId status => exact windowApart_mark h

/-! ## One open row -/

theorem openOnce_publish (h : OpenOnce t) : OpenOnce (publish o windowSeconds p now t).1 := by
  intro x hx y hy hkey hox hoy
  rcases mem_publish hx with ⟨x₀, hx₀, hkx⟩ | ⟨rfl, hold⟩
  · rcases mem_publish hy with ⟨y₀, hy₀, hky⟩ | ⟨rfl, hold⟩
    · rw [hkx.id, hky.id]
      exact h x₀ hx₀ y₀ hy₀ (hkx.key.symm.trans (hkey.trans hky.key)) (hkx.status ▸ hox)
        (hky.status ▸ hoy)
    · have hclosed := (hold x₀ hx₀ (hkx.key.symm.trans hkey)).2
      rw [hkx.status, hclosed] at hox
      cases hox
  · rcases mem_publish hy with ⟨y₀, hy₀, hky⟩ | ⟨rfl, -⟩
    · have hclosed := (hold y₀ hy₀ (hky.key.symm.trans hkey.symm)).2
      rw [hky.status, hclosed] at hoy
      cases hoy
    · rfl

theorem openOnce_mark_iff {eventId : ℕ} {status : String} (h : OpenOnce t) :
    OpenOnce (mark eventId status t).1 ↔ OpensNoSecond t (.mark eventId status) := by
  constructor
  · intro hafter hopen r hr hid x hx hkey hox
    by_contra hne
    have hmarked : { r with status } ∈ (mark eventId status t).1.rows :=
      List.mem_map.mpr ⟨r, hr, if_pos hid⟩
    have hleft : x ∈ (mark eventId status t).1.rows := List.mem_map.mpr ⟨x, hx, if_neg hne⟩
    exact hne ((hafter x hleft _ hmarked hkey hox hopen).trans hid)
  · intro hfits x hx y hy hkey hox hoy
    obtain ⟨x₀, hx₀, rfl⟩ := mem_mark hx
    obtain ⟨y₀, hy₀, rfl⟩ := mem_mark hy
    by_cases hidx : x₀.id = eventId
    · by_cases hidy : y₀.id = eventId
      · rw [if_pos hidx, if_pos hidy]
        exact hidx.trans hidy.symm
      · rw [if_pos hidx] at hkey hox
        rw [if_neg hidy] at hkey hoy
        exact absurd (hfits hox x₀ hx₀ hidx y₀ hy₀ hkey.symm hoy) hidy
    · by_cases hidy : y₀.id = eventId
      · rw [if_neg hidx] at hkey hox
        rw [if_pos hidy] at hkey hoy
        exact absurd (hfits hoy y₀ hy₀ hidy x₀ hx₀ hkey hox) hidx
      · rw [if_neg hidx] at hkey hox ⊢
        rw [if_neg hidy] at hkey hoy ⊢
        exact h x₀ hx₀ y₀ hy₀ hkey hox hoy

theorem openOnce_step (t : EventTable) (call : BusCall) (h : OpenOnce t) :
    OpenOnce (busStep o windowSeconds t call) ↔ OpensNoSecond t call := by
  cases call with
  | publish p now => exact iff_of_true (openOnce_publish h) trivial
  | mark eventId status => exact openOnce_mark_iff h

end Calls

/-! ## Any run -/

/-- **In every run the rows of a key are detected more than the window apart and no publication
    changes a row but for its revision and its hits; and every key has at most one open row all along
    exactly if no mark opens a second one.** -/
theorem deduplicated_run (o : NewestFirst IntradayEvent.detectedAt) (windowSeconds : Int)
    (calls : List BusCall) :
    (∀ done, done <+: calls → WindowApart windowSeconds (afterCalls o windowSeconds done)) ∧
    (∀ done p now, done ++ [.publish p now] <+: calls →
      ∀ r ∈ (afterCalls o windowSeconds done).rows,
        ∃ r' ∈ (afterCalls o windowSeconds (done ++ [.publish p now])).rows, Kept r r') ∧
    ((∀ done, done <+: calls → OpenOnce (afterCalls o windowSeconds done)) ↔
      StepsMeet (busStep o windowSeconds) OpensNoSecond KeyedTable.empty calls) := by
  refine ⟨fun done _ => ?_, fun done p now _ r hr => ?_, ?_⟩
  · exact run_invariant windowApart_step fun x hx => nomatch hx
  · rw [afterCalls, runFrom_append]
    exact publish_keeps hr
  · exact all_reached_iff openOnce_step fun x hx => nomatch hx

/-! ## A row that is opened again -/

section Sample

def reopened : List BusCall :=
  [.publish (published "STOP_TRIGGERED" "stop:1") 0, .mark 1 "PROCESSED",
    .publish (published "STOP_TRIGGERED" "stop:1") 301000000, .mark 1 "NEW"]

theorem reopened_twice : ¬ ∀ (o : NewestFirst IntradayEvent.detectedAt) (windowSeconds : Int)
    (calls : List BusCall), InOrder calls → OpenOnce (afterCalls o windowSeconds calls) := by
  intro h
  have hopen := h inTurn 300 reopened (by decide)
  revert hopen
  decide +kernel

end Sample

end Investor.Intraday
