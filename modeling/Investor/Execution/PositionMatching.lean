import Investor.Execution.PositionSync
import Investor.Lib.Upsert

/-!
# Which row a holding is written to

`sync_from_broker` writes each holding of a report to the row of its contract id, else to that
of its symbol and venue, else to a new row, and deletes the rows that are left. The table then
mirrors the report exactly when the rows are matched one to one (`Matchable`): a matched row
keeps its symbol, so it must be the holding's own; two holdings must not come to one row; and a
row no holding is matched to must share nothing with the report.

The two indices are rewritten as the loop goes. With contract ids and listings that are pairwise
distinct no holding looks up what another has written, so that the row of a holding is known
before the loop (`rowFor`).
-/

namespace Investor.Execution.PositionSync

open Lib Market Universe

/-! ## Association lists -/

section Entries

variable {κ ν : Type} [DecidableEq κ] {entries : List (κ × ν)} {k k' : κ} {v v' : ν}

@[simp] theorem lookup_put : lookup (put entries k v) k' = if k' = k then some v
    else lookup entries k' := by
  unfold lookup put
  by_cases hk : k' = k
  · simp [hk]
  · have hsame : ∀ e : κ × ν, (e.1 ≠ k ∧ e.1 = k') ↔ e.1 = k' := by
      intro e
      refine and_iff_right_of_imp ?_
      rintro rfl
      exact hk
    rw [if_neg hk, List.find?_cons_of_neg (by simpa [eq_comm] using hk), List.find?_filter]
    simp only [decide_eq_true_eq, hsame]

theorem mem_put : (k', v') ∈ put entries k v ↔
    (k' = k ∧ v' = v) ∨ ((k', v') ∈ entries ∧ k' ≠ k) := by
  simp [put]

def Functional (entries : List (κ × ν)) : Prop :=
  ∀ k v, (k, v) ∈ entries ↔ lookup entries k = some v

theorem functional_nil : Functional ([] : List (κ × ν)) := by
  simp [Functional, lookup]

theorem Functional.put (h : Functional entries) : Functional (put entries k v) := by
  intro k' v'
  rw [mem_put, lookup_put, h]
  by_cases hk : k' = k
  · simp [hk, eq_comm]
  · simp [hk]

end Entries

section Match

/-! ## The indices of a table -/

def PositionRow.indexKey [Casing] (r : PositionRow) : String × String :=
  (Casing.upper r.symbol, venueText r.venue)

def ParsedPosition.listing (p : ParsedPosition) : String × String := (p.symbol, p.venue.value)

section

variable [Casing]

/-- The row of a holding: the last one with its contract id, else the last with its listing. -/
def rowFor (rows : List PositionRow) (p : ParsedPosition) : Option PositionRow :=
  (p.conId.bind fun c => rows.reverse.find? fun r => r.conId = some c).orElse fun _ =>
    rows.reverse.find? fun r => r.indexKey = p.listing

theorem ofRows_concat (rows : List PositionRow) (r : PositionRow) :
    (RowIndex.ofRows (rows ++ [r])).byKey = put (RowIndex.ofRows rows).byKey r.indexKey r.id := by
  simp [RowIndex.ofRows, PositionRow.indexKey]

theorem functional_byKey (rows : List PositionRow) : Functional (RowIndex.ofRows rows).byKey := by
  induction rows using List.reverseRecOn with
  | nil => exact functional_nil
  | append_singleton rows r ih =>
    rw [ofRows_concat]
    exact ih.put

theorem lookup_byKey (rows : List PositionRow) (k : String × String) :
    lookup (RowIndex.ofRows rows).byKey k =
      (rows.reverse.find? fun r => r.indexKey = k).map (·.id) := by
  induction rows using List.reverseRecOn with
  | nil => rfl
  | append_singleton rows r ih =>
    rw [ofRows_concat, lookup_put, ih, List.reverse_append, List.reverse_singleton,
      List.singleton_append, List.find?_cons]
    by_cases hk : k = r.indexKey
    · simp [hk]
    · simp [hk, Ne.symm hk]

theorem lookup_byCon (rows : List PositionRow) {c : Int} (hc : c ≠ 0) :
    lookup (RowIndex.ofRows rows).byCon c =
      (rows.reverse.find? fun r => r.conId = some c).map (·.id) := by
  induction rows using List.reverseRecOn with
  | nil => rfl
  | append_singleton rows r ih =>
    rw [List.reverse_append, List.reverse_singleton, List.singleton_append, List.find?_cons]
    cases hcon : r.conId with
    | none =>
      have hstep : (RowIndex.ofRows (rows ++ [r])).byCon = (RowIndex.ofRows rows).byCon := by
        simp [RowIndex.ofRows, hcon]
      simpa [hstep] using ih
    | some d =>
      by_cases hd : d = 0
      · have hstep : (RowIndex.ofRows (rows ++ [r])).byCon = (RowIndex.ofRows rows).byCon := by
          simp [RowIndex.ofRows, hcon, hd]
        simpa [hstep, hd, Ne.symm hc] using ih
      · have hstep : (RowIndex.ofRows (rows ++ [r])).byCon =
            put (RowIndex.ofRows rows).byCon d r.id := by
          simp [RowIndex.ofRows, hcon, hd]
        rw [hstep, lookup_put, ih]
        by_cases hcd : c = d
        · simp [hcd]
        · simp [hcd, Ne.symm hcd]

def RowIndex.find (ix : RowIndex) (p : ParsedPosition) : Option ℕ :=
  (p.conId.bind (lookup ix.byCon)).orElse fun _ => lookup ix.byKey p.listing

theorem find_ofRows {rows : List PositionRow} {p : ParsedPosition} (hp : p.conId ≠ some 0) :
    (RowIndex.ofRows rows).find p = (rowFor rows p).map (·.id) := by
  unfold RowIndex.find rowFor
  rw [lookup_byKey]
  cases hcon : p.conId with
  | none => rfl
  | some c =>
    have hc : c ≠ 0 := by rintro rfl; exact hp hcon
    rw [Option.bind_some, Option.bind_some, lookup_byCon rows hc]
    cases rows.reverse.find? fun r => decide (r.conId = some c) <;> rfl

end

theorem mem_of_find_reverse {rows : List PositionRow} {q : PositionRow → Bool} {r : PositionRow}
    (h : rows.reverse.find? q = some r) : r ∈ rows ∧ q r :=
  ⟨List.mem_reverse.mp (List.mem_of_find?_eq_some h), List.find?_some h⟩

theorem rowFor_cases [Casing] {rows : List PositionRow} {p : ParsedPosition} {r : PositionRow}
    (h : rowFor rows p = some r) :
    r ∈ rows ∧ ((p.conId ≠ none ∧ r.conId = p.conId) ∨ r.indexKey = p.listing) := by
  unfold rowFor at h
  cases hfound : p.conId.bind fun c => rows.reverse.find? fun r => decide (r.conId = some c) with
  | none =>
    rw [hfound] at h
    obtain ⟨hmem, hr⟩ := mem_of_find_reverse h
    exact ⟨hmem, Or.inr (of_decide_eq_true hr)⟩
  | some s =>
    rw [hfound] at h
    cases h
    obtain ⟨c, hcon, hfound⟩ := Option.bind_eq_some_iff.mp hfound
    obtain ⟨hmem, hr⟩ := mem_of_find_reverse hfound
    refine ⟨hmem, Or.inl ⟨by simp [hcon], ?_⟩⟩
    rw [hcon]
    exact of_decide_eq_true hr

/-! ## The loop -/

theorem freshRowId_new (rows : List PositionRow) : freshRowId rows ∉ rows.map (·.id) :=
  foldl_max_succ_notMem _

theorem id_updatePositionRow (now : Int) (r : PositionRow) (p : ParsedPosition) :
    (updatePositionRow r p now).id = r.id := rfl

def writes (now : Int) : Upsert PositionRow ParsedPosition ℕ :=
  { id := PositionRow.id
    edit := fun r p => updatePositionRow r p now
    fresh := fun rows p => newPositionRow p (freshRowId rows) now
    id_edit := id_updatePositionRow now
    id_fresh := fun rows _ => freshRowId_new rows }

variable {ix : RowIndex}

theorem applyPosition_of_none {now : Int} {p : ParsedPosition} (h : ix.find p = none) :
    applyPosition now ix p =
      { ix with rows := ix.rows ++ [newPositionRow p (freshRowId ix.rows) now] } := by
  unfold RowIndex.find ParsedPosition.listing at h
  simp only [applyPosition, h]

theorem applyPosition_of_some {now : Int} {p : ParsedPosition} {i : ℕ} (h : ix.find p = some i) :
    applyPosition now ix p =
      { rows := ix.rows.map fun r => if r.id = i then updatePositionRow r p now else r
        byKey := put ix.byKey p.listing i
        byCon := (p.conId.map fun c => put ix.byCon c i).getD ix.byCon } := by
  unfold RowIndex.find ParsedPosition.listing at h
  simp only [applyPosition, h]
  cases p.conId <;> rfl

theorem rows_applyPosition (now : Int) (ix : RowIndex) (p : ParsedPosition) :
    (applyPosition now ix p).rows = (writes now).apply ix.find ix.rows p := by
  cases h : ix.find p with
  | none => rw [applyPosition_of_none h, Upsert.apply_of_none h]; rfl
  | some i => rw [applyPosition_of_some h, Upsert.apply_of_some h]; rfl

/-- The indices after some holdings are what they were before, but for what those wrote. -/
structure Follows (ix ix' : RowIndex) (done : List ParsedPosition) : Prop where
  functional : Functional ix'.byKey
  byKey : ∀ k ∉ done.map ParsedPosition.listing, lookup ix'.byKey k = lookup ix.byKey k
  byCon : ∀ c, c ∉ done.filterMap (·.conId) → lookup ix'.byCon c = lookup ix.byCon c

theorem Follows.find {ix ix' : RowIndex} {done : List ParsedPosition} {p : ParsedPosition}
    (h : Follows ix ix' done) (hkey : p.listing ∉ done.map ParsedPosition.listing)
    (hcon : ∀ c ∈ p.conId, c ∉ done.filterMap (·.conId)) : ix'.find p = ix.find p := by
  unfold RowIndex.find
  rw [h.byKey _ hkey]
  cases hc : p.conId with
  | none => rfl
  | some c => rw [Option.bind_some, Option.bind_some, h.byCon c (hcon c hc)]

/-- One more holding changes the index at its own keys only. -/
theorem Follows.step {ix' : RowIndex} {done : List ParsedPosition} (h : Follows ix ix' done)
    (now : Int) (p : ParsedPosition) : Follows ix (applyPosition now ix' p) (done ++ [p]) := by
  have hkey : ∀ {k}, k ∉ (done ++ [p]).map ParsedPosition.listing →
      k ≠ p.listing ∧ k ∉ done.map ParsedPosition.listing := by
    intro k hk
    rw [List.map_append, List.mem_append, not_or] at hk
    exact ⟨by simpa using hk.2, hk.1⟩
  have hcon : ∀ {c}, c ∉ (done ++ [p]).filterMap (·.conId) →
      p.conId ≠ some c ∧ c ∉ done.filterMap (·.conId) := by
    intro c hc
    rw [List.filterMap_append, List.mem_append, not_or] at hc
    exact ⟨by simpa using hc.2, hc.1⟩
  cases hfind : ix'.find p with
  | none =>
    rw [applyPosition_of_none hfind]
    exact ⟨h.functional, fun k hk => h.byKey k (hkey hk).2, fun c hc => h.byCon c (hcon hc).2⟩
  | some i =>
    rw [applyPosition_of_some hfind]
    refine ⟨h.functional.put, ?_, ?_⟩
    · intro k hk
      rw [lookup_put, if_neg (hkey hk).1, h.byKey k (hkey hk).2]
    · intro c hc
      obtain ⟨hne, hdone⟩ := hcon hc
      cases hp : p.conId with
      | none => exact h.byCon c hdone
      | some d =>
        have hcd : c ≠ d := by
          rintro rfl
          exact hne hp
        simp only [Option.map_some, Option.getD_some, lookup_put, if_neg hcd, h.byCon c hdone]

theorem foldl_applyPosition (now : Int) {ps : List ParsedPosition} (hix : Functional ix.byKey)
    (hkeys : (ps.map ParsedPosition.listing).Nodup) (hcons : (ps.filterMap (·.conId)).Nodup) :
    Follows ix (ps.foldl (applyPosition now) ix) ps ∧
      (ps.foldl (applyPosition now) ix).rows = (writes now).applyAll ix.find ix.rows ps := by
  induction ps using List.reverseRecOn with
  | nil => exact ⟨⟨hix, fun _ _ => rfl, fun _ _ => rfl⟩, rfl⟩
  | append_singleton ps p ih =>
    rw [List.map_append, List.map_singleton, List.nodup_append] at hkeys
    rw [List.filterMap_append, List.nodup_append] at hcons
    obtain ⟨hfollows, hrows⟩ := ih hkeys.1 hcons.1
    have hkey : p.listing ∉ ps.map ParsedPosition.listing :=
      fun h => hkeys.2.2 _ h _ (by simp) rfl
    have hcon : ∀ c ∈ p.conId, c ∉ ps.filterMap (·.conId) := by
      intro c hc h
      refine hcons.2.2 _ h c ?_ rfl
      simpa using hc
    rw [List.foldl_concat, Upsert.applyAll_concat]
    refine ⟨hfollows.step now p, ?_⟩
    rw [rows_applyPosition, hrows]
    unfold Upsert.apply
    rw [hfollows.find hkey hcon]

/-! ## Holdings as they are read -/

structure ParsedPosition.Read [Casing] (p : ParsedPosition) : Prop where
  upper : Casing.upper p.symbol = p.symbol
  conId_ne : p.conId ≠ some 0

variable {cfg : Settings}

theorem read_of_parsePosition [Casing] {raw : PositionReport} {p : ParsedPosition}
    (h : parsePosition cfg raw = some (some p)) : p.Read := by
  unfold parsePosition at h
  simp only [Option.bind_eq_bind, Option.bind_eq_some_iff, Option.pure_def] at h
  obtain ⟨qty, -, h⟩ := h
  split at h
  · cases h
  · simp only [Option.bind_eq_some_iff] at h
    obtain ⟨mv, -, cost, -, upnl, -, avg, -, h⟩ := h
    cases h
    refine ⟨Casing.upper_upper _, ?_⟩
    by_cases hcon : raw.conId = 0
    · simp [hcon]
    · simp [hcon]

theorem read_of_parsePositions [Casing] {raws : List PositionReport} {parsed : List ParsedPosition}
    (h : parsePositions cfg raws = some parsed) : ∀ p ∈ parsed, p.Read := by
  unfold parsePositions at h
  obtain ⟨ps, hps, rfl⟩ := Option.map_eq_some_iff.mp h
  intro p hp
  obtain ⟨x, hx, rfl⟩ := List.mem_filterMap.mp hp
  obtain ⟨raw, -, hraw⟩ := mem_of_mapM hps hx
  exact read_of_parsePosition hraw

theorem indexKey_of_listing [Casing] {r : PositionRow} {p : ParsedPosition} (hp : p.Read)
    (h : r.listing = p.listing) : r.indexKey = p.listing := by
  obtain ⟨hsymbol, hvenue⟩ := Prod.mk.inj h
  unfold PositionRow.indexKey ParsedPosition.listing
  rw [hsymbol, hvenue, hp.upper, venueText_value]

theorem rowFor_ne_none [Casing] {rows : List PositionRow} {r : PositionRow} {p : ParsedPosition}
    (hr : r ∈ rows) (hkey : r.indexKey = p.listing) : rowFor rows p ≠ none := by
  unfold rowFor
  intro h
  cases hfound : p.conId.bind fun c => rows.reverse.find? fun r => decide (r.conId = some c) with
  | none =>
    rw [hfound] at h
    exact absurd (decide_eq_true hkey) (List.find?_eq_none.mp h r (List.mem_reverse.mpr hr))
  | some s =>
    rw [hfound] at h
    cases h

/-! ## Rows that are deleted -/

def kept (parsed : List ParsedPosition) (ix : RowIndex) (r : PositionRow) : Bool :=
  r.conId.any ((parsed.filterMap (·.conId)).contains ·) ||
    ix.byKey.all fun e => e.2 != r.id || (parsed.map ParsedPosition.listing).contains e.1

theorem dropUnseen_eq (parsed : List ParsedPosition) (ix : RowIndex) :
    dropUnseen parsed ix = ix.rows.filter (kept parsed ix) := rfl

def Indexed [Casing] (rows : List PositionRow) (r : PositionRow) : Prop :=
  rows.reverse.find? (fun s => s.indexKey = r.indexKey) = some r

theorem kept_iff [Casing] {rows : List PositionRow} {parsed : List ParsedPosition}
    (h : Follows (RowIndex.ofRows rows) ix parsed) {r : PositionRow} :
    kept parsed ix r ↔ (∃ p ∈ parsed, p.conId ≠ none ∧ r.conId = p.conId) ∨
      ∀ s, Indexed rows s → s.id = r.id → s.indexKey ∈ parsed.map ParsedPosition.listing := by
  have hcon : r.conId.any ((parsed.filterMap (·.conId)).contains ·) = true ↔
      ∃ p ∈ parsed, p.conId ≠ none ∧ r.conId = p.conId := by
    cases hr : r.conId with
    | none => simp [eq_comm]
    | some c =>
      simp only [Option.any_some, List.contains_iff_mem, List.mem_filterMap]
      refine exists_congr fun p => and_congr_right fun _ => ?_
      constructor
      · intro hp
        simp [hp]
      · rintro ⟨-, hp⟩
        exact hp.symm
  -- an entry the report does not list is one the table began with
  have hkey : (ix.byKey.all fun e => e.2 != r.id ||
      (parsed.map ParsedPosition.listing).contains e.1) = true ↔
        ∀ s, Indexed rows s → s.id = r.id → s.indexKey ∈ parsed.map ParsedPosition.listing := by
    simp only [List.all_eq_true, Bool.or_eq_true, bne_iff_ne, ne_eq, List.contains_iff_mem,
      ← imp_iff_not_or]
    constructor
    · intro hall s hs hid
      by_contra hnot
      have hentry : (s.indexKey, s.id) ∈ ix.byKey := by
        rw [h.functional, h.byKey _ hnot, lookup_byKey, hs]
        rfl
      exact hnot (hall _ hentry hid)
    · rintro hall ⟨k, i⟩ hentry hid
      by_contra hnot
      rw [h.functional, h.byKey _ hnot, lookup_byKey] at hentry
      obtain ⟨s, hs, rfl⟩ := Option.map_eq_some_iff.mp hentry
      have hk : s.indexKey = k := of_decide_eq_true (mem_of_find_reverse hs).2
      subst hk
      exact hnot (hall s hs hid)
  rw [kept, Bool.or_eq_true, hcon, hkey]

/-! ## When the rows mirror the report -/

structure Shows (r : PositionRow) (p : ParsedPosition) : Prop where
  symbol : r.symbol = p.symbol
  venue : r.venue = p.venue.value
  conId : r.conId = p.conId
  quantity : r.quantity = p.quantity

def OneToOne (rows : List PositionRow) (parsed : List ParsedPosition) : Prop :=
  ∃ shown, rows.Perm shown ∧ List.Forall₂ (fun p r => Shows r p) parsed shown

def PositionRow.timeless (r : PositionRow) : PositionRow := { r with asOf := 0 }

/-- The holdings have rows of their own, and the other rows have nothing of the report. -/
structure Matchable [Casing] (rows : List PositionRow) (parsed : List ParsedPosition) : Prop where
  /-- No two holdings have one symbol and venue. -/
  listed : (parsed.map ParsedPosition.listing).Nodup
  /-- No two holdings are matched to one row. -/
  apart : parsed.Pairwise fun p q => ∀ r, rowFor rows p = some r → rowFor rows q ≠ some r
  /-- A matched row has the symbol of its holding, and a contract id only if the holding has. -/
  named : ∀ p ∈ parsed, ∀ r, rowFor rows p = some r →
    r.symbol = p.symbol ∧ (p.conId = none → r.conId = none)
  /-- A matched row is not moved to the listing of a row after it. -/
  moved : ∀ p ∈ parsed, ∀ r, rowFor rows p = some r → ∀ s ∈ rows, s.listing = p.listing → s.id ≤ r.id
  /-- A row that is not matched is indexed, and has neither contract id nor listing of a holding. -/
  stale : ∀ r ∈ rows, (∀ p ∈ parsed, rowFor rows p ≠ some r) → Indexed rows r ∧
    ∀ p ∈ parsed, (p.conId ≠ none → r.conId ≠ p.conId) ∧ r.indexKey ≠ p.listing

/-! ## One sync -/

section Once

variable {table : KeyedTable PositionRow.listing} {rows : List PositionRow}
  {parsed : List ParsedPosition} {p : ParsedPosition} {r : PositionRow} {now : Int}

section

variable [Casing]

theorem rowFor_of_find (hids : (rows.map (·.id)).Nodup) (hp : p.Read) (hr : r ∈ rows)
    (h : (RowIndex.ofRows rows).find p = some r.id) : rowFor rows p = some r := by
  rw [find_ofRows hp.conId_ne] at h
  obtain ⟨s, hs, hid⟩ := Option.map_eq_some_iff.mp h
  rw [hs, List.inj_on_of_nodup_map hids (rowFor_cases hs).1 hr hid]

theorem find_of_rowFor (hp : p.Read) (h : rowFor rows p = some r) :
    (RowIndex.ofRows rows).find p = some r.id := by
  rw [find_ofRows hp.conId_ne, h, Option.map_some]

theorem rowFor_of_find_none (hp : p.Read) (h : (RowIndex.ofRows rows).find p = none) :
    rowFor rows p = none := by
  rw [find_ofRows hp.conId_ne] at h
  exact Option.map_eq_none_iff.mp h

theorem find_hits (hread : ∀ p ∈ parsed, p.Read) :
    ∀ p ∈ parsed, ∀ i, (RowIndex.ofRows rows).find p = some i → i ∈ rows.map (writes now).id := by
  intro p hp i hi
  rw [find_ofRows (hread p hp).conId_ne] at hi
  obtain ⟨r, hr, rfl⟩ := Option.map_eq_some_iff.mp hi
  exact List.mem_map_of_mem (f := (writes now).id) (rowFor_cases hr).1

theorem find_apart (hids : (rows.map (·.id)).Nodup) (hread : ∀ p ∈ parsed, p.Read)
    (h : parsed.Pairwise fun p q => ∀ r, rowFor rows p = some r → rowFor rows q ≠ some r) :
    parsed.Pairwise fun p q => ∀ i, (RowIndex.ofRows rows).find p = some i →
      (RowIndex.ofRows rows).find q ≠ some i := by
  refine h.imp_of_mem fun hp hq hpq i hi hi' => ?_
  rw [find_ofRows (hread _ hp).conId_ne] at hi
  obtain ⟨r, hr, rfl⟩ := Option.map_eq_some_iff.mp hi
  exact hpq r hr (rowFor_of_find hids (hread _ hq) (rowFor_cases hr).1 hi')

theorem shows_of_wrote (hids : (rows.map (·.id)).Nodup) (hp : p.Read)
    (hnamed : ∀ r, rowFor rows p = some r → r.symbol = p.symbol ∧ (p.conId = none → r.conId = none))
    (h : (writes now).Wrote (RowIndex.ofRows rows).find rows p r) : Shows r p := by
  cases h with
  | made before has new => exact ⟨rfl, rfl, rfl, rfl⟩
  | edited r₀ mem has =>
    obtain ⟨hsymbol, hcon⟩ := hnamed r₀ (rowFor_of_find hids hp mem has)
    refine ⟨hsymbol, rfl, ?_, rfl⟩
    show (updatePositionRow r₀ p now).conId = p.conId
    unfold updatePositionRow
    cases hc : p.conId with
    | none => exact hcon hc
    | some c => rfl

end

theorem Shows.listing (h : Shows r p) : r.listing = p.listing := Prod.ext h.symbol h.venue

theorem map_listing_of_shows {shown : List PositionRow}
    (h : List.Forall₂ (fun p r => Shows r p) parsed shown) :
    shown.map PositionRow.listing = parsed.map ParsedPosition.listing := by
  induction h with
  | nil => rfl
  | cons hshows _ ih => rw [List.map_cons, List.map_cons, hshows.listing, ih]

theorem kept_of_wrote [Casing] (hids : (rows.map (·.id)).Nodup)
    (hfollows : Follows (RowIndex.ofRows rows) ix parsed) (hp : p ∈ parsed) (hread : p.Read)
    (hshows : Shows r p) (h : (writes now).Wrote (RowIndex.ofRows rows).find rows p r) :
    kept parsed ix r := by
  rw [kept_iff hfollows]
  by_cases hcon : p.conId = none
  · refine Or.inr fun s hs hid => ?_
    have hmem : s ∈ rows := (mem_of_find_reverse hs).1
    cases h with
    | made before has new => exact absurd (List.mem_map.mpr ⟨s, hmem, hid⟩) new
    | edited r₀ mem has =>
      have hs₀ : s = r₀ := List.inj_on_of_nodup_map hids hmem mem hid
      subst hs₀
      obtain ⟨-, ⟨hne, -⟩ | hkey⟩ := rowFor_cases (rowFor_of_find hids hread mem has)
      · exact absurd hcon hne
      · rw [hkey]
        exact List.mem_map_of_mem hp
  · exact Or.inl ⟨p, hp, hcon, hshows.conId⟩

theorem not_kept_of_stale [Casing] (hfollows : Follows (RowIndex.ofRows rows) ix parsed)
    (hindexed : Indexed rows r)
    (hstale : ∀ p ∈ parsed, (p.conId ≠ none → r.conId ≠ p.conId) ∧ r.indexKey ≠ p.listing) :
    ¬ kept parsed ix r := by
  rw [kept_iff hfollows]
  rintro (⟨p, hp, hcon, heq⟩ | hall)
  · exact (hstale p hp).1 hcon heq
  · obtain ⟨p, hp, hkey⟩ := List.mem_map.mp (hall r hindexed rfl)
    exact (hstale p hp).2 hkey.symm

/-- **One sync of matchable rows** leaves a row for each holding, written over the row it is
    matched to, and no other. -/
theorem Matchable.synced [Casing] (h : Matchable table.rows parsed) (hids : (table.rows.map (·.id)).Nodup)
    (hread : ∀ p ∈ parsed, p.Read) (hcons : (parsed.filterMap (·.conId)).Nodup) (now : Int) :
    ∃ table' written, syncRows table parsed now = some table' ∧
      (table'.rows.map (·.id)).Nodup ∧ table'.rows.Perm written ∧
      List.Forall₂ (fun p r => p ∈ parsed ∧ Shows r p ∧
        (writes now).Wrote (RowIndex.ofRows table.rows).find table.rows p r) parsed written := by
  obtain ⟨hfollows, hrows⟩ :=
    foldl_applyPosition now (functional_byKey table.rows) h.listed hcons
  obtain ⟨written, hwrote, hperm⟩ := Upsert.applyAll_perm (u := writes now) hids
    (find_hits hread) (find_apart hids hread h.apart)
  have hshown : List.Forall₂ (fun p r => p ∈ parsed ∧ Shows r p ∧
      (writes now).Wrote (RowIndex.ofRows table.rows).find table.rows p r) parsed written :=
    (forall₂_mem hwrote).imp fun p r hw =>
      ⟨hw.2.1, shows_of_wrote hids (hread p hw.2.1) (h.named p hw.2.1) hw.1, hw.1⟩
  -- the rows no holding is matched to share nothing with the report
  have hfree : ∀ r ∈ (writes now).untouched (RowIndex.ofRows table.rows).find table.rows parsed,
      r ∈ table.rows ∧ Indexed table.rows r ∧
        ∀ p ∈ parsed, (p.conId ≠ none → r.conId ≠ p.conId) ∧ r.indexKey ≠ p.listing := by
    intro r hr
    obtain ⟨hmem, hnone⟩ := Upsert.mem_untouched.mp hr
    exact ⟨hmem, h.stale r hmem fun p hp hrow => hnone p hp (find_of_rowFor (hread p hp) hrow)⟩
  have hperm' := (List.Perm.of_eq hrows).trans hperm
  have hflush : Flushes table.rows (parsed.foldl (applyPosition now)
      (RowIndex.ofRows table.rows)).rows := by
    constructor
    · rw [(hperm'.map _).nodup_iff, List.map_append,
        map_listing_of_shows (hshown.imp fun _ _ hw => hw.2.1)]
      refine List.Nodup.append (table.unique.sublist (List.filter_sublist.map _)) h.listed ?_
      intro k hk hk'
      obtain ⟨r, hr, rfl⟩ := List.mem_map.mp hk
      obtain ⟨p, hp, hkey⟩ := List.mem_map.mp hk'
      obtain ⟨-, -, hstale⟩ := hfree r hr
      exact (hstale p hp).2 (indexKey_of_listing (hread p hp) hkey.symm)
    · intro r hr s hs hlt hsame
      rcases List.mem_append.mp (hperm'.mem_iff.mp hr) with hr | hr
      · obtain ⟨hmem, -⟩ := hfree r hr
        exact absurd (KeyedTable.eq_of_key_eq hmem hs hsame ▸ hlt) (lt_irrefl _)
      · obtain ⟨p, -, hp, hshows, hwrote⟩ := forall₂_mem_right hshown hr
        have hlisting : s.listing = p.listing := hsame.symm.trans hshows.listing
        cases hwrote with
        | made before has new =>
          exact rowFor_ne_none hs (indexKey_of_listing (hread p hp) hlisting)
            (rowFor_of_find_none (hread p hp) has)
        | edited r₀ mem has =>
          exact absurd (h.moved p hp r₀ (rowFor_of_find hids (hread p hp) mem has) s hs hlisting)
            (not_le.mpr hlt)
  have hids' : ((parsed.foldl (applyPosition now)
      (RowIndex.ofRows table.rows)).rows.map (·.id)).Nodup := by
    rw [hrows]
    exact Upsert.nodup_ids_applyAll (u := writes now) hids
  refine ⟨_, written, dif_pos hflush, hids'.sublist (List.filter_sublist.map _), ?_, hshown⟩
  show (dropUnseen parsed _).Perm written
  rw [dropUnseen_eq]
  refine (hperm'.filter _).trans ?_
  rw [List.filter_append, List.filter_eq_nil_iff.mpr ?_, List.nil_append,
    List.filter_eq_self.mpr ?_]
  · intro r hr
    obtain ⟨p, -, hp, hshows, hwrote⟩ := forall₂_mem_right hshown hr
    exact kept_of_wrote hids hfollows hp (hread p hp) hshows hwrote
  · intro r hr
    obtain ⟨-, hindexed, hstale⟩ := hfree r hr
    exact not_kept_of_stale hfollows hindexed hstale

end Once

/-! ## A second sync -/

section Twice

variable {table : KeyedTable PositionRow.listing} {rows : List PositionRow}
  {parsed : List ParsedPosition} {p q : ParsedPosition} {r : PositionRow} {now later : Int}

theorem timeless_update_new (p : ParsedPosition) (id : ℕ) (now later : Int) :
    (updatePositionRow (newPositionRow p id now) p later).timeless =
      (newPositionRow p id now).timeless := by
  unfold updatePositionRow newPositionRow PositionRow.timeless
  cases Dict.get? SECTOR_MAP p.symbol with
  | none => cases p.conId <;> rfl
  | some sector => cases p.conId <;> rfl

theorem timeless_update_update (r : PositionRow) (p : ParsedPosition) (now later : Int) :
    (updatePositionRow (updatePositionRow r p now) p later).timeless =
      (updatePositionRow r p now).timeless := by
  unfold updatePositionRow PositionRow.timeless
  cases Dict.get? SECTOR_MAP p.symbol with
  | none =>
    by_cases hsector : r.sector = ""
    · cases p.conId <;> simp [hsector]
    · cases p.conId <;> simp [hsector]
  | some sector => cases p.conId <;> rfl

theorem timeless_of_wrote {target : ParsedPosition → Option ℕ}
    (h : (writes now).Wrote target rows p r) (later : Int) :
    (updatePositionRow r p later).timeless = r.timeless := by
  cases h with
  | edited r₀ mem has => exact timeless_update_update r₀ p now later
  | made before has new => exact timeless_update_new p _ now later

theorem rowFor_of_shows [Casing] (hall : ∀ r ∈ table.rows, ∃ p ∈ parsed, Shows r p)
    (hread : ∀ p ∈ parsed, p.Read) (hcons : (parsed.filterMap (·.conId)).Nodup)
    (hp : p ∈ parsed) (hr : r ∈ table.rows) (hshows : Shows r p) :
    rowFor table.rows p = some r := by
  unfold rowFor
  cases hcon : p.conId with
  | some c =>
    have hfound : table.rows.reverse.find? (fun s => decide (s.conId = some c)) = some r := by
      refine find?_eq_some_of_unique (List.mem_reverse.mpr hr)
        (decide_eq_true (hshows.conId.trans hcon)) fun s hs hsame => ?_
      rw [List.mem_reverse] at hs
      obtain ⟨q, hq, hshows'⟩ := hall s hs
      have heq : q = p := eq_of_nodup_filterMap hcons hq hp
        (hshows'.conId.symm.trans (of_decide_eq_true hsame)) hcon
      subst heq
      exact KeyedTable.eq_of_key_eq hs hr (hshows'.listing.trans hshows.listing.symm)
    rw [Option.bind_some, hfound]
    rfl
  | none =>
    have hfound : table.rows.reverse.find? (fun s => decide (s.indexKey = p.listing)) = some r := by
      refine find?_eq_some_of_unique (List.mem_reverse.mpr hr)
        (decide_eq_true (indexKey_of_listing (hread p hp) hshows.listing)) fun s hs hsame => ?_
      rw [List.mem_reverse] at hs
      obtain ⟨q, hq, hshows'⟩ := hall s hs
      have hkey : q.listing = p.listing :=
        (indexKey_of_listing (hread q hq) hshows'.listing).symm.trans (of_decide_eq_true hsame)
      exact KeyedTable.eq_of_key_eq hs hr
        (hshows'.listing.trans (hkey.trans hshows.listing.symm))
    rw [Option.bind_none]
    exact hfound

theorem matchable_of_shows [Casing] (hall : ∀ r ∈ table.rows, ∃ p ∈ parsed, Shows r p)
    (hshown : ∀ p ∈ parsed, ∃ r ∈ table.rows, Shows r p) (hread : ∀ p ∈ parsed, p.Read)
    (hlisted : (parsed.map ParsedPosition.listing).Nodup)
    (hcons : (parsed.filterMap (·.conId)).Nodup) : Matchable table.rows parsed := by
  have hrow : ∀ {p r}, p ∈ parsed → rowFor table.rows p = some r →
      r ∈ table.rows ∧ Shows r p := by
    intro p r hp h
    obtain ⟨s, hs, hshows⟩ := hshown p hp
    rw [rowFor_of_shows hall hread hcons hp hs hshows] at h
    cases h
    exact ⟨hs, hshows⟩
  refine ⟨hlisted, ?_, ?_, ?_, ?_⟩
  · refine (List.pairwise_map.mp hlisted).imp_of_mem fun hp hq hne r hr hr' => hne ?_
    exact (hrow hp hr).2.listing.symm.trans (hrow hq hr').2.listing
  · intro p hp r hr
    obtain ⟨-, hshows⟩ := hrow hp hr
    exact ⟨hshows.symbol, fun hnone => hshows.conId.trans hnone⟩
  · intro p hp r hr s hs hsame
    obtain ⟨hmem, hshows⟩ := hrow hp hr
    rw [KeyedTable.eq_of_key_eq hs hmem (hsame.trans hshows.listing.symm)]
  · intro r hr hnone
    obtain ⟨p, hp, hshows⟩ := hall r hr
    exact absurd (rowFor_of_shows hall hread hcons hp hr hshows) (hnone p hp)

theorem map_timeless_eq [Casing] {written : List PositionRow}
    (h : List.Forall₂ (fun p r => ∃ s, rowFor rows p = some s ∧ s.timeless = r.timeless) parsed
      written) :
    parsed.map (fun p => (rowFor rows p).map PositionRow.timeless) =
      written.map fun r => some r.timeless := by
  induction h with
  | nil => rfl
  | cons hrow _ ih =>
    obtain ⟨s, hs, hsame⟩ := hrow
    rw [List.map_cons, List.map_cons, ih, hs, Option.map_some, hsame]

/-- A matchable table ends one to one, and a repeat changes its times only. -/
theorem Matchable.tracked [Casing] (h : Matchable table.rows parsed) (hids : (table.rows.map (·.id)).Nodup)
    (hread : ∀ p ∈ parsed, p.Read) (hcons : (parsed.filterMap (·.conId)).Nodup) (now : Int) :
    ∃ table', syncRows table parsed now = some table' ∧ OneToOne table'.rows parsed ∧
      ∀ later, ∃ table'', syncRows table' parsed later = some table'' ∧
        (table''.rows.map PositionRow.timeless).Perm (table'.rows.map PositionRow.timeless) := by
  obtain ⟨table', written, hsync, hids', hperm, hwrote⟩ := h.synced hids hread hcons now
  refine ⟨table', hsync, ⟨written, hperm, hwrote.imp fun _ _ hw => hw.2.1⟩, fun later => ?_⟩
  have hall : ∀ r ∈ table'.rows, ∃ p ∈ parsed, Shows r p := by
    intro r hr
    obtain ⟨p, hp, hw⟩ := forall₂_mem_right hwrote (hperm.mem_iff.mp hr)
    exact ⟨p, hp, hw.2.1⟩
  have hshown : ∀ p ∈ parsed, ∃ r ∈ table'.rows, Shows r p := by
    intro p hp
    obtain ⟨r, hr, hw⟩ := forall₂_mem_left hwrote hp
    exact ⟨r, hperm.mem_iff.mpr hr, hw.2.1⟩
  obtain ⟨table'', written', hsync', -, hperm', hwrote'⟩ :=
    (matchable_of_shows hall hshown hread h.listed hcons).synced hids' hread hcons later
  refine ⟨table'', hsync', ?_⟩
  -- both tables have, for each holding, the row it was matched to the second time
  have hfirst := map_timeless_eq ((forall₂_mem hwrote).imp fun p r ⟨hw, hp, hr⟩ =>
    ⟨r, rowFor_of_shows hall hread hcons hp (hperm.mem_iff.mpr hr) hw.2.1, rfl⟩)
  have hsecond := @map_timeless_eq table'.rows _ _ _ (hwrote'.imp fun p r ⟨hp, _, hw⟩ => by
    obtain ⟨s, hs, hshows⟩ := hshown p hp
    have hrow := rowFor_of_shows hall hread hcons hp hs hshows
    refine ⟨s, hrow, ?_⟩
    cases hw with
    | made before has new =>
      rw [rowFor_of_find_none (hread p hp) has] at hrow
      cases hrow
    | edited r₀ mem has =>
      rw [rowFor_of_find hids' (hread p hp) mem has] at hrow
      cases hrow
      obtain ⟨q, hq, -, hshows', hw'⟩ := forall₂_mem_right hwrote (hperm.mem_iff.mp mem)
      have hpq : q = p := List.inj_on_of_nodup_map h.listed hq hp
        (hshows'.listing.symm.trans hshows.listing)
      subst hpq
      exact (timeless_of_wrote hw' later).symm)
  have hsame : written'.map PositionRow.timeless = written.map PositionRow.timeless := by
    refine List.map_injective_iff.mpr (Option.some_injective _) ?_
    rw [List.map_map, List.map_map]
    exact hsecond.symm.trans hfirst
  exact (hperm'.map _).trans ((List.Perm.of_eq hsame).trans (hperm.map _).symm)

end Twice

/-! ## When nothing else mirrors the report -/

/-- What the unique columns make sure of: no two rows are indexed under one key, and none have
    one contract id. -/
structure WellKept [Casing] (rows : List PositionRow) : Prop where
  listed : (rows.map PositionRow.indexKey).Nodup
  named : (rows.filterMap (·.conId)).Nodup

section Converse

variable {table : KeyedTable PositionRow.listing} {rows : List PositionRow}
  {parsed : List ParsedPosition} {p q : ParsedPosition} {r s : PositionRow} {now : Int}

theorem WellKept.rowFor [Casing] (h : WellKept rows) (hp : p.Read) (hr : r ∈ rows) (hshows : Shows r p) :
    rowFor rows p = some r := by
  unfold PositionSync.rowFor
  cases hcon : p.conId with
  | some c =>
    have hrc : r.conId = some c := hshows.conId.trans hcon
    have hfound : rows.reverse.find? (fun s => decide (s.conId = some c)) = some r :=
      find?_eq_some_of_unique (List.mem_reverse.mpr hr) (decide_eq_true hrc) fun s hs hsame =>
        eq_of_nodup_filterMap h.named (List.mem_reverse.mp hs) hr (of_decide_eq_true hsame) hrc
    rw [Option.bind_some, hfound]
    rfl
  | none =>
    have hkey : r.indexKey = p.listing := indexKey_of_listing hp hshows.listing
    rw [Option.bind_none]
    exact find?_eq_some_of_unique (List.mem_reverse.mpr hr) (decide_eq_true hkey) fun s hs hsame =>
      List.inj_on_of_nodup_map h.listed (List.mem_reverse.mp hs) hr
        ((of_decide_eq_true hsame).trans hkey.symm)

theorem row_of_shows [Casing] (hkept : WellKept rows) (hids : (rows.map (·.id)).Nodup)
    (hread : ∀ p ∈ parsed, p.Read) (hlisted : (parsed.map ParsedPosition.listing).Nodup)
    (hcons : (parsed.filterMap (·.conId)).Nodup)
    (hr : r ∈ (writes now).applyAll (RowIndex.ofRows rows).find rows parsed) (hq : q ∈ parsed)
    (hshows : Shows r q) :
    (rowFor rows q = none ∧ r.id ∉ rows.map (·.id)) ∨
      ∃ r₀, rowFor rows q = some r₀ ∧ r₀.id = r.id := by
  have hsymbol : ∀ r p, ((writes now).edit r p).symbol = r.symbol := fun _ _ => rfl
  cases Upsert.mem_applyAll hsymbol (find_hits hread) hr with
  | untouched mem free =>
    exact absurd (find_of_rowFor (hread q hq) (hkept.rowFor (hread q hq) mem hshows)) (free q hq)
  | made p mem has new written =>
    obtain ⟨before, rfl⟩ := written
    have hpq : p = q := List.inj_on_of_nodup_map hlisted mem hq hshows.listing
    subst hpq
    exact Or.inl ⟨rowFor_of_find_none (hread p mem) has, new⟩
  | edited p mem has written old =>
    obtain ⟨r', rfl⟩ := written
    obtain ⟨r₀, hr₀, hid, hsym⟩ := old
    have hrow : rowFor rows p = some r₀ := by
      refine rowFor_of_find hids (hread p mem) hr₀ ?_
      rw [has]
      exact congrArg some hid.symm
    refine Or.inr ⟨r₀, ?_, hid⟩
    suffices hpq : p = q by rw [← hpq, hrow]
    -- the last holding that wrote the row is the one it shows
    rcases (rowFor_cases hrow).2 with ⟨hne, -⟩ | hkey
    · obtain ⟨c, hc⟩ := Option.ne_none_iff_exists'.mp hne
      have hcon : ((writes now).edit r' p).conId = p.conId := by
        show (updatePositionRow r' p now).conId = p.conId
        simp [updatePositionRow, hc]
      exact eq_of_nodup_filterMap hcons mem hq hc
        (hshows.conId.symm.trans (hcon.trans hc))
    · obtain ⟨hupper, -⟩ := Prod.mk.inj hkey
      refine List.inj_on_of_nodup_map hlisted mem hq (Prod.ext ?_ hshows.venue)
      show p.symbol = q.symbol
      rw [← hupper, hsym, hshows.symbol, (hread q hq).upper]

theorem shows_written [Casing] (hids : (rows.map (·.id)).Nodup) (hread : ∀ p ∈ parsed, p.Read)
    (hapart : parsed.Pairwise fun p q => ∀ r, rowFor rows p = some r → rowFor rows q ≠ some r)
    (hp : p ∈ parsed) (hr : rowFor rows p = some r)
    (hs : s ∈ (writes now).applyAll (RowIndex.ofRows rows).find rows parsed) (hshows : Shows s p)
    (hid : s.id = r.id) : Shows (updatePositionRow r p now) p := by
  have hids' : (((writes now).applyAll (RowIndex.ofRows rows).find rows
      parsed).map (writes now).id).Nodup := Upsert.nodup_ids_applyAll (u := writes now) hids
  obtain ⟨written, hwrote, hwritten⟩ := Upsert.applyAll_perm (u := writes now) hids
    (find_hits hread) (find_apart hids hread hapart)
  obtain ⟨w, hw, hwp⟩ := forall₂_mem_left hwrote hp
  have hedit : w = updatePositionRow r p now := by
    cases hwp with
    | made before has new =>
      rw [rowFor_of_find_none (hread p hp) has] at hr
      cases hr
    | edited r₀ mem has =>
      rw [rowFor_of_find hids (hread p hp) mem has] at hr
      cases hr
      rfl
  have hsw : s = w := List.inj_on_of_nodup_map hids' hs
    (hwritten.mem_iff.mpr (List.mem_append_right _ hw)) (hid.trans (hedit ▸ rfl))
  rw [← hedit, ← hsw]
  exact hshows

/-- **Only matchable rows come to mirror the report.** -/
theorem matchable_of_oneToOne [Casing] {table' : KeyedTable PositionRow.listing}
    (hkept : WellKept table.rows) (hids : (table.rows.map (·.id)).Nodup)
    (hread : ∀ p ∈ parsed, p.Read) (hcons : (parsed.filterMap (·.conId)).Nodup)
    (hsync : syncRows table parsed now = some table') (hone : OneToOne table'.rows parsed) :
    Matchable table.rows parsed := by
  obtain ⟨shown, hperm, hshown⟩ := hone
  have hlisted : (parsed.map ParsedPosition.listing).Nodup := by
    rw [← map_listing_of_shows hshown, ← (hperm.map _).nodup_iff]
    exact table'.unique
  obtain ⟨hfollows, hrows⟩ :=
    foldl_applyPosition now (functional_byKey table.rows) hlisted hcons
  unfold syncRows at hsync
  obtain ⟨hflush, htable⟩ := Option.dite_none_right_eq_some.mp hsync
  cases htable
  simp only [dropUnseen_eq] at hperm
  have hmem : ∀ {r}, r ∈ shown → r ∈ (writes now).applyAll
      (RowIndex.ofRows table.rows).find table.rows parsed := by
    intro r hr
    have hr' := List.mem_of_mem_filter (hperm.mem_iff.mpr hr)
    exact hrows ▸ hr'
  have hids' : (((writes now).applyAll (RowIndex.ofRows table.rows).find table.rows
      parsed).map (writes now).id).Nodup := Upsert.nodup_ids_applyAll (u := writes now) hids
  have hrow : ∀ {q r}, q ∈ parsed → r ∈ shown → Shows r q →
      (rowFor table.rows q = none ∧ r.id ∉ table.rows.map (·.id)) ∨
        ∃ r₀, rowFor table.rows q = some r₀ ∧ r₀.id = r.id := fun hq hr hshows =>
    row_of_shows hkept hids hread hlisted hcons (hmem hr) hq hshows
  have hmatched : ∀ {p r}, p ∈ parsed → rowFor table.rows p = some r →
      ∃ r' ∈ shown, Shows r' p ∧ r'.id = r.id := by
    intro p r hp hr
    obtain ⟨r', hr', hshows⟩ := forall₂_mem_left hshown hp
    rcases hrow hp hr' hshows with ⟨hnone, -⟩ | ⟨r₀, hr₀, hid⟩
    · rw [hr] at hnone
      cases hnone
    · rw [hr] at hr₀
      cases hr₀
      exact ⟨r', hr', hshows, hid.symm⟩
  have hapart : parsed.Pairwise fun p q => ∀ r, rowFor table.rows p = some r →
      rowFor table.rows q ≠ some r := by
    refine (List.pairwise_map.mp hlisted).imp_of_mem fun hp hq hne r hr hr' => hne ?_
    obtain ⟨s, hs, hshows, hid⟩ := hmatched hp hr
    obtain ⟨s', hs', hshows', hid'⟩ := hmatched hq hr'
    have hss : s = s' := List.inj_on_of_nodup_map hids' (hmem hs) (hmem hs') (hid.trans hid'.symm)
    rw [← hshows.listing, ← hshows'.listing, hss]
  refine ⟨hlisted, hapart, ?_, ?_, ?_⟩
  · -- what the holding wrote is the row that shows it
    intro p hp r hr
    obtain ⟨s, hs, hshows, hid⟩ := hmatched hp hr
    have hwritten := shows_written hids hread hapart hp hr (hmem hs) hshows hid
    refine ⟨hwritten.symbol, fun hnone => ?_⟩
    have hcon := hwritten.conId
    simpa [updatePositionRow, hnone] using hcon
  · intro p hp r hr s hs hsame
    obtain ⟨r', hr', hshows, hid⟩ := hmatched hp hr
    by_contra hlt
    exact hflush.2 r' (hrows ▸ hmem hr') s hs (hid ▸ not_le.mp hlt)
      (hshows.listing.trans hsame.symm)
  · -- a row no holding is matched to shows none, so that it was deleted
    intro r hr hnone
    have hstays : r ∈ (writes now).applyAll (RowIndex.ofRows table.rows).find table.rows parsed :=
      Upsert.mem_applyAll_of_untouched hr fun p hp hfind =>
        hnone p hp (rowFor_of_find hids (hread p hp) hr hfind)
    have hdropped : ¬ kept parsed (parsed.foldl (applyPosition now)
        (RowIndex.ofRows table.rows)) r := by
      intro hkeep
      have hr' : r ∈ shown := hperm.mem_iff.mp (List.mem_filter.mpr ⟨hrows ▸ hstays, hkeep⟩)
      obtain ⟨p, hp, hshows⟩ := forall₂_mem_right hshown hr'
      rcases hrow hp hr' hshows with ⟨-, hnew⟩ | ⟨r₀, hr₀, hid⟩
      · exact hnew (List.mem_map_of_mem hr)
      · rw [List.inj_on_of_nodup_map hids (rowFor_cases hr₀).1 hr hid] at hr₀
        exact hnone p hp hr₀
    rw [kept_iff hfollows, not_or] at hdropped
    obtain ⟨hcon, hentry⟩ := hdropped
    push Not at hcon hentry
    obtain ⟨s, hindexed, hid, hunlisted⟩ := hentry
    have hsr : s = r := List.inj_on_of_nodup_map hids (mem_of_find_reverse hindexed).1 hr hid
    subst hsr
    refine ⟨hindexed, fun p hp => ⟨hcon p hp, fun hkey => hunlisted ?_⟩⟩
    rw [hkey]
    exact List.mem_map_of_mem hp

end Converse

/-! ## The call -/

def AccountReport.Readable (a : AccountReport) : Prop :=
  a.equity?.isSome ∧ a.cash?.isSome ∧ a.lastEquity?.isSome

theorem AccountReport.Readable.priorEquity {a : AccountReport} (h : a.Readable) (writes : Bool) :
    ∃ prior, a.priorEquity writes = some prior := by
  obtain ⟨-, -, hlast⟩ := h
  cases writes with
  | false => exact ⟨none, rfl⟩
  | true => exact Option.isSome_iff_exists.mp hlast

theorem positions_of_sync [Casing] {b : Book} {c : SyncCall} {parsed : List ParsedPosition}
    (ha : c.account.Readable) (hparsed : parsePositions cfg c.positions = some parsed)
    {table' : KeyedTable PositionRow.listing} :
    (∃ b' r, syncFromBroker cfg b c = some (b', r) ∧ b'.positions = table') ↔
      syncRows b.positions parsed (c.now b) = some table' := by
  obtain ⟨equity, hequity⟩ := Option.isSome_iff_exists.mp ha.1
  obtain ⟨cash, hcash⟩ := Option.isSome_iff_exists.mp ha.2.1
  constructor
  · rintro ⟨b', r, hsync, rfl⟩
    unfold syncFromBroker at hsync
    simp only [Option.bind_eq_bind, Option.bind_eq_some_iff, Option.pure_def,
      Option.some.injEq, Prod.mk.injEq, hparsed] at hsync
    obtain ⟨_, -, _, -, _, rfl, table, htable, _, -, rfl, -⟩ := hsync
    exact htable
  · intro htable
    obtain ⟨prior, hprior⟩ := ha.priorEquity (c.forceSnapshot || decide
      (b.last.map (·.fingerprint) ≠ some (fingerprintOf equity cash parsed)))
    unfold syncFromBroker
    simp only [hequity, hcash, hparsed, htable, hprior, Option.bind_eq_bind, Option.bind_some,
      Option.pure_def]
    exact ⟨_, _, rfl, rfl⟩

/-- The call leaves a row for each holding and no other, and a second call with the same
    positions changes nothing in the rows but times. -/
def Tracked [Casing] (cfg : Settings) (b : Book) (c : SyncCall) (parsed : List ParsedPosition) : Prop :=
  ∃ b' r, syncFromBroker cfg b c = some (b', r) ∧ OneToOne b'.positions.rows parsed ∧
    ∀ c' : SyncCall, c'.account.Readable → c'.positions = c.positions →
      ∃ b'' r', syncFromBroker cfg b' c' = some (b'', r') ∧
        (b''.positions.rows.map PositionRow.timeless).Perm
          (b'.positions.rows.map PositionRow.timeless)

/-- **When the rows mirror the report.** Matchable rows do after every call, and of well kept
    rows no others do. -/
theorem tracked_of_matchable [Casing] {cfg : Settings} {b : Book} {c : SyncCall}
    {parsed : List ParsedPosition} (ha : c.account.Readable)
    (hparsed : parsePositions cfg c.positions = some parsed)
    (hcons : (parsed.filterMap (·.conId)).Nodup)
    (hids : (b.positions.rows.map (·.id)).Nodup) :
    (Matchable b.positions.rows parsed → Tracked cfg b c parsed) ∧
      (WellKept b.positions.rows → Tracked cfg b c parsed → Matchable b.positions.rows parsed) := by
  have hread := read_of_parsePositions hparsed
  constructor
  · intro h
    obtain ⟨table', hsync, hone, htwice⟩ := h.tracked hids hread hcons (c.now b)
    obtain ⟨b', r, hcall, rfl⟩ := (positions_of_sync ha hparsed).mpr hsync
    refine ⟨b', r, hcall, hone, fun c' ha' hsame => ?_⟩
    obtain ⟨table'', hsync', hperm⟩ := htwice (c'.now b')
    obtain ⟨b'', r', hcall', rfl⟩ :=
      (positions_of_sync ha' (hsame ▸ hparsed)).mpr hsync'
    exact ⟨b'', r', hcall', hperm⟩
  · rintro hkept ⟨b', r, hcall, hone, -⟩
    exact matchable_of_oneToOne hkept hids hread hcons
      ((positions_of_sync ha hparsed).mp ⟨b', r, hcall, rfl⟩) hone

end Match

/-! ## A renamed listing -/

section Renamed

attribute [local instance] asciiCasing

def holdingReport (positions : List PositionReport) : SyncCall :=
  { account :=
      { equity := .num 1000, portfolioValue := .null, cash := .num 500, lastEquity := .null,
        longMarketValue := .null, currency := "USD", baseCurrency := "", cashByCurrency := [] },
    positions := positions, forceSnapshot := false, wait := 0 }

def tenShares (symbol : String) : PositionReport :=
  { symbol := symbol, qty := .num 10, marketValue := .num 500, costBasis := .num 400,
    unrealizedPl := .num 100, avgEntryPrice := .num 40, exchange := "NASDAQ", currency := "USD",
    conId := 107113386 }

def tenHeld (symbol : String) : ParsedPosition :=
  { symbol := symbol, quantity := 10, avgEntryPrice := 40, marketValue := 500, costBasis := 400,
    unrealizedPnl := 100, venue := .us, currency := some "USD", exchange := some "NASDAQ",
    conId := some 107113386 }

def fbRow : PositionRow := newPositionRow (tenHeld "FB") 1 0

def fbBook : Book :=
  { positions := ⟨[fbRow], List.nodup_singleton _⟩, snapshots := [], clock := 0 }

theorem holdingReport_readable (positions : List PositionReport) :
    (holdingReport positions).account.Readable :=
  ⟨rfl, rfl, rfl⟩

/-- **A contract under a new symbol.** The broker renames FB to META; the row is found by the
    contract id and keeps the old symbol, so that no row is under the new one. -/
theorem renamed_untracked :
    (holdingReport [tenShares "META"]).account.Readable ∧
      parsePositions mockSettings (holdingReport [tenShares "META"]).positions =
        some [tenHeld "META"] ∧
      ¬ Tracked mockSettings fbBook (holdingReport [tenShares "META"]) [tenHeld "META"] := by
  refine ⟨holdingReport_readable _, by decide +kernel, ?_⟩
  rintro ⟨b', r, hsync, ⟨shown, hperm, hshown⟩, -⟩
  have hold : (syncFromBroker mockSettings fbBook (holdingReport [tenShares "META"])).all
      (fun x => x.1.positions.rows.all (·.symbol = "FB")) = true := by decide +kernel
  rw [hsync, Option.all_some, List.all_eq_true] at hold
  obtain ⟨s, hs, hshows⟩ := forall₂_mem_left hshown List.mem_cons_self
  have hsymbol := of_decide_eq_true (hold s (hperm.mem_iff.mpr hs))
  rw [hshows.symbol] at hsymbol
  exact absurd hsymbol (by decide)

theorem fbRow_matched : rowFor fbBook.positions.rows (tenHeld "FB") = some fbRow := by
  decide +kernel

theorem fbBook_matchable : Matchable fbBook.positions.rows [tenHeld "FB"] := by
  refine ⟨by decide, List.pairwise_singleton _ _, ?_, ?_, ?_⟩
  · simp only [List.forall_mem_singleton, fbRow_matched]
    rintro r ⟨⟩
    exact ⟨rfl, fun h => by cases h⟩
  · simp only [List.forall_mem_singleton, fbRow_matched]
    rintro r ⟨⟩ s hs -
    rw [List.mem_singleton.mp hs]
  · intro r hr hnone
    rw [List.mem_singleton.mp hr] at hnone
    exact absurd fbRow_matched (hnone _ List.mem_cons_self)

/-- Under its old symbol the row is the holding's own. -/
theorem unrenamed_tracked :
    Matchable fbBook.positions.rows [tenHeld "FB"] ∧
      Tracked mockSettings fbBook (holdingReport [tenShares "FB"]) [tenHeld "FB"] :=
  ⟨fbBook_matchable, (tracked_of_matchable (holdingReport_readable _) (by decide +kernel)
    (by decide) (by decide)).1 fbBook_matchable⟩

end Renamed

end Investor.Execution.PositionSync
