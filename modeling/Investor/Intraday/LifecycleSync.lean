import Investor.Intraday.Lifecycles
import Investor.Lib.Upsert

/-!
# Which lifecycle a holding is written to

The broker sync writes each holding to the active lifecycle of its contract id, else to that of
its symbol and venue, and closes by symbol and venue what the list does not have. The lifecycles
then mirror the list exactly when the two searches give each holding a lifecycle of its own
(`Matchable`): one under the holding's symbol, which no update rewrites, and one that no other
holding comes to.

A holding is searched for among lifecycles that earlier holdings of the list have rewritten.
What they rewrote answers to their contract ids and listings, so that it is found for no other
holding, and the lifecycle of a holding is known before the loop (`foldl_ensure`).
-/

namespace Investor.Intraday

open Lib Market Execution

section Match

variable {stop : Lifecycle → Option ℚ} {rows : List Lifecycle} {ps : List Holding}
  {r s : Lifecycle} {p q : Holding}

/-! ## What an update leaves -/

section Stamp

variable (stop r)

@[simp] theorem id_stamp : (stampHorizonStop stop r).id = r.id := by
  unfold stampHorizonStop
  split <;> rfl

@[simp] theorem symbol_stamp : (stampHorizonStop stop r).symbol = r.symbol := by
  unfold stampHorizonStop
  split <;> rfl

@[simp] theorem status_stamp : (stampHorizonStop stop r).status = r.status := by
  unfold stampHorizonStop
  split <;> rfl

@[simp] theorem quantity_stamp : (stampHorizonStop stop r).quantity = r.quantity := by
  unfold stampHorizonStop
  split <;> rfl

@[simp] theorem venue_stamp : (stampHorizonStop stop r).venue = r.venue := by
  unfold stampHorizonStop
  split <;> rfl

@[simp] theorem conId_stamp : (stampHorizonStop stop r).conId = r.conId := by
  unfold stampHorizonStop
  split <;> rfl

variable (p : Holding)

@[simp] theorem id_update : (updateLifecycle stop r p).id = r.id := by
  simp [updateLifecycle]

@[simp] theorem symbol_update : (updateLifecycle stop r p).symbol = r.symbol := by
  simp [updateLifecycle]

@[simp] theorem quantity_update : (updateLifecycle stop r p).quantity = p.quantity := by
  simp [updateLifecycle]

@[simp] theorem venue_update : (updateLifecycle stop r p).venue = p.venue.value := by
  simp [updateLifecycle]

@[simp] theorem conId_update :
    (updateLifecycle stop r p).conId = p.conId.orElse fun _ => r.conId := by
  simp [updateLifecycle]

theorem status_update : (updateLifecycle stop r p).status =
    if r.status = .pendingClose ∧ 0 < p.quantity then .open else r.status := by
  simp [updateLifecycle]

end Stamp

@[simp] theorem isActive_update :
    (updateLifecycle stop r p).status.isActive = r.status.isActive := by
  rw [status_update]
  split
  · rename_i h
    rw [h.1]
    rfl
  · rfl

/-! ## The loop, as upserts -/

section

variable [Casing]

section New

variable (stop) (id : ℕ) (p)

@[simp] theorem id_new : (newLifecycle stop id p).id = id := by
  simp [newLifecycle]

@[simp] theorem symbol_new : (newLifecycle stop id p).symbol = Casing.upper p.symbol := by
  simp [newLifecycle]

@[simp] theorem status_new : (newLifecycle stop id p).status = .open := by
  simp [newLifecycle]

@[simp] theorem quantity_new : (newLifecycle stop id p).quantity = p.quantity := by
  simp [newLifecycle]

@[simp] theorem venue_new : (newLifecycle stop id p).venue = p.venue.value := by
  simp [newLifecycle]

@[simp] theorem conId_new : (newLifecycle stop id p).conId = p.conId := by
  simp [newLifecycle]

end New

theorem id_fresh (rows : List Lifecycle) (p : Holding) :
    (newLifecycle stop (freshLifecycleId rows) p).id ∉ rows.map (·.id) := by
  rw [id_new]
  exact foldl_max_succ_notMem _

def writes (stop : Lifecycle → Option ℚ) : Upsert Lifecycle Holding ℕ :=
  { id := Lifecycle.id
    edit := updateLifecycle stop
    fresh := fun rows p => newLifecycle stop (freshLifecycleId rows) p
    id_edit := id_update stop
    id_fresh := id_fresh }

def targetIn (rows : List Lifecycle) (p : Holding) : Option ℕ := (existing rows p).map (·.id)

theorem ensure_eq (rows : List Lifecycle) (p : Holding) :
    ensureLifecycleFromBroker stop rows p = (writes stop).apply (targetIn rows) rows p := by
  unfold ensureLifecycleFromBroker Upsert.apply targetIn
  cases existing rows p <;> rfl

/-! ## What a search finds -/

def Lifecycle.listing (r : Lifecycle) : String × String := (r.symbol, r.venue)

def OfContract (rows : List Lifecycle) (p : Holding) : Prop :=
  ∃ c, p.conId = some c ∧ byConId rows c ≠ none

def Holding.Read (p : Holding) : Prop := Casing.upper p.symbol = p.symbol

end

theorem byConId_some {c : Int} (h : byConId rows c = some r) :
    r ∈ rows ∧ r.conId = some c ∧ r.status.isActive :=
  ⟨List.mem_of_find?_eq_some h, by simpa using List.find?_some h⟩

theorem byConId_none {c : Int} (h : byConId rows c = none) (hr : r ∈ rows)
    (hactive : r.status.isActive) : r.conId ≠ some c := by
  intro hc
  exact List.find?_eq_none.mp h r hr (by simp [hc, hactive])

section

variable [Casing]

theorem byListing_some (hp : p.Read) (h : byListing rows p.symbol p.venue.value = some r) :
    r ∈ rows ∧ r.listing = p.listing ∧ r.status.isActive := by
  have hr := List.find?_some h
  rw [hp, decide_eq_true_eq] at hr
  exact ⟨List.mem_of_find?_eq_some h, Prod.ext hr.1 hr.2.1, hr.2.2⟩

theorem byListing_none (hp : p.Read) (h : byListing rows p.symbol p.venue.value = none)
    (hr : r ∈ rows) (hactive : r.status.isActive) : r.listing ≠ p.listing := by
  intro hl
  obtain ⟨hsymbol, hvenue⟩ := Prod.mk.inj hl
  exact List.find?_eq_none.mp h r hr (by simp [hp.trans hsymbol.symm, hvenue, hactive])

theorem existing_of_contract {c : Int} (hc : p.conId = some c) (h : byConId rows c = some r) :
    existing rows p = some r := by
  simp [existing, hc, h]

theorem existing_of_not_contract (h : ¬ OfContract rows p) :
    existing rows p = byListing rows p.symbol p.venue.value := by
  unfold existing
  cases hc : p.conId with
  | none => rfl
  | some c =>
    have hnone : byConId rows c = none := by
      by_contra hne
      exact h ⟨c, hc, hne⟩
    rw [Option.bind_some, hnone]
    rfl

theorem existing_cases (hp : p.Read) (h : existing rows p = some r) :
    r ∈ rows ∧ r.status.isActive ∧
      ((p.conId ≠ none ∧ r.conId = p.conId) ∨ (¬ OfContract rows p ∧ r.listing = p.listing)) := by
  by_cases hcontract : OfContract rows p
  · obtain ⟨c, hc, hne⟩ := hcontract
    obtain ⟨s, hs⟩ := Option.ne_none_iff_exists'.mp hne
    rw [existing_of_contract hc hs] at h
    cases h
    obtain ⟨hmem, hcon, hactive⟩ := byConId_some hs
    exact ⟨hmem, hactive, Or.inl ⟨by simp [hc], hcon.trans hc.symm⟩⟩
  · rw [existing_of_not_contract hcontract] at h
    obtain ⟨hmem, hlisting, hactive⟩ := byListing_some hp h
    exact ⟨hmem, hactive, Or.inr ⟨hcontract, hlisting⟩⟩

theorem existing_none (hp : p.Read) (h : existing rows p = none) (hr : r ∈ rows)
    (hactive : r.status.isActive) :
    ¬ OfContract rows p ∧ r.listing ≠ p.listing := by
  have hcontract : ¬ OfContract rows p := by
    rintro ⟨c, hc, hne⟩
    obtain ⟨s, hs⟩ := Option.ne_none_iff_exists'.mp hne
    rw [existing_of_contract hc hs] at h
    cases h
  rw [existing_of_not_contract hcontract] at h
  exact ⟨hcontract, byListing_none hp h hr hactive⟩

theorem mem_of_existing (hp : p.Read) (h : existing rows p = some r) : r ∈ rows :=
  (existing_cases hp h).1

theorem target_eq_some (hids : (rows.map (·.id)).Nodup) (hp : p.Read) (hr : r ∈ rows) :
    targetIn rows p = some r.id ↔ existing rows p = some r := by
  unfold targetIn
  constructor
  · intro h
    obtain ⟨s, hs, hid⟩ := Option.map_eq_some_iff.mp h
    rw [hs, List.inj_on_of_nodup_map hids (mem_of_existing hp hs) hr hid]
  · intro h
    rw [h]
    rfl

theorem target_hits (hread : ∀ p ∈ ps, p.Read) :
    ∀ p ∈ ps, ∀ i, targetIn rows p = some i → i ∈ rows.map (writes stop).id := by
  intro p hp i hi
  obtain ⟨r, hr, rfl⟩ := Option.map_eq_some_iff.mp hi
  exact List.mem_map_of_mem (mem_of_existing (hread p hp) hr)

/-! ## Holdings that are matched apart -/

/-- The contract ids of the list are distinct, and the listings of the holdings without one. -/
def Distinct (ps : List Holding) : Prop :=
  ps.Pairwise fun p q => p.conId = q.conId → p.conId = none ∧ p.listing ≠ q.listing

/-- A lifecycle that comes to show the holding when it is written to it. -/
structure Suits (r : Lifecycle) (p : Holding) : Prop where
  symbol : r.symbol = p.symbol
  conId : p.conId = none → r.conId = none
  reopens : r.status = .pendingClose → 0 < p.quantity

/-- Each holding has a lifecycle of its own, or gets one. -/
structure Matched (rows : List Lifecycle) (ps : List Holding) : Prop where
  listed : ps.Pairwise fun p q => p.listing = q.listing → OfContract rows p ∧ OfContract rows q
  apart : ps.Pairwise fun p q => ∀ r, existing rows p = some r → existing rows q ≠ some r
  suits : ∀ p ∈ ps, ∀ r, existing rows p = some r → Suits r p

theorem Matched.target_apart (h : Matched rows ps) (hids : (rows.map (·.id)).Nodup)
    (hread : ∀ p ∈ ps, p.Read) :
    ps.Pairwise fun p q => ∀ i, targetIn rows p = some i → targetIn rows q ≠ some i := by
  refine h.apart.imp_of_mem fun {p q} hp hq hpq i hi hi' => ?_
  obtain ⟨r, hr, rfl⟩ := Option.map_eq_some_iff.mp hi
  exact hpq r hr ((target_eq_some hids (hread q hq) (mem_of_existing (hread p hp) hr)).mp hi')

theorem Matched.front {xs : List Holding} (h : Matched rows (xs ++ ps)) : Matched rows xs :=
  ⟨(List.pairwise_append.mp h.listed).1, (List.pairwise_append.mp h.apart).1,
    fun p hp => h.suits p (List.mem_append_left _ hp)⟩

/-- The table after some holdings, each written to the lifecycle it had before the loop. -/
abbrev written (stop : Lifecycle → Option ℚ) (rows : List Lifecycle) (ps : List Holding) :
    List Lifecycle :=
  (writes stop).applyAll (targetIn rows) rows ps

section After

variable {xs : List Holding} (hids : (rows.map (·.id)).Nodup) (hread : ∀ p ∈ xs ++ [q], p.Read)
  (hdist : Distinct (xs ++ [q])) (hm : Matched rows (xs ++ [q]))

include hids hread hdist hm

theorem byConId_written {c : Int} (hc : q.conId = some c) :
    byConId (written stop rows xs) c = byConId rows c := by
  have hreadx : ∀ p ∈ xs, p.Read := fun p hp => hread p (List.mem_append_left _ hp)
  have hne : ∀ p ∈ xs, p.conId ≠ some c := by
    intro p hp hpc
    have hpq := (List.pairwise_append.mp hdist).2.2 p hp q (by simp) (hpc.trans hc.symm)
    rw [hpq.1] at hpc
    cases hpc
  refine Upsert.find?_applyAll (target_hits hreadx) (hm.front.target_apart hids hreadx) ?_ ?_ ?_
  · intro r hr p hp _ hfound
    have hwritten : (p.conId = some c ∨ p.conId = none ∧ r.conId = some c) ∧
        r.status.isActive := by
      simpa [writes] using hfound
    rcases hwritten.1 with hpc | ⟨-, hrc⟩
    · exact absurd hpc (hne p hp)
    · simp [hrc, hwritten.2]
  · intro p hp _ before hfound
    have hconId : p.conId = some c ∧ LifecycleStatus.open.isActive := by
      simpa [writes] using hfound
    exact hne p hp hconId.1
  · intro r hr p hp htarget
    have hq := existing_of_contract hc hr
    have hmem := (byConId_some hr).1
    exact (List.pairwise_append.mp hm.apart).2.2 p hp q (by simp) r
      ((target_eq_some hids (hreadx p hp) hmem).mp htarget) hq

omit hdist in
theorem byListing_written (hcontract : ¬ OfContract rows q) :
    byListing (written stop rows xs) q.symbol q.venue.value =
      byListing rows q.symbol q.venue.value := by
  have hreadx : ∀ p ∈ xs, p.Read := fun p hp => hread p (List.mem_append_left _ hp)
  have hq : q.Read := hread q (by simp)
  have hne : ∀ p ∈ xs, p.listing ≠ q.listing := fun p hp heq =>
    hcontract ((List.pairwise_append.mp hm.listed).2.2 p hp q (by simp) heq).2
  refine Upsert.find?_applyAll (target_hits hreadx) (hm.front.target_apart hids hreadx) ?_ ?_ ?_
  · intro r hr p hp htarget hfound
    have hr' := (target_eq_some hids (hreadx p hp) hr).mp htarget
    have hsymbol := (hm.suits p (List.mem_append_left _ hp) r hr').symbol
    have hwritten : r.symbol = Casing.upper q.symbol ∧ p.venue.value = q.venue.value ∧
        r.status.isActive := by
      simpa [writes] using hfound
    refine absurd (Prod.ext ?_ hwritten.2.1) (hne p hp)
    show p.symbol = q.symbol
    rw [← hsymbol, hwritten.1, hq]
  · intro p hp _ before hfound
    have hmade : Casing.upper p.symbol = Casing.upper q.symbol ∧
        p.venue.value = q.venue.value ∧ LifecycleStatus.open.isActive := by
      simpa [writes] using hfound
    refine hne p hp (Prod.ext ?_ hmade.2.1)
    show p.symbol = q.symbol
    rw [← hreadx p hp, hmade.1, hq]
  · intro r hr p hp htarget
    have hmem := (byListing_some hq hr).1
    exact (List.pairwise_append.mp hm.apart).2.2 p hp q (by simp) r
      ((target_eq_some hids (hreadx p hp) hmem).mp htarget)
      ((existing_of_not_contract hcontract).trans hr)

theorem existing_written : existing (written stop rows xs) q = existing rows q := by
  by_cases hcontract : OfContract rows q
  · obtain ⟨c, hc, hne⟩ := hcontract
    obtain ⟨r, hr⟩ := Option.ne_none_iff_exists'.mp hne
    rw [existing_of_contract hc hr, existing_of_contract hc]
    rw [byConId_written hids hread hdist hm hc, hr]
  · have hafter : ¬ OfContract (written stop rows xs) q := by
      rintro ⟨c, hc, hne⟩
      rw [byConId_written hids hread hdist hm hc] at hne
      exact hcontract ⟨c, hc, hne⟩
    rw [existing_of_not_contract hcontract, existing_of_not_contract hafter,
      byListing_written hids hread hm hcontract]

end After

theorem foldl_ensure (hids : (rows.map (·.id)).Nodup) (hread : ∀ p ∈ ps, p.Read)
    (hdist : Distinct ps) (hm : Matched rows ps) :
    ps.foldl (ensureLifecycleFromBroker stop) rows = written stop rows ps := by
  induction ps using List.reverseRecOn with
  | nil => rfl
  | append_singleton ps p ih =>
    have hbefore := ih (fun q hq => hread q (List.mem_append_left _ hq))
      (List.pairwise_append.mp hdist).1 hm.front
    have htarget : targetIn (written stop rows ps) p = targetIn rows p := by
      unfold targetIn
      rw [existing_written hids hread hdist hm]
    rw [List.foldl_concat, hbefore, ensure_eq]
    refine Eq.trans ?_ Upsert.applyAll_concat.symm
    unfold Upsert.apply
    rw [htarget]

/-! ## Lifecycles that mirror the list -/

structure Carries (r : Lifecycle) (p : Holding) : Prop where
  symbol : r.symbol = p.symbol
  venue : r.venue = p.venue.value
  conId : r.conId = p.conId
  quantity : r.quantity = p.quantity
  active : r.status.isActive
  notClosing : r.status ≠ .pendingClose

/-- One active lifecycle for each holding, and every other closed and empty. -/
structure Mirrors (rows : List Lifecycle) (ps : List Holding) : Prop where
  oneToOne : ∃ shown, (rows.filter (·.status.isActive)).Perm shown ∧ List.Forall₂ Carries shown ps
  closed : ∀ r ∈ rows, ¬ r.status.isActive → r.status = .closed ∧ r.quantity = 0

/-- Holdings are matched apart, and what is left of the lifecycles is closed for good. -/
structure Matchable (rows : List Lifecycle) (ps : List Holding) : Prop extends
    Matched rows ps where
  left : ∀ r ∈ rows, r.status.isActive → (∀ p ∈ ps, existing rows p ≠ some r) →
    r.heldKey ∉ ps.map Holding.listing
  flat : ∀ r ∈ rows, ¬ r.status.isActive → r.quantity = 0

end

theorem Carries.listing (h : Carries r p) : r.listing = p.listing := Prod.ext h.symbol h.venue

theorem Carries.heldKey [Casing] (h : Carries r p) (hp : p.Read) : r.heldKey = p.listing := by
  unfold Lifecycle.heldKey Holding.listing
  rw [h.symbol, h.venue, hp, venueText_value]

theorem isFlat_iff [Casing] {held : List (String × String)} :
    isFlat held r ↔ r.status.isActive ∧ r.heldKey ∉ held := by
  simp [isFlat]

theorem Carries.not_isFlat [Casing] (h : Carries r p) (hp : p.Read) (hmem : p ∈ ps) :
    ¬ isFlat (ps.map Holding.listing) r := by
  rw [isFlat_iff, h.heldKey hp]
  exact fun hflat => hflat.2 (List.mem_map_of_mem hmem)

theorem closeFlat_of_not [Casing] {held : List (String × String)} (h : ¬ isFlat held r) :
    closeFlat held r = r :=
  if_neg h

theorem carries_update (h : Suits r p) (hactive : r.status.isActive) :
    Carries (updateLifecycle stop r p) p := by
  refine ⟨(symbol_update ..).trans h.symbol, venue_update .., ?_, quantity_update .., ?_, ?_⟩
  · rw [conId_update]
    cases hc : p.conId with
    | none => exact h.conId hc
    | some c => rfl
  · rw [isActive_update, hactive]
  · rw [status_update]
    by_cases hclosing : r.status = .pendingClose
    · rw [if_pos ⟨hclosing, h.reopens hclosing⟩]
      decide
    · rwa [if_neg fun hand => hclosing hand.1]

theorem carries_new [Casing] (hp : p.Read) (id : ℕ) : Carries (newLifecycle stop id p) p :=
  ⟨(symbol_new ..).trans hp, venue_new .., conId_new .., quantity_new ..,
    by rw [status_new]; rfl, by rw [status_new]; decide⟩

theorem Matched.carries [Casing] (hm : Matched rows ps) (hids : (rows.map (·.id)).Nodup) (hp : p.Read)
    (hmem : p ∈ ps) (h : (writes stop).Wrote (targetIn rows) rows p r) : Carries r p := by
  cases h with
  | edited r₀ mem has =>
    have hr₀ := (target_eq_some hids hp mem).mp has
    exact carries_update (hm.suits p hmem r₀ hr₀) (existing_cases hp hr₀).2.1
  | made before has new => exact carries_new hp _

/-- One sync of matchable holdings mirrors them. -/
theorem Matchable.mirrors [Casing] (h : Matchable rows ps) (hids : (rows.map (·.id)).Nodup)
    (hread : ∀ p ∈ ps, p.Read) (hdist : Distinct ps) : Mirrors (syncRows stop rows ps).1 ps := by
  have hm := h.toMatched
  obtain ⟨wrote, hwrote, hperm⟩ := Upsert.applyAll_perm (u := writes stop) hids
    (target_hits hread) (hm.target_apart hids hread)
  have hcarries : ∀ w ∈ wrote, ∃ p ∈ ps, Carries w p := by
    intro w hw
    obtain ⟨p, hp, hwp⟩ := forall₂_mem_right hwrote hw
    exact ⟨p, hp, hm.carries hids (hread p hp) hp hwp⟩
  have hkeep : wrote.map (closeFlat (ps.map Holding.listing)) = wrote := by
    refine (List.map_congr_left fun w hw => ?_).trans (List.map_id wrote)
    obtain ⟨p, hp, hwp⟩ := hcarries w hw
    exact closeFlat_of_not (hwp.not_isFlat (hread p hp) hp)
  -- what no holding is matched to is closed, or was
  have hclosed : ∀ r ∈ (writes stop).untouched (targetIn rows) rows ps,
      (closeFlat (ps.map Holding.listing) r).status = .closed ∧
        (closeFlat (ps.map Holding.listing) r).quantity = 0 := by
    intro r hr
    obtain ⟨hr, hfree⟩ := Upsert.mem_untouched.mp hr
    by_cases hactive : r.status.isActive
    · have hflat : isFlat (ps.map Holding.listing) r := by
        refine isFlat_iff.mpr ⟨hactive, h.left r hr hactive fun p hp hfound => ?_⟩
        exact hfree p hp ((target_eq_some hids (hread p hp) hr).mpr hfound)
      rw [closeFlat, if_pos hflat]
      exact ⟨rfl, rfl⟩
    · rw [closeFlat_of_not fun hflat => hactive (isFlat_iff.mp hflat).1]
      exact ⟨LifecycleStatus.eq_closed_of_not_isActive (Bool.not_eq_true _ ▸ hactive),
        h.flat r hr hactive⟩
  have hafter : (syncRows stop rows ps).1.Perm
      (((writes stop).untouched (targetIn rows) rows ps).map
        (closeFlat (ps.map Holding.listing)) ++ wrote) := by
    have hmap := hperm.map (closeFlat (ps.map Holding.listing))
    rw [List.map_append, hkeep] at hmap
    show ((ps.foldl _ rows).map _).Perm _
    rwa [foldl_ensure hids hread hdist hm]
  refine ⟨⟨wrote, ?_, ?_⟩, ?_⟩
  · refine (hafter.filter _).trans ?_
    rw [List.filter_append, List.filter_eq_nil_iff.mpr, List.nil_append, List.filter_eq_self.mpr]
    · intro w hw
      obtain ⟨p, -, hwp⟩ := hcarries w hw
      exact hwp.active
    · intro r hr
      obtain ⟨r₀, hr₀, rfl⟩ := List.mem_map.mp hr
      rw [(hclosed r₀ hr₀).1]
      decide
  · refine ((forall₂_mem hwrote).imp ?_).flip
    rintro p w ⟨hwp, hp, -⟩
    exact hm.carries hids (hread p hp) hp hwp
  · intro r hr hactive
    rcases List.mem_append.mp (hafter.mem_iff.mp hr) with hr | hr
    · obtain ⟨r₀, hr₀, rfl⟩ := List.mem_map.mp hr
      exact hclosed r₀ hr₀
    · obtain ⟨p, -, hwp⟩ := hcarries r hr
      exact absurd hwp.active hactive

/-! ## A second sync -/

theorem Mirrors.carries_of_active (hmirrors : Mirrors rows ps) (hr : r ∈ rows)
    (hactive : r.status.isActive) : ∃ p ∈ ps, Carries r p := by
  obtain ⟨shown, hperm, hshown⟩ := hmirrors.oneToOne
  exact forall₂_mem_left hshown (hperm.mem_iff.mp (List.mem_filter.mpr ⟨hr, hactive⟩))

theorem Mirrors.shown (hmirrors : Mirrors rows ps) (hp : p ∈ ps) : ∃ r ∈ rows, Carries r p := by
  obtain ⟨shown, hperm, hshown⟩ := hmirrors.oneToOne
  obtain ⟨r, hr, hrp⟩ := forall₂_mem_right hshown hp
  exact ⟨r, (List.mem_filter.mp (hperm.mem_iff.mpr hr)).1, hrp⟩

theorem Distinct.eq (hdist : Distinct ps) (hp : p ∈ ps) (hq : q ∈ ps) (hcon : p.conId = q.conId)
    (hlisting : p.conId = none → p.listing = q.listing) : p = q := by
  have hsymm : Std.Symm fun p q : Holding =>
      p.conId = q.conId → p.conId = none ∧ p.listing ≠ q.listing :=
    ⟨fun a b hab hba => ⟨hba.trans (hab hba.symm).1, Ne.symm (hab hba.symm).2⟩⟩
  by_contra hne
  obtain ⟨hnone, hapart⟩ := List.Pairwise.forall hdist hp hq hne hcon
  exact hapart (hlisting hnone)

section Again

variable [Casing] (hids : (rows.map (·.id)).Nodup) (hread : ∀ p ∈ ps, p.Read)
  (hdist : Distinct ps) (hmirrors : Mirrors rows ps)

include hdist hread hmirrors in
theorem Mirrors.finds (hlisted : ∀ q ∈ ps, p.conId = none → p.listing = q.listing → p = q)
    (hp : p ∈ ps) : ∃ r ∈ rows, existing rows p = some r ∧ Carries r p := by
  obtain ⟨w, hw, hwp⟩ := hmirrors.shown hp
  have hsome : existing rows p ≠ none := by
    intro hnone
    obtain ⟨hcontract, hlisting⟩ := existing_none (hread p hp) hnone hw hwp.active
    exact hlisting hwp.listing
  obtain ⟨r, hr⟩ := Option.ne_none_iff_exists'.mp hsome
  obtain ⟨hmem, hactive, hfound⟩ := existing_cases (hread p hp) hr
  obtain ⟨q, hq, hrq⟩ := hmirrors.carries_of_active hmem hactive
  refine ⟨r, hmem, hr, ?_⟩
  suffices hpq : p = q from hpq ▸ hrq
  rcases hfound with ⟨hne, hcon⟩ | ⟨hcontract, hlisting⟩
  · exact hdist.eq hp hq (hcon.symm.trans hrq.conId) fun hnone => absurd hnone hne
  · cases hpc : p.conId with
    | none => exact hlisted q hq hpc (hlisting.symm.trans hrq.listing)
    | some c =>
      refine absurd ⟨c, hpc, fun hnone => ?_⟩ hcontract
      exact byConId_none hnone hw hwp.active (hwp.conId.trans hpc)

include hdist hread hmirrors in
theorem Mirrors.all_found (hlisted : ps.Pairwise fun p q =>
      p.listing = q.listing → p.conId ≠ none ∧ q.conId ≠ none) :
    ∀ p ∈ ps, ∃ r ∈ rows, existing rows p = some r ∧ Carries r p := by
  have hsymm : Std.Symm fun p q : Holding =>
      p.listing = q.listing → p.conId ≠ none ∧ q.conId ≠ none :=
    ⟨fun a b hab hba => (hab hba.symm).symm⟩
  refine fun p hp => hmirrors.finds hread hdist (fun q hq hnone heq => ?_) hp
  by_contra hne
  exact (List.Pairwise.forall hlisted hp hq hne heq).1 hnone

include hdist hread hmirrors in
theorem Mirrors.matched (hlisted : ps.Pairwise fun p q =>
      p.listing = q.listing → p.conId ≠ none ∧ q.conId ≠ none) : Matched rows ps := by
  have hfound := hmirrors.all_found hread hdist hlisted
  refine ⟨hlisted.imp_of_mem fun {p q} hp hq hpq heq => ?_, ?_, ?_⟩
  · have hof : ∀ p ∈ ps, p.conId ≠ none → OfContract rows p := by
      intro p hp hne
      obtain ⟨c, hc⟩ := Option.ne_none_iff_exists'.mp hne
      obtain ⟨w, hw, hwp⟩ := hmirrors.shown hp
      exact ⟨c, hc, fun hnone => byConId_none hnone hw hwp.active (hwp.conId.trans hc)⟩
    exact ⟨hof p hp (hpq heq).1, hof q hq (hpq heq).2⟩
  · refine hdist.imp_of_mem fun {p q} hp hq hpq r hr hr' => ?_
    obtain ⟨s, -, hs, hsp⟩ := hfound p hp
    obtain ⟨s', -, hs', hsq⟩ := hfound q hq
    rw [hr] at hs
    rw [hr'] at hs'
    cases hs
    cases hs'
    exact (hpq (hsp.conId.symm.trans hsq.conId)).2 (hsp.listing.symm.trans hsq.listing)
  · intro p hp r hr
    obtain ⟨s, -, hs, hsp⟩ := hfound p hp
    rw [hr] at hs
    cases hs
    exact ⟨hsp.symbol, fun hnone => hsp.conId.trans hnone, fun h => absurd h hsp.notClosing⟩

include hids hread hdist hmirrors in
/-- A second sync of the same holdings changes no status. -/
theorem Mirrors.again (hlisted : ps.Pairwise fun p q =>
      p.listing = q.listing → p.conId ≠ none ∧ q.conId ≠ none) :
    (syncRows stop rows ps).2.closed = 0 ∧
      (syncRows stop rows ps).1.map (fun r => (r.id, r.status)) =
        rows.map (fun r => (r.id, r.status)) := by
  have hfound := hmirrors.all_found hread hdist hlisted
  have hm := hmirrors.matched hread hdist hlisted
  obtain ⟨olds, news, heq, holds, hnews⟩ := Upsert.applyAll_split (u := writes stop)
    (target_hits hread) (hm.target_apart hids hread)
  have hnil : news = [] := by
    refine List.eq_nil_iff_forall_not_mem.mpr fun n hn => ?_
    obtain ⟨-, p, hp, hnone, -⟩ := hnews n hn
    obtain ⟨r, hr, hfind, -⟩ := hfound p hp
    rw [(target_eq_some hids (hread p hp) hr).mpr hfind] at hnone
    cases hnone
  have hloop : ps.foldl (ensureLifecycleFromBroker stop) rows = olds := by
    rw [foldl_ensure hids hread hdist hm, written, heq, hnil, List.append_nil]
  -- a lifecycle keeps its status, and stays among what is held
  have hkeeps : List.Forall₂ (fun r r' => (r.id, r.status) = (r'.id, r'.status) ∧
      ¬ isFlat (ps.map Holding.listing) r') rows olds := by
    refine (forall₂_mem holds).imp ?_
    rintro r r' ⟨hr, hmem, -⟩
    cases hr with
    | same free =>
      refine ⟨rfl, fun hflat => ?_⟩
      obtain ⟨p, hp, hrp⟩ := hmirrors.carries_of_active hmem (isFlat_iff.mp hflat).1
      exact hrp.not_isFlat (hread p hp) hp hflat
    | edited p hp has =>
      have hexists := (target_eq_some hids (hread p hp) hmem).mp has
      obtain ⟨s, -, hs, hsp⟩ := hfound p hp
      rw [hexists] at hs
      cases hs
      have hsuits := hm.suits p hp r hexists
      refine ⟨?_, (carries_update hsuits hsp.active).not_isFlat (hread p hp) hp⟩
      refine Prod.ext (id_update ..).symm ?_
      show r.status = (updateLifecycle stop r p).status
      rw [status_update, if_neg fun h => hsp.notClosing h.1]
  have hall : ∀ r' ∈ olds, ¬ isFlat (ps.map Holding.listing) r' := by
    intro r' hr'
    obtain ⟨r, -, -, hnot⟩ := forall₂_mem_right hkeeps hr'
    exact hnot
  unfold syncRows
  rw [hloop]
  constructor
  · exact List.length_eq_zero_iff.mpr (List.filter_eq_nil_iff.mpr hall)
  · have hsame : olds.map (closeFlat (ps.map Holding.listing)) = olds :=
      (List.map_congr_left fun r hr => closeFlat_of_not (hall r hr)).trans (List.map_id olds)
    dsimp only
    rw [hsame, eq_comm, ← List.forall₂_eq_eq_eq, List.forall₂_map_left_iff,
      List.forall₂_map_right_iff]
    exact hkeeps.imp fun r r' h => h.1

end Again

end Match

end Investor.Intraday
