import Investor.Intraday.LifecycleSync

/-!
# When the lifecycles track the broker

That holdings are matched apart is enough for the lifecycles to mirror the list. Here it is
shown to be needed too, on a table as the sync keeps it (`WellKept`). The holdings are added one
by one: as long as each of them is shown at the end, the one written last found a lifecycle that
no holding before it had, and found it where it was before the loop.

One invariant holds of every table: no two active lifecycles come to have one contract id
(`named_foldl`), so that no flush of the loop meets the unique index on it.
-/

namespace Investor.Intraday

open Lib Market Execution

section Match

variable {stop : Lifecycle → Option ℚ} {rows : List Lifecycle} {ps : List Holding}
  {r s : Lifecycle} {p q : Holding}

/-! ## One round of the loop -/

section

variable [Casing]

/-- What a holding leaves in place of a lifecycle, or adds. -/
inductive WrittenBy (stop : Lifecycle → Option ℚ) (rows : List Lifecycle) (q : Holding) :
    Lifecycle → Prop
  | edited (s : Lifecycle) (found : existing rows q = some s) :
      WrittenBy stop rows q (updateLifecycle stop s q)
  | made (none : existing rows q = none) :
      WrittenBy stop rows q (newLifecycle stop (freshLifecycleId rows) q)

theorem ids_foldl (hids : (rows.map (·.id)).Nodup) :
    ((ps.foldl (ensureLifecycleFromBroker stop) rows).map (·.id)).Nodup := by
  induction ps using List.reverseRecOn with
  | nil => exact hids
  | append_singleton ps p ih =>
    rw [List.foldl_concat, ensure_eq]
    exact @Upsert.nodup_ids_applyAll _ _ _ (writes stop) _ _ [p] _ ih

theorem mem_ensure (hids : (rows.map (·.id)).Nodup) (hq : q.Read)
    (h : r ∈ ensureLifecycleFromBroker stop rows q) :
    (r ∈ rows ∧ existing rows q ≠ some r) ∨ WrittenBy stop rows q r := by
  cases hfound : existing rows q with
  | none =>
    simp only [ensureLifecycleFromBroker, hfound] at h
    rcases List.mem_append.mp h with h | h
    · exact Or.inl ⟨h, by simp⟩
    · rw [List.mem_singleton.mp h]
      exact Or.inr (.made hfound)
  | some s =>
    simp only [ensureLifecycleFromBroker, hfound] at h
    obtain ⟨x, hx, rfl⟩ := List.mem_map.mp h
    by_cases hxs : x.id = s.id
    · have heq : x = s := List.inj_on_of_nodup_map hids hx (mem_of_existing hq hfound) hxs
      rw [if_pos hxs, heq]
      exact Or.inr (.edited s hfound)
    · rw [if_neg hxs]
      refine Or.inl ⟨hx, ?_⟩
      rintro ⟨⟩
      exact hxs rfl

theorem WrittenBy.spec (hq : q.Read) (h : WrittenBy stop rows q r) :
    r.status.isActive ∧ r.venue = q.venue.value ∧ (q.conId ≠ none → r.conId = q.conId) ∧
      (q.conId = none → r.symbol = q.symbol) := by
  cases h with
  | edited s found =>
    obtain ⟨-, hactive, hcase⟩ := existing_cases hq found
    refine ⟨by rw [isActive_update, hactive], venue_update .., ?_, ?_⟩
    · intro hne
      obtain ⟨c, hc⟩ := Option.ne_none_iff_exists'.mp hne
      simp [hc]
    · intro hnone
      rw [symbol_update]
      rcases hcase with ⟨hne, -⟩ | ⟨-, hlisting⟩
      · exact absurd hnone hne
      · exact (Prod.mk.inj hlisting).1
  | made none =>
    exact ⟨by rw [status_new]; rfl, venue_new .., fun _ => conId_new ..,
      fun _ => (symbol_new ..).trans hq⟩

def Named (rows : List Lifecycle) : Prop :=
  ∀ r ∈ rows, ∀ s ∈ rows, r.status.isActive → s.status.isActive → r.conId ≠ none →
    r.conId = s.conId → r = s

theorem WrittenBy.named (hnamed : Named rows) (hq : q.Read) (h : WrittenBy stop rows q r)
    (hs : s ∈ rows) (hfree : existing rows q ≠ some s) (hactive : s.status.isActive)
    (hne : r.conId ≠ none) : r.conId ≠ s.conId := by
  intro heq
  cases hqc : q.conId with
  | some c =>
    have hsc : s.conId = some c := by
      rw [← heq, (h.spec hq).2.2.1 (by simp [hqc]), hqc]
    cases hfound : byConId rows c with
    | none => exact byConId_none hfound hs hactive hsc
    | some x =>
      obtain ⟨hx, hxc, hxactive⟩ := byConId_some hfound
      have hxs : x = s := hnamed x hx s hs hxactive hactive (by simp [hxc]) (hxc.trans hsc.symm)
      exact hfree (hxs ▸ existing_of_contract hqc hfound)
  | none =>
    cases h with
    | edited x found =>
      obtain ⟨hx, hxactive, -⟩ := existing_cases hq found
      have hcon : (updateLifecycle stop x q).conId = x.conId := by simp [hqc]
      rw [hcon] at heq hne
      exact hfree (hnamed x hx s hs hxactive hactive hne heq ▸ found)
    | made none => exact hne ((conId_new ..).trans hqc)

theorem named_ensure (hids : (rows.map (·.id)).Nodup) (hq : q.Read) (hnamed : Named rows) :
    Named (ensureLifecycleFromBroker stop rows q) := by
  intro r hr s hs hractive hsactive hne heq
  rcases mem_ensure hids hq hr with ⟨hr, hrfree⟩ | hrw <;>
    rcases mem_ensure hids hq hs with ⟨hs, hsfree⟩ | hsw
  · exact hnamed r hr s hs hractive hsactive hne heq
  · exact absurd heq.symm (hsw.named hnamed hq hr hrfree hractive (heq ▸ hne))
  · exact absurd heq (hrw.named hnamed hq hs hsfree hsactive hne)
  · cases hrw with
    | edited x found =>
      cases hsw with
      | edited y found' =>
        rw [found] at found'
        rw [Option.some.inj found']
      | made none =>
        rw [found] at none
        cases none
    | made none =>
      cases hsw with
      | edited y found' =>
        rw [none] at found'
        cases found'
      | made _ => rfl

theorem named_foldl (hids : (rows.map (·.id)).Nodup) (hread : ∀ p ∈ ps, p.Read)
    (hnamed : Named rows) : Named (ps.foldl (ensureLifecycleFromBroker stop) rows) := by
  induction ps using List.reverseRecOn with
  | nil => exact hnamed
  | append_singleton ps p ih =>
    rw [List.foldl_concat]
    exact named_ensure (ids_foldl hids) (hread p (by simp))
      (ih fun q hq => hread q (List.mem_append_left _ hq))

end

/-! ## A table as the sync keeps it -/

/-- No two active lifecycles have one contract id or one listing, the holdings all have contract
    ids or none has, and a contract stays at its venue and leaves its symbol to no other. -/
structure WellKept (rows : List Lifecycle) (ps : List Holding) : Prop where
  named : Named rows
  listed : ∀ r ∈ rows, ∀ s ∈ rows, r.status.isActive → s.status.isActive →
    r.listing = s.listing → r = s
  uniform : (∀ p ∈ ps, p.conId ≠ none) ∨ ∀ p ∈ ps, p.conId = none
  steady : ∀ r ∈ rows, r.status.isActive → ∀ p ∈ ps, p.conId ≠ none → r.conId = p.conId →
    r.venue = p.venue.value ∧ ∀ q ∈ ps, q.listing = r.listing → q.listing = p.listing

def Shown (rows : List Lifecycle) (ps : List Holding) : Prop := ∀ p ∈ ps, ∃ r ∈ rows, Carries r p

theorem WellKept.front {xs : List Holding} (h : WellKept rows (xs ++ ps)) : WellKept rows xs :=
  ⟨h.named, h.listed,
    h.uniform.imp (fun hall p hp => hall p (List.mem_append_left _ hp))
      fun hall p hp => hall p (List.mem_append_left _ hp),
    fun r hr hactive p hp hne hcon =>
      ((h.steady r hr hactive p (List.mem_append_left _ hp) hne hcon).imp_right
        fun hall q hq => hall q (List.mem_append_left _ hq))⟩

theorem WrittenBy.shows_self [Casing] (huniform : (∀ p ∈ ps, p.conId ≠ none) ∨ ∀ p ∈ ps, p.conId = none)
    (hdist : Distinct ps) (hp : p ∈ ps) (hq : q ∈ ps) (hread : q.Read)
    (h : WrittenBy stop rows q r) (hrp : Carries r p) : p = q := by
  obtain ⟨-, hvenue, hcon, hsymbol⟩ := h.spec hread
  rcases huniform with hall | hall
  · exact hdist.eq hp hq (hrp.conId.symm.trans (hcon (hall q hq))) fun hnone =>
      absurd hnone (hall p hp)
  · refine hdist.eq hp hq ((hall p hp).trans (hall q hq).symm) fun _ => ?_
    refine Prod.ext ?_ (hrp.venue.symm.trans hvenue)
    exact hrp.symbol.symm.trans (hsymbol (hall q hq))

theorem Matched.mem_written [Casing] (hm : Matched rows ps) (hids : (rows.map (·.id)).Nodup)
    (hread : ∀ p ∈ ps, p.Read) (hr : r ∈ written stop rows ps) :
    (r ∈ rows ∧ ∀ p ∈ ps, existing rows p ≠ some r) ∨ ∃ p ∈ ps, Carries r p := by
  obtain ⟨wrote, hwrote, hperm⟩ := Upsert.applyAll_perm (u := writes stop) hids
    (target_hits hread) (hm.target_apart hids hread)
  rcases List.mem_append.mp (hperm.mem_iff.mp hr) with hr | hr
  · obtain ⟨hr, hfree⟩ := Upsert.mem_untouched.mp hr
    exact Or.inl ⟨hr, fun p hp hfound =>
      hfree p hp ((target_eq_some hids (hread p hp) hr).mpr hfound)⟩
  · obtain ⟨p, hp, hwp⟩ := forall₂_mem_right hwrote hr
    exact Or.inr ⟨p, hp, hm.carries hids (hread p hp) hp hwp⟩

theorem Matched.mem_written_of_free [Casing] (hids : (rows.map (·.id)).Nodup) (hread : ∀ p ∈ ps, p.Read)
    (hr : r ∈ rows) (hfree : ∀ p ∈ ps, existing rows p ≠ some r) : r ∈ written stop rows ps :=
  Upsert.mem_applyAll_of_untouched hr fun p hp htarget =>
    hfree p hp ((target_eq_some hids (hread p hp) hr).mp htarget)

theorem Matched.listing_of_existing [Casing] (hm : Matched rows ps) (hkept : WellKept rows ps)
    (hread : ∀ p ∈ ps, p.Read) (hp : p ∈ ps) (h : existing rows p = some r) :
    r.listing = p.listing := by
  obtain ⟨hr, hactive, hcase⟩ := existing_cases (hread p hp) h
  rcases hcase with ⟨hne, hcon⟩ | ⟨-, hlisting⟩
  · exact Prod.ext (hm.suits p hp r h).symbol (hkept.steady r hr hactive p hp hne hcon).1
  · exact hlisting

/-! ## The holding written last -/

theorem Distinct.ne_last {xs : List Holding} (hdist : Distinct (xs ++ [q])) (hp : p ∈ xs) : p ≠ q := by
  rintro rfl
  exact ((List.pairwise_append.mp hdist).2.2 p hp p (by simp) rfl).2 rfl

section Last

variable [Casing] {xs : List Holding}

theorem Shown.before (hids : (rows.map (·.id)).Nodup) (hread : ∀ p ∈ xs ++ [q], p.Read)
    (hdist : Distinct (xs ++ [q]))
    (huniform : (∀ p ∈ xs ++ [q], p.conId ≠ none) ∨ ∀ p ∈ xs ++ [q], p.conId = none)
    (hshown : Shown (ensureLifecycleFromBroker stop rows q) (xs ++ [q])) : Shown rows xs := by
  intro p hp
  obtain ⟨r, hr, hrp⟩ := hshown p (List.mem_append_left _ hp)
  rcases mem_ensure hids (hread q (by simp)) hr with ⟨hr, -⟩ | hw
  · exact ⟨r, hr, hrp⟩
  · exact absurd (hw.shows_self huniform hdist (List.mem_append_left _ hp) (by simp)
      (hread q (by simp)) hrp) (hdist.ne_last hp)

variable (hids : (rows.map (·.id)).Nodup) (hread : ∀ p ∈ xs ++ [q], p.Read)
  (hdist : Distinct (xs ++ [q])) (hkept : WellKept rows (xs ++ [q])) (hm : Matched rows xs)
  (hshown : Shown (ensureLifecycleFromBroker stop (written stop rows xs) q) (xs ++ [q]))

include hids hread hdist hm in
theorem loop_eq_written :
    xs.foldl (ensureLifecycleFromBroker stop) rows = written stop rows xs :=
  foldl_ensure hids (fun p hp => hread p (List.mem_append_left _ hp))
    (List.pairwise_append.mp hdist).1 hm

include hids hread hdist hkept hm

theorem named_written : Named (written stop rows xs) := by
  rw [← loop_eq_written hids hread hdist hm]
  exact named_foldl hids (fun p hp => hread p (List.mem_append_left _ hp)) hkept.named

theorem existing_of_carries (hr : r ∈ written stop rows xs) (hrq : Carries r q) :
    existing (written stop rows xs) q = some r := by
  have hq : q.Read := hread q (by simp)
  have hreadx : ∀ p ∈ xs, p.Read := fun p hp => hread p (List.mem_append_left _ hp)
  have hsome : existing (written stop rows xs) q ≠ none := fun hnone =>
    (existing_none hq hnone hr hrq.active).2 hrq.listing
  obtain ⟨x, hfound⟩ := Option.ne_none_iff_exists'.mp hsome
  suffices hxr : x = r from hxr ▸ hfound
  obtain ⟨hx, hxactive, hcase⟩ := existing_cases hq hfound
  rcases hcase with ⟨hne, hcon⟩ | ⟨hcontract, hlisting⟩
  · exact named_written hids hread hdist hkept hm x hx r hr hxactive hrq.active
      (hcon.symm ▸ hne) (hcon.trans hrq.conId.symm)
  · have hqc : q.conId = none := by
      by_contra hne
      obtain ⟨c, hc⟩ := Option.ne_none_iff_exists'.mp hne
      exact hcontract ⟨c, hc, fun hnone =>
        byConId_none hnone hr hrq.active (hrq.conId.trans hc)⟩
    have hall : ∀ p ∈ xs ++ [q], p.conId = none := by
      refine hkept.uniform.resolve_left fun h => ?_
      exact h q (by simp) hqc
    -- both are as they were before the loop, where the listing tells them apart
    have hfree : ∀ y ∈ written stop rows xs, y.listing = q.listing → y ∈ rows := by
      intro y hy hyq
      rcases hm.mem_written hids hreadx hy with ⟨hy, -⟩ | ⟨p, hp, hyp⟩
      · exact hy
      · refine absurd (hdist.eq (List.mem_append_left _ hp) (by simp)
          ((hall p (List.mem_append_left _ hp)).trans hqc.symm) fun _ => ?_) (hdist.ne_last hp)
        exact hyp.listing.symm.trans hyq
    exact hkept.listed x (hfree x hx hlisting) r (hfree r hr hrq.listing) hxactive hrq.active
      (hlisting.trans hrq.listing.symm)

include hshown

theorem shown_written : ∃ r, WrittenBy stop (written stop rows xs) q r ∧ Carries r q := by
  have hidsw : ((written stop rows xs).map (·.id)).Nodup :=
    Upsert.nodup_ids_applyAll (u := writes stop) hids
  obtain ⟨r, hr, hrq⟩ := hshown q (by simp)
  rcases mem_ensure hidsw (hread q (by simp)) hr with ⟨hr, hfree⟩ | hw
  · exact absurd (existing_of_carries hids hread hdist hkept hm hr hrq) hfree
  · exact ⟨r, hw, hrq⟩

theorem found_free (hs : existing (written stop rows xs) q = some s) :
    s ∈ rows ∧ ∀ p ∈ xs, existing rows p ≠ some s := by
  have hq : q.Read := hread q (by simp)
  have hreadx : ∀ p ∈ xs, p.Read := fun p hp => hread p (List.mem_append_left _ hp)
  have hidsw : ((written stop rows xs).map (·.id)).Nodup :=
    Upsert.nodup_ids_applyAll (u := writes stop) hids
  obtain ⟨hmem, hactive, hcase⟩ := existing_cases hq hs
  rcases hm.mem_written hids hreadx hmem with h | ⟨p, hp, hsp⟩
  · exact h
  -- the holding before it would be left without a lifecycle
  have hne : p ≠ q := hdist.ne_last hp
  exfalso
  rcases hkept.uniform with hall | hall
  · obtain ⟨w, hw, hwp⟩ := hshown p (List.mem_append_left _ hp)
    rcases mem_ensure hidsw hq hw with ⟨hw, hwfree⟩ | hwritten
    · refine hwfree (hs.trans (congrArg some ?_))
      exact named_written hids hread hdist hkept hm s hmem w hw hactive hwp.active
        (hsp.conId.symm ▸ hall p (List.mem_append_left _ hp)) (hsp.conId.trans hwp.conId.symm)
    · exact hne (hwritten.shows_self hkept.uniform hdist (List.mem_append_left _ hp) (by simp)
        hq hwp)
  · have hqc : q.conId = none := hall q (by simp)
    refine hne (hdist.eq (List.mem_append_left _ hp) (by simp)
      ((hall p (List.mem_append_left _ hp)).trans hqc.symm) fun _ => ?_)
    rcases hcase with ⟨hsome, -⟩ | ⟨-, hlisting⟩
    · exact absurd hqc hsome
    · exact hsp.listing.symm.trans hlisting

theorem found_listing (hs : existing (written stop rows xs) q = some s) :
    s.listing = q.listing := by
  obtain ⟨hmem, hactive, hcase⟩ := existing_cases (hread q (by simp)) hs
  rcases hcase with ⟨hne, hcon⟩ | ⟨-, hlisting⟩
  · obtain ⟨r, hw, hrq⟩ := shown_written hids hread hdist hkept hm hshown
    obtain ⟨hrows, -⟩ := found_free hids hread hdist hkept hm hshown hs
    refine Prod.ext ?_ (hkept.steady s hrows hactive q (by simp) hne hcon).1
    cases hw with
    | edited x found =>
      rw [hs] at found
      cases found
      exact (symbol_update ..).symm.trans hrq.symbol
    | made none =>
      rw [hs] at none
      cases none
  · exact hlisting

theorem listing_new (hp : p ∈ xs) : p.listing ≠ q.listing := by
  intro heq
  have hpx : p ∈ xs ++ [q] := List.mem_append_left _ hp
  have hidsw : ((written stop rows xs).map (·.id)).Nodup :=
    Upsert.nodup_ids_applyAll (u := writes stop) hids
  have hshownx := Shown.before hidsw hread hdist hkept.uniform hshown
  obtain ⟨w, hw, hwp⟩ := hshownx p hp
  have hsome : existing (written stop rows xs) q ≠ none := fun hnone =>
    (existing_none (hread q (by simp)) hnone hw hwp.active).2 (hwp.listing.trans heq)
  obtain ⟨s, hs⟩ := Option.ne_none_iff_exists'.mp hsome
  have hactive := (existing_cases (hread q (by simp)) hs).2.1
  obtain ⟨hrows, hfree⟩ := found_free hids hread hdist hkept hm hshown hs
  have hslisting := found_listing hids hread hdist hkept hm hshown hs
  -- it was there for the holding before, which found something under the same listing
  have hsomep : existing rows p ≠ none := fun hnone =>
    (existing_none (hread p hpx) hnone hrows hactive).2 (hslisting.trans heq.symm)
  obtain ⟨x, hx⟩ := Option.ne_none_iff_exists'.mp hsomep
  obtain ⟨hxrows, hxactive, -⟩ := existing_cases (hread p hpx) hx
  have hxlisting := hm.listing_of_existing hkept.front
    (fun p hp => hread p (List.mem_append_left _ hp)) hp hx
  have hxs : x = s := hkept.listed x hxrows s hrows hxactive hactive
    (hxlisting.trans (heq.trans hslisting.symm))
  exact hfree p hp (hxs ▸ hx)

theorem existing_before : existing rows q = existing (written stop rows xs) q := by
  have hq : q.Read := hread q (by simp)
  have hqx : q ∈ xs ++ [q] := by simp
  have hnew : ∀ p ∈ xs, p.listing ≠ q.listing := fun p hp =>
    listing_new hids hread hdist hkept hm hshown hp
  -- a lifecycle the holding had before the loop, a holding before it did not have
  have hkeeps : ∀ x, existing rows q = some x → ∀ p ∈ xs, existing rows p ≠ some x := by
    intro x hx p hp hpx
    have hpx' : p ∈ xs ++ [q] := List.mem_append_left _ hp
    obtain ⟨hrows, hactive, hcase⟩ := existing_cases hq hx
    obtain ⟨-, -, hcasep⟩ := existing_cases (hread p hpx') hpx
    rcases hcase with ⟨hne, hcon⟩ | ⟨-, hlisting⟩
    · rcases hcasep with ⟨hnep, hconp⟩ | ⟨-, hlistingp⟩
      · exact hdist.ne_last hp (hdist.eq hpx' hqx (hconp.symm.trans hcon) fun h => absurd h hnep)
      · exact hnew p hp ((hkept.steady x hrows hactive q hqx hne hcon).2 p hpx' hlistingp.symm)
    · rcases hcasep with ⟨hnep, hconp⟩ | ⟨-, hlistingp⟩
      · exact hnew p hp ((hkept.steady x hrows hactive p hpx' hnep hconp).2 q hqx
          hlisting.symm).symm
      · exact hnew p hp (hlistingp.symm.trans hlisting)
  have hstays : ∀ x, existing rows q = some x → x ∈ written stop rows xs := fun x hx =>
    Matched.mem_written_of_free hids (fun p hp => hread p (List.mem_append_left _ hp))
      (mem_of_existing hq hx) (hkeeps x hx)
  cases hfound : existing (written stop rows xs) q with
  | none =>
    cases hx : existing rows q with
    | none => rfl
    | some x =>
      obtain ⟨-, hactive, hcase⟩ := existing_cases hq hx
      obtain ⟨hcontract, hlisting⟩ := existing_none hq hfound (hstays x hx) hactive
      rcases hcase with ⟨hne, hcon⟩ | ⟨-, hlisting'⟩
      · obtain ⟨c, hc⟩ := Option.ne_none_iff_exists'.mp hne
        exact absurd ⟨c, hc, fun hnone =>
          byConId_none hnone (hstays x hx) hactive (hcon.trans hc)⟩ hcontract
      · exact absurd hlisting' hlisting
  | some s =>
    obtain ⟨hsrows, hsfree⟩ := found_free hids hread hdist hkept hm hshown hfound
    have hslisting := found_listing hids hread hdist hkept hm hshown hfound
    obtain ⟨-, hsactive, hscase⟩ := existing_cases hq hfound
    have hsome : existing rows q ≠ none := fun hnone =>
      (existing_none hq hnone hsrows hsactive).2 hslisting
    obtain ⟨x, hx⟩ := Option.ne_none_iff_exists'.mp hsome
    obtain ⟨hxrows, hxactive, hxcase⟩ := existing_cases hq hx
    rw [hx]
    refine congrArg some ?_
    rcases hxcase with ⟨hne, hcon⟩ | ⟨-, hlisting⟩
    · rcases hscase with ⟨-, hscon⟩ | ⟨hcontract, -⟩
      · exact hkept.named x hxrows s hsrows hxactive hsactive (hcon.symm ▸ hne)
          (hcon.trans hscon.symm)
      · obtain ⟨c, hc⟩ := Option.ne_none_iff_exists'.mp hne
        exact absurd ⟨c, hc, fun hnone =>
          byConId_none hnone (hstays x hx) hxactive (hcon.trans hc)⟩ hcontract
    · exact hkept.listed x hxrows s hsrows hxactive hsactive (hlisting.trans hslisting.symm)

theorem Matched.concat : Matched rows (xs ++ [q]) := by
  have hfree : ∀ p ∈ xs, ∀ r, existing rows p = some r → existing rows q ≠ some r := by
    intro p hp r hr hq
    rw [existing_before hids hread hdist hkept hm hshown] at hq
    exact (found_free hids hread hdist hkept hm hshown hq).2 p hp hr
  refine ⟨?_, ?_, ?_⟩
  · refine List.pairwise_append.mpr ⟨hm.listed, List.pairwise_singleton _ _, ?_⟩
    intro p hp q' hq' heq
    rw [List.mem_singleton.mp hq'] at heq
    exact absurd heq (listing_new hids hread hdist hkept hm hshown hp)
  · refine List.pairwise_append.mpr ⟨hm.apart, List.pairwise_singleton _ _, ?_⟩
    intro p hp q' hq'
    rw [List.mem_singleton.mp hq']
    exact hfree p hp
  · intro p hp r hr
    rcases List.mem_append.mp hp with hp | hp
    · exact hm.suits p hp r hr
    rw [List.mem_singleton.mp hp] at hr ⊢
    rw [existing_before hids hread hdist hkept hm hshown] at hr
    obtain ⟨w, hw, hwq⟩ := shown_written hids hread hdist hkept hm hshown
    cases hw with
    | made none =>
      rw [hr] at none
      cases none
    | edited x found =>
      rw [hr] at found
      cases found
      refine ⟨(symbol_update ..).symm.trans hwq.symbol, fun hnone => ?_, fun hclosing => ?_⟩
      · have hcon := hwq.conId
        simpa [hnone] using hcon
      · by_contra hshort
        have hstatus := hwq.notClosing
        rw [status_update, if_neg fun hand => hshort hand.2] at hstatus
        exact hstatus hclosing

end Last

/-! ## The call -/

variable [Casing]

theorem read_of_readRow {cfg : Settings} {raw : BrokerRow} (h : readRow cfg raw = some (some p)) :
    p.Read := by
  unfold readRow at h
  simp only [Option.bind_eq_bind, Option.bind_eq_some_iff, Option.pure_def] at h
  obtain ⟨qty, -, h⟩ := h
  split at h
  · cases h
  · simp only [Option.bind_eq_some_iff] at h
    obtain ⟨avg, -, cur, -, stop, -, h⟩ := h
    cases h
    exact Casing.upper_upper _

theorem read_of_readRows {cfg : Settings} {raws : List BrokerRow} (h : readRows cfg raws = some ps) :
    ∀ p ∈ ps, p.Read := by
  unfold readRows at h
  obtain ⟨read, hread, rfl⟩ := Option.map_eq_some_iff.mp h
  intro p hp
  obtain ⟨x, hx, rfl⟩ := List.mem_filterMap.mp hp
  obtain ⟨raw, -, hraw⟩ := mem_of_mapM hread hx
  exact read_of_readRow hraw

theorem mem_after_of_not_isFlat
    (hr : r ∈ ps.foldl (ensureLifecycleFromBroker stop) rows)
    (hflat : ¬ isFlat (ps.map Holding.listing) r) : r ∈ (syncRows stop rows ps).1 :=
  List.mem_map.mpr ⟨r, hr, closeFlat_of_not hflat⟩

theorem Mirrors.shown_foldl (h : Mirrors (syncRows stop rows ps).1 ps) :
    Shown (ps.foldl (ensureLifecycleFromBroker stop) rows) ps := by
  intro p hp
  obtain ⟨r, hr, hrp⟩ := h.shown hp
  obtain ⟨r₀, hr₀, rfl⟩ := List.mem_map.mp hr
  by_cases hflat : isFlat (ps.map Holding.listing) r₀
  · have hactive := hrp.active
    rw [closeFlat, if_pos hflat] at hactive
    cases hactive
  · rw [closeFlat_of_not hflat] at hrp
    exact ⟨r₀, hr₀, hrp⟩

theorem matched_of_shown (hids : (rows.map (·.id)).Nodup) (hread : ∀ p ∈ ps, p.Read)
    (hdist : Distinct ps) (hkept : WellKept rows ps)
    (hshown : Shown (ps.foldl (ensureLifecycleFromBroker stop) rows) ps) : Matched rows ps := by
  induction ps using List.reverseRecOn with
  | nil => exact ⟨List.Pairwise.nil, List.Pairwise.nil, by simp⟩
  | append_singleton ps q ih =>
    rw [List.foldl_concat] at hshown
    have hm := ih (fun p hp => hread p (List.mem_append_left _ hp))
      (List.pairwise_append.mp hdist).1 hkept.front
      (Shown.before (ids_foldl hids) hread hdist hkept.uniform hshown)
    rw [loop_eq_written hids hread hdist hm] at hshown
    exact Matched.concat hids hread hdist hkept hm hshown

/-- On a well-kept table only matchable holdings are mirrored. -/
theorem matchable_of_mirrors (hids : (rows.map (·.id)).Nodup) (hread : ∀ p ∈ ps, p.Read)
    (hdist : Distinct ps) (hkept : WellKept rows ps)
    (h : Mirrors (syncRows stop rows ps).1 ps) : Matchable rows ps := by
  have hm := matched_of_shown hids hread hdist hkept h.shown_foldl
  have hloop : ps.foldl (ensureLifecycleFromBroker stop) rows = written stop rows ps :=
    foldl_ensure hids hread hdist hm
  have hstays : ∀ r ∈ rows, (∀ p ∈ ps, existing rows p ≠ some r) →
      ¬ isFlat (ps.map Holding.listing) r → r ∈ (syncRows stop rows ps).1 := by
    intro r hr hfree hflat
    refine mem_after_of_not_isFlat ?_ hflat
    rw [hloop]
    exact Matched.mem_written_of_free hids hread hr hfree
  refine ⟨hm, ?_, ?_⟩
  · -- one that stays would show a holding, and be the one the holding found
    intro r hr hactive hfree hheld
    obtain ⟨p, hp, hrp⟩ := h.carries_of_active
      (hstays r hr hfree fun hflat => (isFlat_iff.mp hflat).2 hheld) hactive
    have hsome : existing rows p ≠ none := fun hnone =>
      (existing_none (hread p hp) hnone hr hactive).2 hrp.listing
    obtain ⟨x, hx⟩ := Option.ne_none_iff_exists'.mp hsome
    obtain ⟨hxrows, hxactive, -⟩ := existing_cases (hread p hp) hx
    have hxr : x = r := hkept.listed x hxrows r hr hxactive hactive
      ((hm.listing_of_existing hkept hread hp hx).trans hrp.listing.symm)
    exact hfree p hp (hxr ▸ hx)
  · intro r hr hactive
    refine (h.closed r (hstays r hr (fun p hp hfound => ?_) fun hflat => ?_) hactive).2
    · exact hactive (existing_cases (hread p hp) hfound).2.1
    · exact hactive (isFlat_iff.mp hflat).1

/-- The lifecycles mirror the list after a sync, and a second sync of it opens and closes
    nothing. -/
def Mirrored (cfg : Settings) (stop : Lifecycle → Option ℚ) (rows : List Lifecycle)
    (raws : List BrokerRow) (ps : List Holding) : Prop :=
  ∃ after res, syncFromBrokerPositions cfg stop rows raws = some (after, res) ∧
    Mirrors after ps ∧
      ∃ after' res', syncFromBrokerPositions cfg stop after raws = some (after', res') ∧
        res'.closed = 0 ∧
          after'.map (fun r => (r.id, r.status)) = after.map (fun r => (r.id, r.status))

theorem ids_syncRows (hids : (rows.map (·.id)).Nodup) :
    ((syncRows stop rows ps).1.map (·.id)).Nodup := by
  have hsame : (syncRows stop rows ps).1.map (·.id) =
      (ps.foldl (ensureLifecycleFromBroker stop) rows).map (·.id) := by
    show ((ps.foldl _ rows).map (closeFlat _)).map _ = _
    rw [List.map_map]
    refine List.map_congr_left fun r _ => ?_
    show (closeFlat _ r).id = r.id
    unfold closeFlat
    split <;> rfl
  rw [hsame]
  exact ids_foldl hids

/-- **When the lifecycles mirror the list.** Matchable lifecycles do after every sync, and of
    well kept ones no others do. -/
theorem mirrored_of_matchable {cfg : Settings} {stop : Lifecycle → Option ℚ} (t : LifecycleTable)
    {raws : List BrokerRow} {ps : List Holding} (hps : readRows cfg raws = some ps)
    (hdist : Distinct ps) :
    (Matchable t.rows ps → Mirrored cfg stop t.rows raws ps) ∧
      (WellKept t.rows ps → Mirrored cfg stop t.rows raws ps → Matchable t.rows ps) := by
  have hread := read_of_readRows hps
  have hsync : ∀ rows, syncFromBrokerPositions cfg stop rows raws = some (syncRows stop rows ps) :=
    fun rows => by rw [syncFromBrokerPositions, hps, Option.map_some]
  constructor
  · intro h
    have hmirrors : Mirrors (syncRows stop t.rows ps).1 ps := h.mirrors t.unique hread hdist
    have hlisted : ps.Pairwise fun p q =>
        p.listing = q.listing → p.conId ≠ none ∧ q.conId ≠ none := by
      refine h.listed.imp fun hpq heq => ?_
      obtain ⟨⟨c, hc, -⟩, d, hd, -⟩ := hpq heq
      exact ⟨by simp [hc], by simp [hd]⟩
    exact ⟨_, _, hsync _, hmirrors, _, _, hsync _,
      hmirrors.again (ids_syncRows t.unique) hread hdist hlisted⟩
  · rintro hkept ⟨after, res, hcall, hmirrors, -⟩
    rw [hsync] at hcall
    cases hcall
    exact matchable_of_mirrors t.unique hread hdist hkept hmirrors

end Match

/-! ## A short that was to be closed -/

section Short

attribute [local instance] asciiCasing

def noBooks : Lifecycle → Option ℚ := fun _ => none

def vasRow (qty : ℚ) : BrokerRow :=
  { symbol := "VAS", qty := .num qty, quantity := .null, avgEntryPrice := .num (1141 / 10),
    averageEntryPrice := .null, marketValue := .num 99925, currentPrice := .null,
    stopPrice := .null, exchange := "ASX", currency := "AUD", conId := 60009472 }

def vasHeld (qty : ℚ) : Holding :=
  { symbol := "VAS", quantity := qty, avgEntry := 1141 / 10, currentPrice := some (99925 / |qty|),
    stopPrice := none, venue := .au, currency := some "AUD", conId := some 60009472 }

def vasClosing (qty : ℚ) : Lifecycle :=
  { id := 1, symbol := "VAS", status := .pendingClose, quantity := qty,
    averageEntryPrice := some (1141 / 10), currentPrice := some (11407 / 100), venue := "AU",
    currency := some "AUD", conId := some 60009472, stopPrice := none,
    protectionSubmitted := false }

def vasTable (qty : ℚ) : LifecycleTable := ⟨[vasClosing qty], List.nodup_singleton _⟩

/-- **A short is not reopened.** The broker still has it, and the lifecycle that was to be closed
    is left so: only a quantity above zero reopens one. -/
theorem short_left_closing :
    readRows mockSettings [vasRow (-876)] = some [vasHeld (-876)] ∧
      Distinct [vasHeld (-876)] ∧
        ¬ Mirrored mockSettings noBooks (vasTable (-876)).rows [vasRow (-876)]
          [vasHeld (-876)] := by
  refine ⟨by decide +kernel, List.pairwise_singleton _ _, ?_⟩
  rintro ⟨after, res, hsync, hmirrors, -⟩
  have hclosing : (syncFromBrokerPositions mockSettings noBooks (vasTable (-876)).rows
      [vasRow (-876)]).all (fun x => x.1.all (·.status = .pendingClose)) = true := by
    decide +kernel
  rw [hsync, Option.all_some, List.all_eq_true] at hclosing
  obtain ⟨r, hr, hshows⟩ := hmirrors.shown List.mem_cons_self
  exact hshows.notClosing (of_decide_eq_true (hclosing r hr))

theorem vas_found : existing (vasTable 876).rows (vasHeld 876) = some (vasClosing 876) := by
  decide +kernel

theorem vas_matchable : Matchable (vasTable 876).rows [vasHeld 876] := by
  refine ⟨⟨List.pairwise_singleton _ _, List.pairwise_singleton _ _, ?_⟩, ?_, ?_⟩
  · simp only [List.forall_mem_singleton, vas_found]
    rintro r ⟨⟩
    exact ⟨rfl, (by rintro ⟨⟩), fun _ => by decide +kernel⟩
  · intro r hr _ hfree
    rw [List.mem_singleton.mp hr] at hfree
    exact absurd vas_found (hfree _ List.mem_cons_self)
  · intro r hr hactive
    rw [List.mem_singleton.mp hr] at hactive
    exact absurd rfl hactive

/-- A long is, and its lifecycle shows it. -/
theorem long_mirrored :
    Matchable (vasTable 876).rows [vasHeld 876] ∧
      Mirrored mockSettings noBooks (vasTable 876).rows [vasRow 876] [vasHeld 876] :=
  ⟨vas_matchable, (mirrored_of_matchable (vasTable 876) (by decide +kernel)
    (List.pairwise_singleton _ _)).1 vas_matchable⟩

end Short

end Investor.Intraday
