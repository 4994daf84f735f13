import Investor.Universe.WatchlistRuns

/-!
# What the manager's proposals may do

A reply of the Universe Manager is a list of proposals, and an action in one is any text.
`applyProposals` guards the table in three places: a name outside `addableUniverse` may not be
added, under the membership lock nothing is paused or removed, and after the last proposal the
names beyond `universe_watchlist_limit` are paused.

The first guard compares the action as it was written with `add`, and what follows compares it
lower-cased and takes everything that is not a removal or a pause for an activation. So `ADD`,
`keep` or a misspelt action lists a name from anywhere (`keepsGuards_iff`).
-/

namespace Investor.Universe

open Lib Market

section Guards

variable [StripCasing]

/-! ## The three guards -/

structure KeepsGuards (cfg : UniverseSettings) (now : Int) (proposals : List WatchlistProposal)
    (candidates : List String) (lockMembership : Bool) (w : Watchlist) : Prop where
  /-- A name outside the addable universe has no row, whichever proposals have been applied. -/
  closed : ∀ sym : Ticker, sym.text ∉ addableUniverse cfg (w.rows.map (·.symbol)) candidates →
    (∀ done rest, proposals = done ++ rest →
      (done.foldl (applyProposal cfg now candidates lockMembership) w).find? sym = none) ∧
    (applyProposals cfg now proposals candidates lockMembership w).find? sym = none
  /-- Under the lock a proposal leaves a status as it is, or activates. -/
  locked : lockMembership = true → ∀ done prop rest, proposals = done ++ prop :: rest →
    ∀ sym : Ticker,
      let before := done.foldl (applyProposal cfg now candidates lockMembership) w
      let after := applyProposal cfg now candidates lockMembership before prop
      statusOf after sym = statusOf before sym ∨ statusOf after sym = some .active
  /-- No more rows are active than the limit says. -/
  bounded :
    ((activeRows (applyProposals cfg now proposals candidates lockMembership w)).length : Int) ≤
      cfg.universeWatchlistLimit

/-- A proposal that activates and that the guard on additions does not see: its action is not
    spelt `add`. -/
def EvadesGuard (prop : WatchlistProposal) : Prop :=
  foldName prop.symbol ≠ "" ∧ prop.action ≠ "add" ∧ Casing.lower prop.action ≠ "remove" ∧
    Casing.lower prop.action ≠ "pause"

variable {cfg : UniverseSettings} {now : Int} {candidates : List String} {lock : Bool}
  {w : Watchlist} {sym : Ticker} {prop : WatchlistProposal}
  {proposals : List WatchlistProposal}

/-! ## One proposal -/

theorem mem_addableUniverse {known : List Ticker} :
    sym.text ∈ addableUniverse cfg known candidates ↔
      sym.text ∈ addableUniverse cfg [] candidates ∨ sym ∈ known := by
  have hknown : sym.text ∈ known.map Ticker.text ↔ sym ∈ known := by
    constructor
    · intro h
      obtain ⟨t, ht, htext⟩ := List.mem_map.mp h
      exact Ticker.text_inj htext ▸ ht
    · exact List.mem_map_of_mem
  unfold addableUniverse
  dsimp only
  split
  · simp only [List.mem_append, hknown, List.map_nil, List.not_mem_nil, or_false]
    tauto
  · simp only [List.mem_append, hknown, List.map_nil, List.not_mem_nil, or_false]

/-- A proposal that leaves the status of a name: it is of another name, or a guard stops it. -/
def Passes (cfg : UniverseSettings) (candidates : List String) (lock : Bool) (w : Watchlist)
    (prop : WatchlistProposal) (sym : Ticker) : Prop :=
  Ticker.ofText prop.symbol ≠ sym ∨ sym.text = "" ∨
    (sym.text ∉ addableUniverse cfg (w.rows.map (·.symbol)) candidates ∧ prop.action = "add") ∨
    (lock = true ∧ (Casing.lower prop.action = "remove" ∨ Casing.lower prop.action = "pause"))

instance (sym : Ticker) : Decidable (Passes cfg candidates lock w prop sym) := by
  unfold Passes
  infer_instance

theorem map_find?_of_ne {k : Ticker} {f : WatchlistSymbol → WatchlistSymbol} (h : k ≠ sym) :
    ((w.find? sym).map fun r => if r.symbol = k then f r else r) = w.find? sym := by
  refine (Option.map_congr fun r hr => ?_).trans Option.map_id'
  have hsym : r.symbol = sym := (KeyedTable.find?_eq_some_iff.mp hr).2
  rw [hsym, if_neg fun heq => h heq.symm]

theorem map_find?_self {f : WatchlistSymbol → WatchlistSymbol} :
    ((w.find? sym).map fun r => if r.symbol = sym then f r else r) = (w.find? sym).map f := by
  refine Option.map_congr fun r hr => ?_
  rw [(KeyedTable.find?_eq_some_iff.mp hr).2, if_pos rfl]

theorem find?_applyProposal_of_ne (h : Ticker.ofText prop.symbol ≠ sym) :
    (applyProposal cfg now candidates lock w prop).find? sym = w.find? sym := by
  unfold applyProposal KeyedTable.updateAt
  dsimp only
  split
  · rfl
  split
  · rfl
  split
  · rfl
  split
  · rw [KeyedTable.find?_update, map_find?_of_ne h]
  split
  · rw [KeyedTable.find?_update, map_find?_of_ne h]
  split
  · rw [KeyedTable.find?_putNew, if_neg h, Option.or_none]
  · rw [KeyedTable.find?_update, map_find?_of_ne h]

theorem find?_applyProposal_of_passes (h : Passes cfg candidates lock w prop sym) :
    (applyProposal cfg now candidates lock w prop).find? sym = w.find? sym := by
  by_cases hsym : Ticker.ofText prop.symbol = sym
  swap
  · exact find?_applyProposal_of_ne hsym
  subst hsym
  rcases h with hne | hname | hadd | hlock
  · exact absurd rfl hne
  · rw [applyProposal, if_pos hname]
  · unfold applyProposal
    dsimp only
    rw [if_pos hadd, ite_self]
  · unfold applyProposal
    dsimp only
    rw [if_pos hlock, ite_self, ite_self]

theorem statusOf_applyProposal :
    statusOf (applyProposal cfg now candidates lock w prop) sym =
      if Passes cfg candidates lock w prop sym then statusOf w sym
      else if Casing.lower prop.action = "remove" then (statusOf w sym).map fun _ => .removed
      else if Casing.lower prop.action = "pause" then (statusOf w sym).map fun _ => .paused
      else some .active := by
  by_cases hpass : Passes cfg candidates lock w prop sym
  · rw [if_pos hpass, statusOf, find?_applyProposal_of_passes hpass, statusOf]
  rw [if_neg hpass]
  unfold Passes at hpass
  push Not at hpass
  obtain ⟨rfl, hname, hadd, hlock⟩ := hpass
  have hadd' : ¬ ((Ticker.ofText prop.symbol).text ∉
      addableUniverse cfg (w.rows.map (·.symbol)) candidates ∧ prop.action = "add") :=
    fun h => hadd h.1 h.2
  have hlock' : ¬ (lock = true ∧
      (Casing.lower prop.action = "remove" ∨ Casing.lower prop.action = "pause")) :=
    fun h => h.2.elim (hlock h.1).1 (hlock h.1).2
  unfold applyProposal statusOf KeyedTable.updateAt
  dsimp only
  rw [if_neg hname, if_neg hadd', if_neg hlock']
  split
  · rw [KeyedTable.find?_update, map_find?_self, Option.map_map, Option.map_map]
    rfl
  split
  · rw [KeyedTable.find?_update, map_find?_self, Option.map_map, Option.map_map]
    rfl
  split
  · rename_i hnone
    rw [KeyedTable.find?_putNew, hnone, if_pos rfl]
    rfl
  · rename_i r hr
    rw [KeyedTable.find?_update, map_find?_self, hr]
    rfl

theorem statusOf_applyProposal_locked :
    statusOf (applyProposal cfg now candidates true w prop) sym = statusOf w sym ∨
      statusOf (applyProposal cfg now candidates true w prop) sym = some .active := by
  rw [statusOf_applyProposal]
  split
  · exact Or.inl rfl
  rename_i hpass
  unfold Passes at hpass
  split
  · rename_i hremove
    exact absurd (Or.inr (Or.inr (Or.inr ⟨rfl, Or.inl hremove⟩))) hpass
  split
  · rename_i hpause
    exact absurd (Or.inr (Or.inr (Or.inr ⟨rfl, Or.inr hpause⟩))) hpass
  · exact Or.inr rfl

theorem statusOf_applyProposal_isSome (h : statusOf w sym ≠ none) :
    statusOf (applyProposal cfg now candidates lock w prop) sym ≠ none := by
  rw [statusOf_applyProposal]
  split
  · exact h
  split
  · exact Option.map_eq_none_iff.not.mpr h
  split
  · exact Option.map_eq_none_iff.not.mpr h
  · exact Option.some_ne_none _

theorem statusOf_applyProposal_eq_none (hnone : statusOf w sym = none)
    (hout : sym.text ∉ addableUniverse cfg [] candidates) :
    statusOf (applyProposal cfg now candidates lock w prop) sym = none ↔
      (Ticker.ofText prop.symbol = sym → ¬ EvadesGuard prop) := by
  have hknown : sym ∉ w.rows.map (·.symbol) := fun hmem => by
    obtain ⟨r, hr, hrsym⟩ := List.mem_map.mp hmem
    rw [← hrsym, statusOf_of_mem hr] at hnone
    cases hnone
  have houtside : sym.text ∉ addableUniverse cfg (w.rows.map (·.symbol)) candidates :=
    fun hmem => (mem_addableUniverse.mp hmem).elim hout hknown
  have hguard : Passes cfg candidates lock w prop sym ∨ Casing.lower prop.action = "remove" ∨
      Casing.lower prop.action = "pause" ↔
      (Ticker.ofText prop.symbol = sym → ¬ EvadesGuard prop) := by
    constructor
    · rintro (hpass | hremove | hpause) rfl ⟨hname, hspelt, hnoRemove, hnoPause⟩
      · rcases hpass with hne | hempty | ⟨-, hadd⟩ | ⟨-, hstops⟩
        · exact hne rfl
        · exact hname hempty
        · exact hspelt hadd
        · exact hstops.elim hnoRemove hnoPause
      · exact hnoRemove hremove
      · exact hnoPause hpause
    · intro hseen
      by_contra hopen
      obtain ⟨hopen, hstays⟩ := not_or.mp hopen
      obtain ⟨hsym, hopen⟩ := not_or.mp hopen
      obtain ⟨hname, hopen⟩ := not_or.mp hopen
      obtain ⟨hadd, -⟩ := not_or.mp hopen
      have hsame : Ticker.ofText prop.symbol = sym := not_not.mp hsym
      have hfold : foldName prop.symbol ≠ "" := fun h => hname (hsame ▸ h)
      exact hseen hsame ⟨hfold, fun h => hadd ⟨houtside, h⟩, (not_or.mp hstays).1,
        (not_or.mp hstays).2⟩
  rw [← hguard, statusOf_applyProposal, hnone]
  by_cases hpass : Passes cfg candidates lock w prop sym
  · simp [hpass]
  · rw [if_neg hpass]
    split
    · simp [*]
    split
    · simp [*]
    · simp [*]

/-! ## All of them -/

theorem statusOf_foldl_isSome (h : statusOf w sym ≠ none) :
    statusOf (proposals.foldl (applyProposal cfg now candidates lock) w) sym ≠ none := by
  induction proposals generalizing w with
  | nil => exact h
  | cons prop proposals ih => exact ih (statusOf_applyProposal_isSome h)

theorem statusOf_foldl_eq_none (hnone : statusOf w sym = none)
    (hout : sym.text ∉ addableUniverse cfg [] candidates) :
    statusOf (proposals.foldl (applyProposal cfg now candidates lock) w) sym = none ↔
      ∀ prop ∈ proposals, Ticker.ofText prop.symbol = sym → ¬ EvadesGuard prop := by
  induction proposals generalizing w with
  | nil => simp [hnone]
  | cons prop proposals ih =>
    have hstep := @statusOf_applyProposal_eq_none _ cfg now candidates lock w sym prop hnone hout
    rw [List.foldl_cons, List.forall_mem_cons]
    by_cases hfirst : statusOf (applyProposal cfg now candidates lock w prop) sym = none
    · rw [ih hfirst]
      exact ⟨fun hrest => ⟨hstep.mp hfirst, hrest⟩, fun h => h.2⟩
    · exact ⟨fun h => absurd h (statusOf_foldl_isSome hfirst),
        fun h => absurd (hstep.mpr h.1) hfirst⟩

/-! ## The limit -/

theorem statusOf_applyProposals_eq_none :
    statusOf (applyProposals cfg now proposals candidates lock w) sym = none ↔
      statusOf (proposals.foldl (applyProposal cfg now candidates lock) w) sym = none := by
  unfold applyProposals
  dsimp only
  rw [statusOf_update, Option.map_eq_none_iff, statusOf, Option.map_eq_none_iff]

theorem length_active_applyProposals (hlimit : 0 ≤ cfg.universeWatchlistLimit) :
    ((activeRows (applyProposals cfg now proposals candidates lock w)).length : Int) ≤
      cfg.universeWatchlistLimit := by
  have hkept : ∀ sym,
      statusOf (applyProposals cfg now proposals candidates lock w) sym = some .active →
        sym ∈ ((listActive (proposals.foldl (applyProposal cfg now candidates lock) w)).take
          cfg.universeWatchlistLimit.toNat).map (·.symbol) := by
    intro sym hactive
    unfold applyProposals at hactive
    dsimp only at hactive
    rw [statusOf_update] at hactive
    generalize proposals.foldl (applyProposal cfg now candidates lock) w = w' at hactive ⊢
    obtain ⟨r, hr, hstatus⟩ := Option.map_eq_some_iff.mp hactive
    obtain ⟨hmem, rfl⟩ := KeyedTable.find?_eq_some_iff.mp hr
    rw [dropFrom, if_pos hlimit] at hstatus
    split at hstatus
    · cases hstatus
    · rename_i hextra
      have hlisted : r ∈ listActive w' :=
        (sortedBy_perm _ _).mem_iff.mpr (List.mem_filter.mpr ⟨hmem, decide_eq_true hstatus⟩)
      rw [← List.take_append_drop cfg.universeWatchlistLimit.toNat (listActive w')] at hlisted
      exact (List.mem_append.mp hlisted).elim List.mem_map_of_mem
        fun h => absurd (List.mem_map_of_mem h) hextra
  have hle := length_activeRows_le hkept
  have htake := List.length_take_le cfg.universeWatchlistLimit.toNat
    (listActive (proposals.foldl (applyProposal cfg now candidates lock) w))
  rw [List.length_map] at hle
  omega

/-! ## When the guards hold -/

/-- **The proposals keep inside the guards exactly when no proposal for an outside name evades
    the guard on additions, and the limit is no negative number.** -/
theorem keepsGuards_iff (cfg : UniverseSettings) (now : Int) (proposals : List WatchlistProposal)
    (candidates : List String) (lockMembership : Bool) (w : Watchlist) :
    KeepsGuards cfg now proposals candidates lockMembership w ↔
      (∀ prop ∈ proposals, EvadesGuard prop →
        foldName prop.symbol ∈ addableUniverse cfg (w.rows.map (·.symbol)) candidates) ∧
      0 ≤ cfg.universeWatchlistLimit := by
  have hstart : ∀ sym : Ticker,
      sym.text ∉ addableUniverse cfg (w.rows.map (·.symbol)) candidates →
        statusOf w sym = none ∧ sym.text ∉ addableUniverse cfg [] candidates := by
    intro sym hout
    rw [mem_addableUniverse, not_or] at hout
    exact ⟨Option.map_eq_none_iff.mpr (KeyedTable.find?_eq_none_iff.mpr hout.2), hout.1⟩
  constructor
  · intro h
    refine ⟨fun prop hprop hevades => ?_, by have := h.bounded; omega⟩
    by_contra hout
    obtain ⟨hnone, hpool⟩ := hstart (Ticker.ofText prop.symbol) hout
    have hafter := (h.closed (Ticker.ofText prop.symbol) hout).2
    rw [← Option.map_eq_none_iff (f := fun r => r.status)] at hafter
    exact (statusOf_foldl_eq_none hnone hpool).mp (statusOf_applyProposals_eq_none.mp hafter)
      prop hprop rfl hevades
  · rintro ⟨hseen, hlimit⟩
    refine ⟨fun sym hout => ?_, ?_, length_active_applyProposals hlimit⟩
    · obtain ⟨hnone, hpool⟩ := hstart sym hout
      have hall : ∀ prop ∈ proposals, Ticker.ofText prop.symbol = sym → ¬ EvadesGuard prop :=
        fun prop hprop hsym hevades => hout (hsym ▸ hseen prop hprop hevades)
      refine ⟨fun done rest hsplit => ?_, ?_⟩
      · refine Option.map_eq_none_iff.mp ((statusOf_foldl_eq_none hnone hpool).mpr ?_)
        exact fun prop hprop => hall prop (hsplit ▸ List.mem_append_left rest hprop)
      · exact Option.map_eq_none_iff.mp
          (statusOf_applyProposals_eq_none.mpr ((statusOf_foldl_eq_none hnone hpool).mpr hall))
    · rintro rfl done prop rest - sym
      exact statusOf_applyProposal_locked

end Guards

section Sample

attribute [local instance] asciiStripCasing

/-- **A shouted addition lists a name from anywhere.** TSLA is neither of the allowlist nor a
    candidate, and has no row. -/
theorem loud_add_lists_outsider :
    ¬ KeepsGuards (sampleUniverse ["AAPL"] "dynamic" 3) 0 sampleProposals ["MSFT", "JPM"] true
      KeyedTable.empty := by
  intro h
  have hnone := (h.closed (Ticker.ofText "TSLA") (by decide +kernel)).2
  revert hnone
  decide +kernel

end Sample

end Investor.Universe
