import Investor.Agents.ExitsKept

/-!
# Which plans leave the passes

The passes are followed plan by plan. The plans of a symbol are overwritten when its book
gives the held position up and the last of them is no exit that stays (`overwrites`). An
entry is left by the passes when its symbol is not overwritten and neither its tape nor
the symbol's closes drop it (`entryStands`). The statements here say so for the whole list:
what is left of the entries and the exits of a decision, in terms of the decision that
went in.

The passes return unless a plan of the book's own does not validate: the reduction of a
position of more than twice the equity (`TargetsFit`). Then no exit leaves them
(`exits_leave_passes_iff`).
-/

namespace Investor.Agents

open Lib Schema Market Universe

section Lookup

variable [Casing] {α : Type} {symbolOf : α → String} {xs : List α} {s : String} {v : α}

theorem mem_of_bySymbol (h : Dict.get? (bySymbol symbolOf xs) s = some v) :
    v ∈ xs ∧ Casing.upper (symbolOf v) = s := by
  obtain ⟨w, hw, heq⟩ := List.mem_map.mp (Dict.mem_of_get?_ofPairs h)
  cases heq
  exact ⟨(List.mem_filter.mp hw).1, rfl⟩

theorem bySymbol_map {f : α → α} (hf : ∀ x, symbolOf (f x) = symbolOf x) :
    Dict.get? (bySymbol symbolOf (xs.map f)) s = (Dict.get? (bySymbol symbolOf xs) s).map f := by
  unfold bySymbol
  rw [Dict.get?_ofPairs, Dict.get?_ofPairs, List.filter_map, List.map_map, ← List.map_reverse,
    ← List.map_reverse, List.find?_map, List.find?_map]
  simp only [Function.comp_def, hf, Option.map_map]

end Lookup

section Entries

/-! ## After the missing exits -/

section

variable [Casing]

section Ensure

variable {views : Dict SymbolQuantView} {watchlist : List WatchRow} {now : Int}
  {positions : List PositionSnapshot} {scan scan' : ExitScan}

theorem ensureExits_other {q : SymbolActionPlan} (hq : q.action.isExit = false)
    (h : positions.foldlM (ensureExit views watchlist now) scan = some scan') :
    q ∈ scan'.updated ↔ q ∈ scan.updated ∧
      ¬ ((∃ pos ∈ positions, Casing.upper pos.symbol = Casing.upper q.symbol ∧
          wantsOut views watchlist now pos) ∧
        ∃ cur, Dict.get? scan.existing (Casing.upper q.symbol) = some cur ∧
          cur.action.isExit = false) := by
  induction positions generalizing scan with
  | nil =>
    cases h
    simp
  | cons pos positions ih =>
    rw [List.foldlM_cons] at h
    obtain ⟨scan₁, h₁, hrest⟩ := Option.bind_eq_some_iff.mp h
    rw [ih hrest]
    rcases ensureExit_cases h₁ with ⟨rfl, hstays⟩ | ⟨plan, hexit, hsym, _, hout, hexisting, hupdated⟩
    · refine and_congr_right fun _ => not_congr (and_congr_left fun ⟨cur, hcur, hnot⟩ => ?_)
      rw [List.exists_mem_cons_iff]
      refine (or_iff_right fun ⟨hsym, hout⟩ => ?_).symm
      obtain ⟨cur', hcur', hexit⟩ := hstays hout
      rw [hsym, hcur] at hcur'
      cases hcur'
      rw [hnot] at hexit
      cases hexit
    · have hne : q ≠ plan := by
        rintro rfl
        rw [hq] at hexit
        cases hexit
      by_cases hsame : Casing.upper pos.symbol = Casing.upper q.symbol
      · rw [hexisting, ← hsame, Dict.get?_set_self]
        have hdone : ¬ ∃ cur, some plan = some cur ∧ cur.action.isExit = false := by
          rintro ⟨_, ⟨⟩, hnot⟩
          rw [hnot] at hexit
          cases hexit
        rw [iff_true_intro (show ¬ ((∃ pos' ∈ positions,
          Casing.upper pos'.symbol = Casing.upper pos.symbol ∧ wantsOut views watchlist now pos') ∧
          ∃ cur, some plan = some cur ∧ cur.action.isExit = false) from fun h => hdone h.2),
          and_true]
        rcases hupdated with ⟨hnone, hadd⟩ | ⟨cur, hcur, hnot, hmap⟩
        · rw [hadd, hnone]
          simp [hne]
        · rw [hmap, hcur]
          constructor
          · intro hmem
            obtain ⟨p, _, hp⟩ := List.mem_map.mp hmem
            split at hp
            · exact absurd hp.symm hne
            · rename_i hother
              subst hp
              exact absurd hsame.symm hother
          · rintro ⟨_, hkept⟩
            exact absurd ⟨⟨pos, List.mem_cons_self .., rfl, hout⟩, cur, rfl, hnot⟩ hkept
      · have hmem : q ∈ scan₁.updated ↔ q ∈ scan.updated := by
          rcases hupdated with ⟨_, hadd⟩ | ⟨_, _, _, hmap⟩
          · rw [hadd]
            simp [hne]
          · rw [hmap]
            constructor
            · intro hq'
              obtain ⟨p, hp, hpq⟩ := List.mem_map.mp hq'
              split at hpq
              · exact absurd hpq.symm hne
              · exact hpq ▸ hp
            · intro hq'
              refine List.mem_map.mpr ⟨q, hq', if_neg fun heq => hsame heq.symm⟩
        rw [hmem, hexisting, Dict.get?_set_of_ne _ _ hsame, List.exists_mem_cons_iff,
          or_iff_right fun h => hsame h.1]

def Covers (scan : ExitScan) : Prop :=
  ∀ s cur, Dict.get? scan.existing s = some cur →
    ∃ p ∈ scan.updated, Casing.upper p.symbol = s

def Quits (scan : ExitScan) (s : String) : Prop :=
  ∃ cur, Dict.get? scan.existing s = some cur ∧ cur.action.isExit

/-- Some plan is an exit of a symbol in `S`. -/
def ExitIn (S : String → Prop) (plans : List SymbolActionPlan) : Prop :=
  ∃ q ∈ plans, q.action.isExit ∧ S (Casing.upper q.symbol)

theorem mem_turned {s : String} {plan q : SymbolActionPlan} (hcovers : Covers scan)
    (hupdated : (Dict.get? scan.existing s = none ∧ scan'.updated = scan.updated ++ [plan]) ∨
      ∃ cur, Dict.get? scan.existing s = some cur ∧ cur.action.isExit = false ∧
        scan'.updated = scan.updated.map fun p => if Casing.upper p.symbol = s then plan else p) :
    q ∈ scan'.updated ↔ q = plan ∨ q ∈ scan.updated ∧
      (Dict.get? scan.existing s = none ∨ Casing.upper q.symbol ≠ s) := by
  rcases hupdated with ⟨hnone, hadd⟩ | ⟨cur, hcur, _, hmap⟩
  · rw [hadd, List.mem_append, List.mem_singleton, or_comm, iff_true_intro (Or.inl hnone), and_true]
  · rw [hmap, hcur]
    constructor
    · intro hq
      obtain ⟨p, hp, hpq⟩ := List.mem_map.mp hq
      split at hpq
      · exact Or.inl hpq.symm
      · rename_i hne
        subst hpq
        exact Or.inr ⟨hp, Or.inr hne⟩
    · rintro (rfl | ⟨hq, hnone | hne⟩)
      · obtain ⟨p, hp, hps⟩ := hcovers s cur hcur
        exact List.mem_map.mpr ⟨p, hp, if_pos hps⟩
      · cases hnone
      · exact List.mem_map.mpr ⟨q, hq, if_neg hne⟩

theorem ensureExit_turn {pos : PositionSnapshot} (hcovers : Covers scan)
    (h : ensureExit views watchlist now scan pos = some scan') :
    Covers scan' ∧
    (∀ s, Quits scan' s ↔
      Quits scan s ∨ s = Casing.upper pos.symbol ∧ wantsOut views watchlist now pos) ∧
    ∀ S, ExitIn S scan'.updated ↔ ExitIn S scan.updated ∨
      wantsOut views watchlist now pos ∧ S (Casing.upper pos.symbol) ∧
        ¬ Quits scan (Casing.upper pos.symbol) := by
  rcases ensureExit_cases h with ⟨rfl, hstays⟩ | ⟨plan, hexit, hsym, _, hout, hexisting, hupdated⟩
  · refine ⟨hcovers, fun s => ⟨Or.inl, ?_⟩, fun S => ⟨Or.inl, ?_⟩⟩
    · rintro (hquits | ⟨rfl, hout⟩)
      · exact hquits
      · exact hstays hout
    · rintro (hexits | ⟨hout, _, hnot⟩)
      · exact hexits
      · exact absurd (hstays hout) hnot
  · have hplan : Casing.upper plan.symbol = Casing.upper pos.symbol := by
      rw [hsym, Casing.upper_upper]
    have hnot : ¬ Quits scan (Casing.upper pos.symbol) := by
      rintro ⟨cur', hcur', hexit'⟩
      rcases hupdated with ⟨hnone, _⟩ | ⟨cur, hcur, hcurexit, _⟩
      · rw [hnone] at hcur'
        cases hcur'
      · rw [hcur] at hcur'
        cases hcur'
        rw [hcurexit] at hexit'
        cases hexit'
    have hmem := fun q => mem_turned (q := q) hcovers hupdated
    refine ⟨fun s cur hcur => ?_, fun s => ?_, fun S => ⟨?_, ?_⟩⟩
    · by_cases hs : Casing.upper pos.symbol = s
      · exact ⟨plan, (hmem plan).mpr (Or.inl rfl), hplan.trans hs⟩
      · rw [hexisting, Dict.get?_set_of_ne _ _ hs] at hcur
        obtain ⟨p, hp, rfl⟩ := hcovers s cur hcur
        exact ⟨p, (hmem p).mpr (Or.inr ⟨hp, Or.inr fun h => hs h.symm⟩), rfl⟩
    · unfold Quits
      rw [hexisting, Dict.get?_set]
      by_cases hs : Casing.upper pos.symbol = s
      · rw [if_pos hs]
        exact ⟨fun _ => Or.inr ⟨hs.symm, hout⟩, fun _ => ⟨plan, rfl, hexit⟩⟩
      · rw [if_neg hs]
        exact (or_iff_left fun h => hs h.1.symm).symm
    · rintro ⟨q, hq, hqexit, hqS⟩
      rcases (hmem q).mp hq with rfl | ⟨hq, _⟩
      · exact Or.inr ⟨hout, hplan ▸ hqS, hnot⟩
      · exact Or.inl ⟨q, hq, hqexit, hqS⟩
    · rintro (⟨q, hq, hqexit, hqS⟩ | ⟨_, hS, _⟩)
      · by_cases hs : Casing.upper q.symbol = Casing.upper pos.symbol
        · exact ⟨plan, (hmem plan).mpr (Or.inl rfl), hexit, hplan ▸ hs ▸ hqS⟩
        · exact ⟨q, (hmem q).mpr (Or.inr ⟨hq, Or.inr hs⟩), hqexit, hqS⟩
      · exact ⟨plan, (hmem plan).mpr (Or.inl rfl), hexit, hplan.symm ▸ hS⟩

theorem ensureExits_exit {S : String → Prop} (hcovers : Covers scan)
    (h : positions.foldlM (ensureExit views watchlist now) scan = some scan') :
    ExitIn S scan'.updated ↔ ExitIn S scan.updated ∨
      ∃ pos ∈ positions, wantsOut views watchlist now pos ∧ S (Casing.upper pos.symbol) ∧
        ¬ Quits scan (Casing.upper pos.symbol) := by
  induction positions generalizing scan with
  | nil =>
    cases h
    simp
  | cons pos positions ih =>
    rw [List.foldlM_cons] at h
    obtain ⟨scan₁, h₁, hrest⟩ := Option.bind_eq_some_iff.mp h
    obtain ⟨hcovers₁, hquits, hexits⟩ := ensureExit_turn hcovers h₁
    rw [ih hcovers₁ hrest, hexits, List.exists_mem_cons_iff, or_assoc]
    refine or_congr_right ⟨?_, ?_⟩
    · rintro (hpos | ⟨pos', hpos', hout, hS, hnot⟩)
      · exact Or.inl hpos
      · exact Or.inr ⟨pos', hpos', hout, hS, fun hq => hnot ((hquits _).mpr (Or.inl hq))⟩
    · rintro (hpos | ⟨pos', hpos', hout, hS, hnot⟩)
      · exact Or.inl hpos
      · by_cases hs : Casing.upper pos'.symbol = Casing.upper pos.symbol ∧
            wantsOut views watchlist now pos
        · exact Or.inl ⟨hs.2, hs.1 ▸ hS, hs.1 ▸ hnot⟩
        · refine Or.inr ⟨pos', hpos', hout, hS, fun hq => ?_⟩
          rcases (hquits _).mp hq with hq | hq
          · exact hnot hq
          · exact hs hq

instance (pos : PositionSnapshot) : Decidable (wantsOut views watchlist now pos) :=
  inferInstanceAs (Decidable (_ ∧ _))

/-- A position is not taken up where its exit would be out of range. -/
theorem ensureExit_isSome_iff {pos : PositionSnapshot} :
    (ensureExit views watchlist now scan pos).isSome ↔
      (wantsOut views watchlist now pos → ¬ Quits scan (Casing.upper pos.symbol) →
        playbookExitTarget pos (bookExitOf views watchlist now pos) ≤ 100) := by
  unfold ensureExit playbookExitPlan
  dsimp only
  split
  · rename_i hstop
    refine iff_of_true rfl fun hout hquits => ?_
    rcases hstop with hflat | hhold | hexit
    · exact absurd hflat hout.1
    · exact absurd hhold hout.2
    · exact absurd ((Option.any_eq_true _ _).mp hexit) hquits
  · rename_i hgo
    push Not at hgo
    have hquits : ¬ Quits scan (Casing.upper pos.symbol) := fun h =>
      hgo.2.2 ((Option.any_eq_true _ _).mpr h)
    by_cases htarget : 100 < playbookExitTarget pos (bookExitOf views watchlist now pos)
    · rw [if_pos htarget]
      exact iff_of_false Bool.false_ne_true fun h =>
        htarget.not_ge (h ⟨not_lt.mpr hgo.1, hgo.2.1⟩ hquits)
    · rw [if_neg htarget]
      exact iff_of_true rfl fun _ _ => not_lt.mp htarget

/-- By induction on the positions: only the first of its symbol that is given up is put in. -/
theorem ensureExits_isSome_iff (hcovers : Covers scan) :
    (positions.foldlM (ensureExit views watchlist now) scan).isSome ↔
      ∀ s pos, ¬ Quits scan s → (positions.find? fun p =>
          Casing.upper p.symbol = s ∧ wantsOut views watchlist now p) = some pos →
        playbookExitTarget pos (bookExitOf views watchlist now pos) ≤ 100 := by
  induction positions generalizing scan with
  | nil => simp
  | cons pos positions ih =>
    have hhead := @ensureExit_isSome_iff _ views watchlist now scan pos
    rw [List.foldlM_cons]
    cases hstep : ensureExit views watchlist now scan pos with
    | none =>
      rw [hstep] at hhead
      refine iff_of_false Bool.false_ne_true fun hall => ?_
      refine Bool.false_ne_true (hhead.mpr fun hout hquits => hall _ pos hquits ?_)
      rw [List.find?_cons_of_pos (by simpa using hout)]
    | some scan₁ =>
      rw [hstep] at hhead
      obtain ⟨hcovers₁, hquits₁, -⟩ := ensureExit_turn hcovers hstep
      rw [Option.bind_eq_bind, Option.bind_some, ih hcovers₁]
      refine forall₂_congr fun s p => ?_
      rw [hquits₁, List.find?_cons]
      by_cases hturn : Casing.upper pos.symbol = s ∧ wantsOut views watchlist now pos
      · obtain ⟨rfl, hout⟩ := hturn
        refine iff_of_true (fun h => absurd (Or.inr ⟨rfl, hout⟩) h) fun hquits hp => ?_
        rw [decide_eq_true ⟨rfl, hout⟩] at hp
        cases hp
        exact hhead.mp rfl hout hquits
      · rw [decide_eq_false hturn, or_iff_left fun h => hturn ⟨h.1.symm, h.2⟩]

end Ensure

/-! ## In terms of the decision that went in -/

def PassInputs.viewOf (x : PassInputs) : Dict SymbolQuantView := bySymbol (·.symbol) x.views

def PassInputs.heldSymbols (x : PassInputs) : List String :=
  ((x.heldPositions.map (·.symbol)).filter (· ≠ "")).map Casing.upper

def PassInputs.leavesExit (x : PassInputs) (plan : SymbolActionPlan) : Bool :=
  plan.action.isExit && !(trimsQuietSwing x.viewOf x.watchlist plan &&
    (decide (x.heldSymbols = []) || decide (Casing.upper plan.symbol ∈ x.heldSymbols)))

def PassInputs.givesUp (x : PassInputs) (s : String) : Prop :=
  ∃ pos ∈ x.heldPositions, Casing.upper pos.symbol = s ∧
    bookExitOf x.viewOf x.watchlist x.now pos ≠ .hold

def lastPlan (d : CIODecision) (s : String) : Option SymbolActionPlan :=
  Dict.get? (bySymbol (·.symbol) d.symbolActions) s

/-- The book's own exits are in range: of a symbol whose last plan is no exit that stays, the first
    held position that the book gives up has a target of at most 100%. -/
def PassInputs.TargetsFit (x : PassInputs) (d : CIODecision) : Prop :=
  ∀ s pos, (¬ ∃ last, lastPlan d s = some last ∧ x.leavesExit last) →
    (x.heldPositions.find? fun p =>
      Casing.upper p.symbol = s ∧ wantsOut x.viewOf x.watchlist x.now p) = some pos →
    playbookExitTarget pos (bookExitOf x.viewOf x.watchlist x.now pos) ≤ 100

def PassInputs.overwrites (x : PassInputs) (d : CIODecision) (s : String) : Prop :=
  x.givesUp s ∧ ∃ last, lastPlan d s = some last ∧ x.leavesExit last = false

def PassInputs.alignedPlan (x : PassInputs) (plan : SymbolActionPlan) : SymbolActionPlan :=
  let plan := alignHorizon (policyBySymbol x.watchlist) plan
  (alignExit x.viewOf x.watchlist x.heldSymbols plan).getD plan

end

section Inputs

variable {x : PassInputs} {d d₁ : CIODecision} {plan q : SymbolActionPlan}

section

variable [Casing]

theorem alignExits_plans : (x.alignExits d).symbolActions = d.symbolActions.map x.alignedPlan := by
  unfold PassInputs.alignExits
  rw [alignPlaybook_plans]
  exact List.map_map

theorem alignedPlan_symbol : (x.alignedPlan plan).symbol = plan.symbol := by
  unfold PassInputs.alignedPlan
  rw [alignExit_symbol, alignHorizon_symbol]

theorem alignedPlan_other (h : plan.action.isExit = false) :
    x.alignedPlan plan = alignHorizon (policyBySymbol x.watchlist) plan := by
  unfold PassInputs.alignedPlan
  dsimp only
  unfold alignExit
  dsimp only
  rw [if_pos (Or.inl (by simp [h]))]
  rfl

theorem alignedPlan_isExit : (x.alignedPlan plan).action.isExit = x.leavesExit plan := by
  rw [Bool.eq_iff_iff]
  unfold PassInputs.alignedPlan
  dsimp only
  rw [alignExit_isExit, trimsQuietSwing_alignHorizon, alignHorizon_symbol, alignHorizon_action]
  cases htrim : trimsQuietSwing x.viewOf x.watchlist plan <;> simp [PassInputs.leavesExit, htrim]

theorem lastPlan_alignExits {s : String} :
    lastPlan (x.alignExits d) s = (lastPlan d s).map x.alignedPlan := by
  unfold lastPlan
  rw [alignExits_plans]
  exact bySymbol_map fun _ => alignedPlan_symbol

theorem wantsOut_iff {pos : PositionSnapshot} (hpos : pos ∈ x.heldPositions) :
    wantsOut x.viewOf x.watchlist x.now pos ↔
      bookExitOf x.viewOf x.watchlist x.now pos ≠ .hold := by
  have hheld : 1 / 10 ^ 9 < |pos.quantity| := by
    simpa [PositionSnapshot.isHeld] using (List.mem_filter.mp hpos).2
  exact and_iff_right (not_lt.mpr hheld.le)

theorem givesUp_iff {s : String} :
    x.givesUp s ↔ ∃ pos ∈ x.heldPositions, Casing.upper pos.symbol = s ∧
      wantsOut x.viewOf x.watchlist x.now pos :=
  exists_congr fun _ => and_congr_right fun hpos => and_congr_right fun _ => (wantsOut_iff hpos).symm

theorem lastAligned_iff {s : String} {b : Bool} :
    (∃ cur, lastPlan (x.alignExits d) s = some cur ∧ cur.action.isExit = b) ↔
      ∃ last, lastPlan d s = some last ∧ x.leavesExit last = b := by
  rw [lastPlan_alignExits]
  cases lastPlan d s <;> simp [alignedPlan_isExit]

theorem covers_startScan {plans : List SymbolActionPlan} : Covers (startScan plans) :=
  fun _ cur hcur => ⟨cur, (mem_of_bySymbol hcur).1, (mem_of_bySymbol hcur).2⟩

/-- **The passes lose no exit** exactly where they return: where each exit that the book puts in is
    in the schema's range. -/
theorem exits_leave_passes_iff (x : PassInputs) (d : CIODecision) :
    (∃ d', x.passes d = some d' ∧ List.SublistForall₂
      (fun plan plan' => Casing.upper plan'.symbol = Casing.upper plan.symbol ∧
        plan'.action.isExit)
      (d.symbolActions.filter x.protectedExit) d'.symbolActions) ↔ x.TargetsFit d := by
  have hreturns : (x.passes d).isSome ↔ x.TargetsFit d := by
    unfold PassInputs.passes ensurePlaybookExits
    rw [Option.isSome_map, Option.bind_eq_bind, Option.isSome_bind]
    simp only [Option.pure_def, Option.any_true, Option.isSome_some]
    rw [ensureExits_isSome_iff covers_startScan]
    refine forall₂_congr fun s pos => imp_congr_left (not_congr ?_)
    exact @lastAligned_iff x d _ s true
  rw [← hreturns, Option.isSome_iff_exists]
  exact exists_congr fun d' => and_iff_left_of_imp (exits_leave_passes x d d')

end

theorem isExit_of_isEntry {a : SymbolAction} (h : a.isEntry) : a.isExit = false :=
  Bool.eq_false_iff.mpr (SymbolAction.not_isExit_of_isEntry h)

theorem alignedPlan_entry [Casing] (h : (x.alignedPlan plan).action.isEntry) :
    plan.action.isEntry ∧ x.alignedPlan plan = alignHorizon (policyBySymbol x.watchlist) plan := by
  have hsame : x.alignedPlan plan = alignHorizon (policyBySymbol x.watchlist) plan := by
    unfold PassInputs.alignedPlan at h ⊢
    dsimp only at h ⊢
    cases halign : alignExit x.viewOf x.watchlist x.heldSymbols
        (alignHorizon (policyBySymbol x.watchlist) plan) with
    | none => rfl
    | some plan' =>
      rw [halign] at h
      exact absurd h (by rw [Option.getD_some, alignExit_not_entry halign]; decide)
  refine ⟨?_, hsame⟩
  rw [hsame, alignHorizon_action] at h
  exact h

theorem ensured_entry_iff [Casing] (hq : q.action.isEntry)
    (h : ensurePlaybookExits (x.alignExits d) x.views x.watchlist x.heldPositions x.now = some d₁) :
    q ∈ d₁.symbolActions ↔ ∃ p ∈ d.symbolActions, p.action.isEntry ∧
      q = alignHorizon (policyBySymbol x.watchlist) p ∧
      ¬ x.overwrites d (Casing.upper p.symbol) := by
  obtain ⟨scan, hscan, hplans, _⟩ := ensurePlaybookExits_eq_some h
  rw [hplans, ensureExits_other (isExit_of_isEntry hq) hscan]
  have hover := and_congr (givesUp_iff (x := x) (s := Casing.upper q.symbol)).symm
    (lastAligned_iff (x := x) (d := d) (s := Casing.upper q.symbol) (b := false))
  refine (and_congr_right fun _ => not_congr hover).trans ⟨?_, ?_⟩
  · rintro ⟨hmem, hstays⟩
    obtain ⟨p, hp, rfl⟩ := List.mem_map.mp (alignExits_plans (x := x) ▸ hmem)
    obtain ⟨hentry, hsame⟩ := alignedPlan_entry hq
    rw [alignedPlan_symbol] at hstays
    exact ⟨p, hp, hentry, hsame, hstays⟩
  · rintro ⟨p, hp, hentry, rfl, hstays⟩
    rw [alignHorizon_symbol]
    refine ⟨?_, hstays⟩
    rw [startScan, alignExits_plans]
    exact List.mem_map.mpr ⟨p, hp, alignedPlan_other (isExit_of_isEntry hentry)⟩

end Inputs

/-! ## Behind the exits -/

variable [Casing]

def PassInputs.enriched (x : PassInputs) (plan : SymbolActionPlan) : SymbolActionPlan :=
  enrichEntry x.showRat x.viewOf (latestPrices x.markets) (atrBySymbol x.markets)
    (policyBySymbol x.watchlist) plan

def PassInputs.dropsEntry (x : PassInputs) (plan : SymbolActionPlan) : Bool :=
  (dropReason x.viewOf x.watchlist x.regime x.minutesToClose x.outcomePnls plan).isSome

def PassInputs.stamped (x : PassInputs) (plan : SymbolActionPlan) : SymbolActionPlan :=
  if plan.action.isBuyEntry then
    stampPlan plan (Dict.get? x.viewOf (Casing.upper plan.symbol)) SOURCE_CIO
  else plan

/-- The setups added to a decision that is through the exit passes. -/
def PassInputs.setups (x : PassInputs) (d : CIODecision) : List SymbolActionPlan :=
  if !x.paperAggressiveEntries || !x.risk.riskOk || !d.riskApproval then []
  else extraSetups x.scope (enrichCioEntryStops x.showRat d x.views x.markets x.watchlist) x.views
    x.positions x.cashPct x.minCashPct

section Settle

variable {x : PassInputs} {d : CIODecision} {plan q : SymbolActionPlan}

@[simp] theorem enriched_symbol : (x.enriched plan).symbol = plan.symbol := by
  unfold PassInputs.enriched enrichEntry
  split <;> rfl

@[simp] theorem enriched_action : (x.enriched plan).action = plan.action := by
  unfold PassInputs.enriched enrichEntry
  split <;> rfl

@[simp] theorem stamped_action : (x.stamped plan).action = plan.action := by
  unfold PassInputs.stamped stampPlan
  split
  · split <;> rfl
  · rfl

theorem ensureSetups_plans {d : CIODecision} {scope : SetupScope} {views : List SymbolQuantView}
    {positions : List PositionSnapshot} {riskOk enabled : Bool} {cashPct minCashPct : ℚ} :
    (ensureCioTakesSetups scope d views positions riskOk enabled cashPct minCashPct).symbolActions =
      let extras := if !enabled || !riskOk || !d.riskApproval then []
        else extraSetups scope d views positions cashPct minCashPct
      (d.symbolActions.filter fun p =>
        Casing.upper p.symbol ∉ extras.map fun e => Casing.upper e.symbol) ++ extras := by
  unfold ensureCioTakesSetups
  dsimp only
  split
  · simp
  · split
    · rename_i hnone
      rw [hnone]
      simp
    · rfl

theorem dropBlocked_plans {views : List SymbolQuantView} {watchlist : List WatchRow}
    {regime : MarketRegime} {minutesToClose : Option ℚ} {ledger : Dict (List ℚ)} :
    (dropBlockedEntries d views watchlist regime minutesToClose ledger).symbolActions =
      d.symbolActions.filter fun plan =>
        (dropReason (bySymbol (·.symbol) views) watchlist regime minutesToClose ledger plan).isNone := by
  unfold dropBlockedEntries
  dsimp only
  split
  · rename_i hall
    exact (List.filter_eq_self.mpr (List.all_eq_true.mp hall)).symm
  · rfl

theorem settleEntries_plans :
    (x.settleEntries d).symbolActions =
      ((((d.symbolActions.map x.enriched).filter fun p =>
        Casing.upper p.symbol ∉ (x.setups d).map fun e => Casing.upper e.symbol) ++
          x.setups d).filter fun p => !x.dropsEntry p).map x.stamped := by
  unfold PassInputs.settleEntries
  dsimp only
  rw [reconcileNameless_plans]
  unfold stampCioEntryAttribution
  dsimp only
  rw [dropBlocked_plans, ensureSetups_plans]
  dsimp only
  simp only [PassInputs.dropsEntry, Option.not_isSome]
  rfl

theorem mem_settleEntries :
    q ∈ (x.settleEntries d).symbolActions ↔
      ∃ p, ((∃ p₀ ∈ d.symbolActions, p = x.enriched p₀ ∧
          Casing.upper p₀.symbol ∉ (x.setups d).map fun e => Casing.upper e.symbol) ∨
        p ∈ x.setups d) ∧ x.dropsEntry p = false ∧ q = x.stamped p := by
  rw [settleEntries_plans]
  simp only [List.mem_map, List.mem_filter, List.mem_append, decide_eq_true_eq,
    Bool.not_eq_true']
  constructor
  · rintro ⟨p, ⟨⟨⟨p₀, hp₀, rfl⟩, hnew⟩ | hsetup, hkept⟩, rfl⟩
    · rw [enriched_symbol] at hnew
      exact ⟨_, Or.inl ⟨p₀, hp₀, rfl, hnew⟩, hkept, rfl⟩
    · exact ⟨p, Or.inr hsetup, hkept, rfl⟩
  · rintro ⟨p, ⟨p₀, hp₀, rfl, hnew⟩ | hsetup, hkept, rfl⟩
    · exact ⟨_, ⟨Or.inl ⟨⟨p₀, hp₀, rfl⟩, by rw [enriched_symbol]; exact hnew⟩, hkept⟩, rfl⟩
    · exact ⟨p, ⟨Or.inr hsetup, hkept⟩, rfl⟩

end Settle

/-- The entry is left by the passes: its symbol is not overwritten by an exit of its book, and
    neither its tape nor the symbol's closes drop it. -/
def PassInputs.entryStands (x : PassInputs) (d : CIODecision) (plan : SymbolActionPlan) : Prop :=
  ¬ x.overwrites d (Casing.upper plan.symbol) ∧
    x.dropsEntry (x.enriched (alignHorizon (policyBySymbol x.watchlist) plan)) = false

end Entries

/-! ## A position of three times the equity -/

section Sample

attribute [local instance] asciiCasing

/-- AAPL is bought on margin and its momentum is exhausted. -/
def heavyInputs : PassInputs :=
  sampleInputs [{ risingView "AAPL" with momentumState := .exhausted }]
    [{ symbol := "AAPL", horizon := "short" }]
    [{ sharesOf "AAPL" 10 with weightPct := 300 }, sharesOf "MSFT" 10]

/-- **The sale of MSFT is lost**, for the reduction of AAPL to 150%. -/
theorem heavy_position_loses_exits :
    ¬ ∀ (x : PassInputs) (d : CIODecision), ∃ d', x.passes d = some d' ∧ List.SublistForall₂
      (fun plan plan' => Casing.upper plan'.symbol = Casing.upper plan.symbol ∧
        plan'.action.isExit)
      (d.symbolActions.filter x.protectedExit) d'.symbolActions := by
  intro hall
  obtain ⟨d', hd', -⟩ := hall heavyInputs (decisionOf .reduce [planOf "MSFT" .sell])
  have hnone : (heavyInputs.passes (decisionOf .reduce [planOf "MSFT" .sell])).isNone = true := by
    decide +kernel
  rw [hd'] at hnone
  cases hnone

end Sample

end Investor.Agents
