import Investor.Agents.PlansLeft

/-!
# The exits the books ask for

`ensure_playbook_exits` looks each held symbol up in a dictionary of the plans, where the last plan
of a symbol wins, and goes by that plan alone. If it is an exit, the symbol is left as it is,
whatever the plans before it say. If it is none, every plan of the symbol is replaced by one and the
same exit.

So the pass leaves one exit and no entry where the symbol has at most one plan, and else only where
the last plan is an exit and none of the others an entry (`MakesWay`). The exits and the other
symbols are as they should be in any case.
-/

namespace Investor.Agents

open Lib Schema Market Universe

section Turns

variable [Casing] {views : Dict SymbolQuantView} {watchlist : List WatchRow} {now : Int}
  {positions : List PositionSnapshot} {scan scan' : ExitScan} {pos : PositionSnapshot} {s : String}

def plansOf (plans : List SymbolActionPlan) (s : String) : List SymbolActionPlan :=
  plans.filter fun p => Casing.upper p.symbol = s

instance decidableWantsOut (views : Dict SymbolQuantView) (watchlist : List WatchRow) (now : Int)
    (pos : PositionSnapshot) : Decidable (wantsOut views watchlist now pos) :=
  inferInstanceAs (Decidable (_ ∧ _))

def wanted (views : Dict SymbolQuantView) (watchlist : List WatchRow) (now : Int)
    (positions : List PositionSnapshot) (s : String) : Bool :=
  positions.any fun pos => Casing.upper pos.symbol = s ∧ wantsOut views watchlist now pos

theorem wanted_iff : wanted views watchlist now positions s = true ↔
    ∃ pos ∈ positions, Casing.upper pos.symbol = s ∧ wantsOut views watchlist now pos := by
  unfold wanted
  rw [List.any_eq_true]
  simp only [decide_eq_true_eq]

/-! ## How many plans are put in -/

/-- The plans that the turn of a position puts in: one at the end, or one for each plan of the
    symbol. -/
def putIn (views : Dict SymbolQuantView) (watchlist : List WatchRow) (now : Int)
    (scan : ExitScan) (pos : PositionSnapshot) : ℕ :=
  let sym := Casing.upper pos.symbol
  let allowed := bookExitOf views watchlist now pos
  let cur := Dict.get? scan.existing sym
  if |pos.quantity| < 1 / 10 ^ 9 ∨ allowed = .hold ∨ cur.any (·.action.isExit) then 0
  else
    match cur with
    | none => 1
    | some _ => (plansOf scan.updated sym).length

def insertions (views : Dict SymbolQuantView) (watchlist : List WatchRow) (now : Int)
    (s : String) : List PositionSnapshot → ExitScan → ℕ
  | [], _ => 0
  | pos :: positions, scan =>
    (if Casing.upper pos.symbol = s then putIn views watchlist now scan pos else 0) +
      match ensureExit views watchlist now scan pos with
      | none => 0
      | some scan' => insertions views watchlist now s positions scan'

theorem insertions_cons : insertions views watchlist now s (pos :: positions) scan =
    (if Casing.upper pos.symbol = s then putIn views watchlist now scan pos else 0) +
      match ensureExit views watchlist now scan pos with
      | none => 0
      | some scan' => insertions views watchlist now s positions scan' := rfl

theorem putIn_of_not_wantsOut (h : ¬ wantsOut views watchlist now pos) :
    putIn views watchlist now scan pos = 0 := by
  have hstop : |pos.quantity| < 1 / 10 ^ 9 ∨ bookExitOf views watchlist now pos = .hold := by
    by_contra hgo
    push Not at hgo
    exact h ⟨not_lt.mpr hgo.1, hgo.2⟩
  exact if_pos (hstop.imp_right Or.inl)

theorem putIn_of_quits (h : Quits scan (Casing.upper pos.symbol)) :
    putIn views watchlist now scan pos = 0 := by
  obtain ⟨cur, hcur, hexit⟩ := h
  exact if_pos (Or.inr (Or.inr (by rw [hcur]; exact hexit)))

theorem putIn_le_one_iff (h : wantsOut views watchlist now pos)
    (hquits : ¬ Quits scan (Casing.upper pos.symbol)) :
    putIn views watchlist now scan pos ≤ 1 ↔
      ∀ cur ∈ Dict.get? scan.existing (Casing.upper pos.symbol), cur.action.isExit = false →
        (plansOf scan.updated (Casing.upper pos.symbol)).length ≤ 1 := by
  have hnot : ∀ cur ∈ Dict.get? scan.existing (Casing.upper pos.symbol),
      cur.action.isExit = false := by
    intro cur hcur
    by_contra hexit
    exact hquits ⟨cur, hcur, by simpa using hexit⟩
  have hgo : ¬ (|pos.quantity| < 1 / 10 ^ 9 ∨ bookExitOf views watchlist now pos = .hold ∨
      (Dict.get? scan.existing (Casing.upper pos.symbol)).any (·.action.isExit) = true) := by
    rintro (hflat | hhold | hany)
    · exact h.1 hflat
    · exact h.2 hhold
    · exact hquits ((Option.any_eq_true _ _).mp hany)
  unfold putIn
  dsimp only
  rw [if_neg hgo]
  cases hcur : Dict.get? scan.existing (Casing.upper pos.symbol) with
  | none => simp
  | some cur =>
    constructor
    · intro hle _ _ _
      exact hle
    · intro hall
      exact hall cur rfl (hnot cur hcur)

theorem ensureExit_filter {other : String → Bool}
    (h : ensureExit views watchlist now scan pos = some scan')
    (hother : wantsOut views watchlist now pos → other (Casing.upper pos.symbol) = false) :
    scan'.updated.filter (fun p => other (Casing.upper p.symbol)) =
      scan.updated.filter fun p => other (Casing.upper p.symbol) := by
  rcases ensureExit_cases h with ⟨rfl, -⟩ | ⟨plan, -, hsym, -, hout, -, hupdated⟩
  · rfl
  have hplan : other (Casing.upper plan.symbol) = false := by
    rw [hsym, Casing.upper_upper]
    exact hother hout
  rcases hupdated with ⟨-, hadd⟩ | ⟨-, -, -, hmap⟩
  · rw [hadd, List.filter_append, List.filter_cons_of_neg (by simp [hplan]), List.filter_nil,
      List.append_nil]
  · rw [hmap]
    refine filter_replaced hplan fun p hp => ?_
    rw [hp]
    exact hother hout

theorem ensureExit_elsewhere (h : ensureExit views watchlist now scan pos = some scan')
    (hs : Casing.upper pos.symbol ≠ s) :
    Dict.get? scan'.existing s = Dict.get? scan.existing s ∧
      plansOf scan'.updated s = plansOf scan.updated s := by
  refine ⟨?_, @ensureExit_filter _ _ _ _ _ _ _ (fun t => decide (t = s)) h
    fun _ => decide_eq_false hs⟩
  rcases ensureExit_cases h with ⟨rfl, -⟩ | ⟨plan, -, -, -, -, hexisting, -⟩
  · rfl
  · rw [hexisting, Dict.get?_set_of_ne _ _ hs]

theorem insertions_of_quits (h : Quits scan s) :
    insertions views watchlist now s positions scan = 0 := by
  induction positions generalizing scan with
  | nil => rfl
  | cons pos positions ih =>
    have hput : (if Casing.upper pos.symbol = s then putIn views watchlist now scan pos else 0) =
        0 := by
      split
      · rename_i hs
        exact putIn_of_quits (hs ▸ h)
      · rfl
    rw [insertions_cons, hput, Nat.zero_add]
    cases hturn : ensureExit views watchlist now scan pos with
    | none => rfl
    | some scan' =>
      refine ih ?_
      obtain ⟨cur, hcur, hexit⟩ := h
      rcases ensureExit_cases hturn with ⟨rfl, -⟩ | ⟨plan, hplan, -, -, -, hexisting, -⟩
      · exact ⟨cur, hcur, hexit⟩
      · unfold Quits
        rw [hexisting, Dict.get?_set]
        split
        · exact ⟨plan, rfl, hplan⟩
        · exact ⟨cur, hcur, hexit⟩

/-- The pass looks at the last plan of a symbol only, so an earlier one costs a second exit. -/
theorem insertions_le_one_iff
    (h : positions.foldlM (ensureExit views watchlist now) scan = some scan') :
    insertions views watchlist now s positions scan ≤ 1 ↔
      (wanted views watchlist now positions s = true → ∀ cur ∈ Dict.get? scan.existing s,
        cur.action.isExit = false → (plansOf scan.updated s).length ≤ 1) := by
  induction positions generalizing scan with
  | nil =>
    refine iff_of_true (Nat.zero_le 1) fun hwanted => ?_
    obtain ⟨pos, hpos, -⟩ := wanted_iff.mp hwanted
    cases hpos
  | cons pos positions ih =>
    rw [List.foldlM_cons] at h
    obtain ⟨scan₁, h₁, hrest⟩ := Option.bind_eq_some_iff.mp h
    have hinsert : insertions views watchlist now s (pos :: positions) scan =
        (if Casing.upper pos.symbol = s then putIn views watchlist now scan pos else 0) +
          insertions views watchlist now s positions scan₁ := by
      rw [insertions_cons, h₁]
    have hwanted : wanted views watchlist now (pos :: positions) s = true ↔
        (Casing.upper pos.symbol = s ∧ wantsOut views watchlist now pos) ∨
          wanted views watchlist now positions s = true := by
      rw [wanted_iff, wanted_iff, List.exists_mem_cons_iff]
    by_cases hs : Casing.upper pos.symbol = s
    · subst hs
      rw [if_pos rfl] at hinsert
      by_cases hout : wantsOut views watchlist now pos
      · by_cases hquits : Quits scan (Casing.upper pos.symbol)
        · -- the last plan is an exit
          rw [insertions_of_quits hquits]
          refine iff_of_true (Nat.zero_le 1) fun _ cur hcur hnot => ?_
          obtain ⟨cur', hcur', hexit⟩ := hquits
          obtain rfl := Option.some.inj (hcur.symm.trans hcur')
          exact absurd hexit (by rw [hnot]; decide)
        · -- the exit goes in now, and nothing after it
          have hdone : Quits scan₁ (Casing.upper pos.symbol) := by
            rcases ensureExit_cases h₁ with ⟨rfl, hstays⟩ | ⟨plan, hplan, -, -, -, hexisting, -⟩
            · exact absurd (hstays hout) hquits
            · exact ⟨plan, by rw [hexisting, Dict.get?_set_self], hplan⟩
          rw [hinsert, insertions_of_quits hdone, Nat.add_zero, putIn_le_one_iff hout hquits]
          exact (imp_iff_right (hwanted.mpr (Or.inl ⟨rfl, hout⟩))).symm
      · have hsame : scan₁ = scan := by
          rcases ensureExit_cases h₁ with ⟨hsame, -⟩ | ⟨-, -, -, -, hout', -⟩
          · exact hsame
          · exact absurd hout' hout
        rw [hsame] at hinsert hrest
        rw [hinsert, putIn_of_not_wantsOut hout, Nat.zero_add, ih hrest, hwanted,
          or_iff_right fun hpos => hout hpos.2]
    · obtain ⟨hexisting, hplans⟩ := ensureExit_elsewhere h₁ hs
      rw [hinsert, if_neg hs, Nat.zero_add, ih hrest, hexisting, hplans, hwanted,
        or_iff_right fun hpos => hs hpos.1]

end Turns

/-! ## The pass -/

section Pass

variable [Casing] {entry : SymbolAction → Bool} {d d' : CIODecision}
  {views : List SymbolQuantView} {watchlist : List WatchRow} {positions : List PositionSnapshot}
  {now : Int}

abbrev GivenUp (views : List SymbolQuantView) (watchlist : List WatchRow) (now : Int)
    (pos : PositionSnapshot) : Prop :=
  wantsOut (bySymbol (·.symbol) views) watchlist now pos

/-- What the pass is for: what is given up has an exit and no entry, at most one plan is put in for
    a symbol, and the plans of the symbols that are not given up are as they were. -/
structure ExitsEnsured (entry : SymbolAction → Bool) (views : List SymbolQuantView)
    (watchlist : List WatchRow) (positions : List PositionSnapshot) (now : Int)
    (d d' : CIODecision) : Prop where
  exits : ∀ pos ∈ positions, GivenUp views watchlist now pos →
    ∃ p ∈ plansOf d'.symbolActions (Casing.upper pos.symbol), p.action.isExit
  entries : ∀ pos ∈ positions, GivenUp views watchlist now pos →
    ∀ p ∈ plansOf d'.symbolActions (Casing.upper pos.symbol), entry p.action = false
  inserted : ∀ pos ∈ positions, insertions (bySymbol (·.symbol) views) watchlist now
    (Casing.upper pos.symbol) positions (startScan d.symbolActions) ≤ 1
  others : d'.symbolActions.filter (fun p => !wanted (bySymbol (·.symbol) views) watchlist now
      positions (Casing.upper p.symbol)) =
    d.symbolActions.filter fun p => !wanted (bySymbol (·.symbol) views) watchlist now positions
      (Casing.upper p.symbol)

/-- The plan that is listed last is no exit and the only one, or none of the plans is an entry. -/
def MakesWay (entry : SymbolAction → Bool) (d : CIODecision) (s : String) : Prop :=
  if ∃ last ∈ lastPlan d s, last.action.isExit = false then
    (plansOf d.symbolActions s).length ≤ 1
  else ∀ p ∈ plansOf d.symbolActions s, entry p.action = false

section Ensured

variable (h : ensurePlaybookExits d views watchlist positions now = some d')
include h

theorem exits_of_ensure : ∀ pos ∈ positions, GivenUp views watchlist now pos →
    ∃ p ∈ plansOf d'.symbolActions (Casing.upper pos.symbol), p.action.isExit := by
  intro pos hpos hout
  obtain ⟨scan, hscan, hplans, -⟩ := ensurePlaybookExits_eq_some h
  have hcovers : Covers (startScan d.symbolActions) := fun s cur hcur => ⟨cur, mem_of_bySymbol hcur⟩
  have hexit : ExitIn (· = Casing.upper pos.symbol) scan.updated := by
    refine (ensureExits_exit hcovers hscan).mpr ?_
    by_cases hquits : Quits (startScan d.symbolActions) (Casing.upper pos.symbol)
    · obtain ⟨cur, hcur, hexit⟩ := hquits
      obtain ⟨hmem, hsym⟩ := mem_of_bySymbol hcur
      exact Or.inl ⟨cur, hmem, hexit, hsym⟩
    · exact Or.inr ⟨pos, hpos, hout, rfl, hquits⟩
  obtain ⟨p, hp, hexit, hsym⟩ := hexit
  rw [hplans]
  exact ⟨p, List.mem_filter.mpr ⟨hp, decide_eq_true hsym⟩, hexit⟩

theorem others_of_ensure (other : String → Bool)
    (hother : ∀ pos ∈ positions, GivenUp views watchlist now pos →
      other (Casing.upper pos.symbol) = false) :
    d'.symbolActions.filter (fun p => other (Casing.upper p.symbol)) =
      d.symbolActions.filter fun p => other (Casing.upper p.symbol) := by
  obtain ⟨scan, hscan, hplans, -⟩ := ensurePlaybookExits_eq_some h
  rw [hplans]
  exact foldlM_keeps (I := fun scan => scan.updated.filter
      (fun p => other (Casing.upper p.symbol)) =
        d.symbolActions.filter fun p => other (Casing.upper p.symbol))
    (fun _ hkept pos hpos _ hturn => (ensureExit_filter hturn (hother pos hpos)).trans hkept)
    hscan rfl

/-- Entries survive only where the symbol's last plan is an exit already. -/
theorem entries_of_ensure_iff {pos : PositionSnapshot}
    (hentry : ∀ a, entry a = true → a.isExit = false) (hpos : pos ∈ positions)
    (hout : GivenUp views watchlist now pos) :
    (∀ p ∈ plansOf d'.symbolActions (Casing.upper pos.symbol), entry p.action = false) ↔
      ((¬ ∃ last ∈ lastPlan d (Casing.upper pos.symbol), last.action.isExit = false) →
        ∀ p ∈ plansOf d.symbolActions (Casing.upper pos.symbol), entry p.action = false) := by
  obtain ⟨scan, hscan, hplans, -⟩ := ensurePlaybookExits_eq_some h
  have hstays : ∀ p, entry p.action = true → Casing.upper p.symbol = Casing.upper pos.symbol →
      (p ∈ d'.symbolActions ↔ p ∈ d.symbolActions ∧
        ¬ ∃ last ∈ lastPlan d (Casing.upper pos.symbol), last.action.isExit = false) := by
    intro p hp hsym
    rw [hplans, ensureExits_other (hentry _ hp) hscan, hsym]
    exact and_congr_right fun _ => not_congr (and_iff_right ⟨pos, hpos, rfl, hout⟩)
  constructor
  · intro hnone hquits p hp
    obtain ⟨hmem, hsym⟩ := List.mem_filter.mp hp
    by_contra hyes
    have hyes : entry p.action = true := by simpa using hyes
    have hin := (hstays p hyes (of_decide_eq_true hsym)).mpr ⟨hmem, hquits⟩
    exact absurd (hnone p (List.mem_filter.mpr ⟨hin, hsym⟩)) (by rw [hyes]; decide)
  · intro hnone p hp
    obtain ⟨hmem, hsym⟩ := List.mem_filter.mp hp
    by_contra hyes
    have hyes : entry p.action = true := by simpa using hyes
    obtain ⟨hin, hquits⟩ := (hstays p hyes (of_decide_eq_true hsym)).mp hmem
    exact absurd (hnone hquits p (List.mem_filter.mpr ⟨hin, hsym⟩)) (by rw [hyes]; decide)

end Ensured

/-- **When the pass does what it is for.** Exactly if each symbol that is given up makes way: its
    last plan is no exit and its only one, or none of its plans is an entry. Entries are any actions
    without an exit among them, with HEDGE or without. -/
theorem exitsEnsured_iff (entry : SymbolAction → Bool) (d d' : CIODecision)
    (views : List SymbolQuantView) (watchlist : List WatchRow) (positions : List PositionSnapshot)
    (now : Int) (hentry : ∀ a, entry a = true → a.isExit = false)
    (h : ensurePlaybookExits d views watchlist positions now = some d') :
    ExitsEnsured entry views watchlist positions now d d' ↔
      ∀ pos ∈ positions, GivenUp views watchlist now pos →
        MakesWay entry d (Casing.upper pos.symbol) := by
  obtain ⟨scan, hscan, -⟩ := ensurePlaybookExits_eq_some h
  have hinserted := fun s => insertions_le_one_iff (s := s) hscan
  constructor
  · intro hensured pos hpos hout
    unfold MakesWay
    split
    · rename_i hlast
      obtain ⟨last, hget, hnot⟩ := hlast
      exact (hinserted _).mp (hensured.inserted pos hpos)
        (wanted_iff.mpr ⟨pos, hpos, rfl, hout⟩) last hget hnot
    · rename_i hquits
      exact (entries_of_ensure_iff h hentry hpos hout).mp (hensured.entries pos hpos hout) hquits
  · intro hway
    refine ⟨exits_of_ensure h, fun pos hpos hout => ?_, fun pos hpos => ?_, ?_⟩
    · refine (entries_of_ensure_iff h hentry hpos hout).mpr fun hquits => ?_
      have hmakes := hway pos hpos hout
      unfold MakesWay at hmakes
      rw [if_neg hquits] at hmakes
      exact hmakes
    · refine (hinserted _).mpr fun hwanted last hget hnot => ?_
      obtain ⟨pos', hpos', hsym, hout⟩ := wanted_iff.mp hwanted
      have hmakes := hway pos' hpos' hout
      unfold MakesWay at hmakes
      rw [hsym, if_pos ⟨last, hget, hnot⟩] at hmakes
      exact hmakes
    · refine others_of_ensure h (fun s => !wanted _ watchlist now positions s) ?_
      intro pos hpos hout
      rw [wanted_iff.mpr ⟨pos, hpos, rfl, hout⟩]
      rfl

end Pass

/-! ## Two mixes of plans -/

section Sample

attribute [local instance] asciiCasing

def fallingView (symbol : String) : SymbolQuantView :=
  { risingView symbol with trendState := .down }

def aaplPlans (actions : List SymbolAction) : CIODecision :=
  decisionOf .hold (actions.map (planOf "AAPL"))

def ensuredPlans (actions : List SymbolAction) : Option CIODecision :=
  ensurePlaybookExits (aaplPlans actions) [fallingView "AAPL"] [] [sharesOf "AAPL" 10] 0

abbrev PlansEnsured (actions : List SymbolAction) (d' : CIODecision) : Prop :=
  ExitsEnsured SymbolAction.isBuyEntry [fallingView "AAPL"] [] [sharesOf "AAPL" 10] 0
    (aaplPlans actions) d'

theorem givenUp_aapl : GivenUp [fallingView "AAPL"] [] 0 (sharesOf "AAPL" 10) := by
  decide +kernel

/-- **A BUY before the SELL stays, and two HOLDs become two exits.** -/
theorem ensuredPlans_mixed :
    (∃ d', ensuredPlans [.buy, .sell] = some d' ∧ ¬ PlansEnsured [.buy, .sell] d') ∧
    ∃ d', ensuredPlans [.hold, .hold] = some d' ∧ ¬ PlansEnsured [.hold, .hold] d' := by
  refine ⟨⟨aaplPlans [.buy, .sell], by decide +kernel, fun h => ?_⟩, ?_⟩
  · have hentry := h.entries _ (List.mem_singleton_self _) givenUp_aapl (planOf "AAPL" .buy)
      (by decide +kernel)
    cases hentry
  · obtain ⟨d', hd'⟩ := Option.isSome_iff_exists.mp
      (show (ensuredPlans [.hold, .hold]).isSome by decide +kernel)
    refine ⟨d', hd', fun h => ?_⟩
    have htwo := h.inserted _ (List.mem_singleton_self _)
    revert htwo
    decide +kernel

def ensuredHold : CIODecision := (ensuredPlans [.hold]).getD (aaplPlans [])

theorem exitsEnsured_iff_hold :
    PlansEnsured [.hold] ensuredHold ↔
      ∀ pos ∈ [sharesOf "AAPL" 10], GivenUp [fallingView "AAPL"] [] 0 pos →
        MakesWay SymbolAction.isBuyEntry (aaplPlans [.hold]) (Casing.upper pos.symbol) :=
  exitsEnsured_iff _ _ _ _ _ _ _
    (fun _ h => isExit_of_isEntry (SymbolAction.isEntry_of_isBuyEntry h)) (by decide +kernel)

end Sample

end Investor.Agents
