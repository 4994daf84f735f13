import Investor.Agents.PlansLeft
import Mathlib.Data.Finset.Card

/-!
# What the setups may spend

`ensure_cio_takes_setups` walks through the ranked views and takes a new name as long as four
budgets allow it: the cash above the floor, the room of its sleeve, the new names of its book in a
cycle, and the open positions of its horizon. `RoomHolds` says what the walk carries along: each
counter is the one it began with and what the names taken so far add to it. A turn keeps that
(`takeSetup_holds`), and so does the walk.

The rooms are rounded to two places before a name is sized, so cash and sleeve may be exceeded by
half a unit of the last place, and by no more (`topUp_lawful`). A name that is taken replaces what
the decision says of it. It is not held, so no exit of a position is lost.
-/

namespace Investor.Agents

open Lib Schema Market Universe

section TopUp

/-! ## What is counted -/

variable {hz : String}

section

variable [Casing]

def inSleeve (watchlist : List WatchRow) (hz : String) (plans : List SymbolActionPlan) :
    List SymbolActionPlan :=
  plans.filter fun p => horizonForSymbol p.symbol watchlist = hz

def targets (plans : List SymbolActionPlan) : ℚ := (plans.map (·.targetPositionPct)).sum

def entering (d : CIODecision) : List SymbolActionPlan := d.symbolActions.filter (·.action.isBuyEntry)

def heldWeight (scope : SetupScope) (pos : PositionSnapshot) : ℚ :=
  if |pos.weightPct| ≤ 0 then scope.maxPositionPct else |pos.weightPct|

def sleeveHeld (scope : SetupScope) (positions : List PositionSnapshot) (hz : String) : ℚ :=
  (((positions.filter (·.isHeld)).filter fun p =>
    horizonForSymbol p.symbol scope.watchlist = hz).map (heldWeight scope)).sum

def bookNames (d : CIODecision) (positions : List PositionSnapshot) : List String :=
  ((positions.filter (·.isHeld)).map fun p => Casing.upper p.symbol) ++
    (entering d).map fun p => Casing.upper p.symbol

def namesIn (watchlist : List WatchRow) (hz : String) (names : List String) : ℕ :=
  (names.toFinset.filter fun s => s ≠ "" ∧ horizonForSymbol s watchlist = hz).card

/-- The plans that `ensure_cio_takes_setups` adds. -/
def addedSetups (scope : SetupScope) (d : CIODecision) (views : List SymbolQuantView)
    (positions : List PositionSnapshot) (riskOk enabled : Bool) (cashPct minCashPct : ℚ) :
    List SymbolActionPlan :=
  if !enabled || !riskOk || !d.riskApproval then []
  else extraSetups scope d views positions cashPct minCashPct

/-- The added plans are of new names and keep the four budgets, cash and sleeves up to `slack`. -/
structure LawfulTopUp (scope : SetupScope) (d : CIODecision) (positions : List PositionSnapshot)
    (cashPct minCashPct slack : ℚ) (added : List SymbolActionPlan) : Prop where
  distinct : (added.map fun p => Casing.upper p.symbol).Nodup
  fresh : ∀ p ∈ added, Casing.upper p.symbol ∉ bookNames d positions
  cash : added ≠ [] →
    targets added ≤ deployableCashPct cashPct minCashPct - targets (entering d) + slack
  sleeve : ∀ hz, inSleeve scope.watchlist hz added ≠ [] →
    sleeveHeld scope positions hz + targets (inSleeve scope.watchlist hz (entering d)) +
      targets (inSleeve scope.watchlist hz added) ≤ sleeveCeiling hz + slack
  cycle : ∀ hz book, playbookFor hz = some book → inSleeve scope.watchlist hz added ≠ [] →
    (inSleeve scope.watchlist hz (entering d)).length +
      (inSleeve scope.watchlist hz added).length ≤ book.maxNewPerCycle
  slots : ∀ hz policy, policyFor hz = some policy → inSleeve scope.watchlist hz added ≠ [] →
    namesIn scope.watchlist hz (bookNames d positions ++ added.map fun p => Casing.upper p.symbol) ≤
      policy.maxPositions

def KeepsExits (d out : CIODecision) : Prop :=
  ∀ p ∈ d.symbolActions, p.action.isExit → p ∈ out.symbolActions

/-! ## The text of a horizon -/

theorem horizonForSymbol_cases (symbol : String) (watchlist : List WatchRow) :
    (∃ row ∈ watchlist, Casing.lower (strip row.horizon) ≠ "" ∧
      horizonForSymbol symbol watchlist = Casing.lower (strip row.horizon)) ∨
    ∃ h : UniverseHorizon, horizonForSymbol symbol watchlist = h.value := by
  unfold horizonForSymbol
  dsimp only
  split
  · rename_i row rows hrows
    have hrow : row ∈ watchlist.filter fun row => Casing.upper row.symbol = Casing.upper symbol ∧
        Casing.lower (strip row.horizon) ≠ "" := by
      rw [hrows]
      exact List.mem_cons_self
    have hkept := of_decide_eq_true (List.mem_filter.mp hrow).2
    exact Or.inl ⟨row, (List.mem_filter.mp hrow).1, hkept.2, rfl⟩
  · right
    cases hassigned : assignedHorizon (Casing.upper symbol) with
    | some forced =>
      unfold assignedHorizon at hassigned
      dsimp only at hassigned
      split at hassigned
      · cases hassigned
        exact ⟨.medium, rfl⟩
      · split at hassigned
        · cases hassigned
          exact ⟨.scalp, rfl⟩
        · split at hassigned
          · cases hassigned
            exact ⟨.day, rfl⟩
          · cases hassigned
    | none =>
      dsimp only
      cases hdefault : Dict.get? DEFAULT_HORIZON (Casing.upper symbol) with
      | none => exact ⟨.short, rfl⟩
      | some hz =>
        have hnames : ∀ e ∈ DEFAULT_HORIZON, ∃ h ∈ [UniverseHorizon.scalp, .day, .short, .medium],
            e.2 = h.value := by
          decide
        obtain ⟨h, _, hvalue⟩ := hnames _ (Dict.mem_of_get? hdefault)
        exact ⟨h, hvalue⟩

theorem horizonForSymbol_text (symbol : String) (watchlist : List WatchRow) :
    horizonForSymbol symbol watchlist ≠ "" ∧
      Casing.lower (horizonForSymbol symbol watchlist) = horizonForSymbol symbol watchlist := by
  rcases horizonForSymbol_cases symbol watchlist with ⟨row, _, hne, htext⟩ | ⟨h, hvalue⟩
  · rw [htext]
    exact ⟨hne, Casing.lower_lower _⟩
  · rw [hvalue]
    refine ⟨?_, lower_value h⟩
    cases h <;> decide

theorem horizonForSymbol_upper (symbol : String) (watchlist : List WatchRow) :
    horizonForSymbol (Casing.upper symbol) watchlist = horizonForSymbol symbol watchlist := by
  unfold horizonForSymbol
  rw [Casing.upper_upper]

/-! ## The size of one name -/

theorem onGrid_entryNotionalPct (hz : String) (used maxPosition target : ℚ) :
    OnGrid 2 (entryNotionalPct hz used maxPosition target) := by
  unfold entryNotionalPct
  dsimp only
  split
  · exact onGrid_zero 2
  · exact onGrid_roundTo 2 _

theorem entryNotionalPct_le {used maxPosition target : ℚ}
    (hpos : 0 < entryNotionalPct hz used maxPosition target) :
    used + entryNotionalPct hz used maxPosition target ≤ sleeveCeiling hz + 1 / 200 := by
  unfold entryNotionalPct at hpos ⊢
  dsimp only at hpos ⊢
  split at hpos
  · exact absurd hpos (lt_irrefl 0)
  · rename_i hroom
    have hroom : 0 < sleeveRoom hz used := by
      by_contra h
      exact hroom (Or.inl (not_lt.mp h))
    rw [if_neg ‹_›]
    have hround : sleeveRoom hz used = roundTo 2 (sleeveCeiling hz - used) := by
      unfold sleeveRoom at hroom ⊢
      rcases max_choice 0 (roundTo 2 (sleeveCeiling hz - used)) with h | h
      · rw [h] at hroom
        exact absurd hroom (lt_irrefl 0)
      · exact h
    have hle : roundTo 2 (min (min maxPosition target) (sleeveRoom hz used)) ≤
        roundTo 2 (sleeveCeiling hz - used) := by
      calc roundTo 2 (min (min maxPosition target) (sleeveRoom hz used))
          ≤ roundTo 2 (sleeveRoom hz used) := roundTo_mono 2 (min_le_right _ _)
        _ = roundTo 2 (sleeveCeiling hz - used) := by
          rw [hround, roundTo_of_onGrid (onGrid_roundTo 2 _)]
    have hnear := (abs_le.mp (abs_roundTo_sub_le 2 (sleeveCeiling hz - used))).2
    norm_num at hnear
    linarith

end

/-! ## One turn -/

variable {scope : SetupScope} {start room : SetupRoom}

def takenRoom [Casing] (scope : SetupScope) (room : SetupRoom) (view : SymbolQuantView)
    (book : BookPlaybook)
    (zone : PriceZone) (stop size : ℚ) : SetupRoom :=
  let sym := Casing.upper view.symbol
  let hz := horizonForSymbol sym scope.watchlist
  { held := room.held ++ [sym]
    horizonOf := Dict.set room.horizonOf sym hz
    newCounts := Dict.set room.newCounts hz ((Dict.get? room.newCounts hz).getD 0 + 1)
    used := Dict.set room.used hz ((Dict.get? room.used hz).getD 0 + size)
    cashLeft := roundTo 2 (room.cashLeft - size)
    plans := room.plans ++ [setupPlan sym view book zone stop size] }

def setupSize [Casing] (scope : SetupScope) (room : SetupRoom) (hz : String) (book : BookPlaybook) : ℚ :=
  roundTo 2 (min (entryNotionalPct hz ((Dict.get? room.used hz).getD 0) scope.maxPositionPct
    book.targetSizePct) room.cashLeft)

theorem takeSetup_taken [Casing] (scope : SetupScope) (room : SetupRoom) (view : SymbolQuantView) :
    takeSetup scope room view = room ∨
    ∃ book zone stop, 
      playbookFor (horizonForSymbol (Casing.upper view.symbol) scope.watchlist) = some book ∧
      Casing.upper view.symbol ≠ "" ∧ Casing.upper view.symbol ∉ room.held ∧
      (Dict.get? room.newCounts
        (horizonForSymbol (Casing.upper view.symbol) scope.watchlist)).getD 0 < book.maxNewPerCycle ∧
      horizonCapViolation (Casing.upper view.symbol)
        (Dict.set room.horizonOf (Casing.upper view.symbol)
          (horizonForSymbol (Casing.upper view.symbol) scope.watchlist)) room.held = none ∧
      1 ≤ setupSize scope room (horizonForSymbol (Casing.upper view.symbol) scope.watchlist) book ∧
      takeSetup scope room view = takenRoom scope room view book zone stop
        (setupSize scope room (horizonForSymbol (Casing.upper view.symbol) scope.watchlist) book) := by
  unfold takeSetup
  dsimp only
  split
  · rename_i book zone stop hbook _ _
    split
    · exact Or.inl rfl
    · rename_i hname
      push Not at hname
      split
      · exact Or.inl rfl
      · split
        · exact Or.inl rfl
        · split
          · exact Or.inl rfl
          · rename_i hcycle
            split
            · exact Or.inl rfl
            · rename_i hcap
              split
              · exact Or.inl rfl
              · rename_i hsize
                refine Or.inr ⟨book, zone, stop, hbook, hname.1, hname.2.1, not_le.mp hcycle, ?_,
                  not_lt.mp hsize, rfl⟩
                simpa using hcap
  · exact Or.inl rfl

structure RoomHolds [Casing] (scope : SetupScope) (start room : SetupRoom) : Prop where
  symbols : ∀ p ∈ room.plans, Casing.upper p.symbol = p.symbol ∧ p.symbol ≠ ""
  upperHeld : ∀ s ∈ room.held, Casing.upper s = s
  held : room.held = start.held ++ room.plans.map (·.symbol)
  nodup : (room.plans.map (·.symbol)).Nodup
  fresh : ∀ p ∈ room.plans, p.symbol ∉ start.held
  cash : room.cashLeft = start.cashLeft - targets room.plans
  onGrid : OnGrid 2 room.cashLeft
  nonneg : 0 ≤ room.cashLeft
  used : ∀ hz, (Dict.get? room.used hz).getD 0 =
    (Dict.get? start.used hz).getD 0 + targets (inSleeve scope.watchlist hz room.plans)
  counts : ∀ hz, (Dict.get? room.newCounts hz).getD 0 =
    (Dict.get? start.newCounts hz).getD 0 + (inSleeve scope.watchlist hz room.plans).length
  horizons : ∀ s ∈ room.held, Dict.get? room.horizonOf s = some (horizonForSymbol s scope.watchlist)
  sleeve : ∀ hz, inSleeve scope.watchlist hz room.plans ≠ [] →
    (Dict.get? room.used hz).getD 0 ≤ sleeveCeiling hz + 1 / 200
  cycle : ∀ hz book, playbookFor hz = some book → inSleeve scope.watchlist hz room.plans ≠ [] →
    (Dict.get? room.newCounts hz).getD 0 ≤ book.maxNewPerCycle
  slots : ∀ hz policy, policyFor hz = some policy → inSleeve scope.watchlist hz room.plans ≠ [] →
    namesIn scope.watchlist hz room.held ≤ policy.maxPositions

section Turn

variable {view : SymbolQuantView} {book : BookPlaybook} {zone : PriceZone} {stop size : ℚ}

variable {sym : String}

theorem setupPlan_symbol [Casing] :
    (setupPlan sym view book zone stop size).symbol = sym := rfl

theorem setupPlan_target [Casing] :
    (setupPlan sym view book zone stop size).targetPositionPct = size := rfl

variable {watchlist : List WatchRow}

theorem inSleeve_append [Casing] {plans plans' : List SymbolActionPlan} :
    inSleeve watchlist hz (plans ++ plans') =
      inSleeve watchlist hz plans ++ inSleeve watchlist hz plans' :=
  List.filter_append ..

theorem inSleeve_singleton [Casing] {plan : SymbolActionPlan} :
    inSleeve watchlist hz [plan] =
      if horizonForSymbol plan.symbol watchlist = hz then [plan] else [] := by
  unfold inSleeve
  rw [List.filter_singleton]
  by_cases h : horizonForSymbol plan.symbol watchlist = hz <;> simp [h]

theorem targets_append {plans plans' : List SymbolActionPlan} :
    targets (plans ++ plans') = targets plans + targets plans' := by
  unfold targets
  rw [List.map_append, List.sum_append]

theorem namesIn_snoc [Casing] {names : List String} (hnew : sym ∉ names) (hne : sym ≠ "") :
    namesIn watchlist hz (names ++ [sym]) =
      namesIn watchlist hz names + if horizonForSymbol sym watchlist = hz then 1 else 0 := by
  unfold namesIn
  have hset : (names ++ [sym]).toFinset = insert sym names.toFinset := by
    ext s
    simp
  have hnotin : sym ∉ names.toFinset.filter fun s => s ≠ "" ∧ horizonForSymbol s watchlist = hz :=
    fun h => hnew (List.mem_toFinset.mp (Finset.mem_filter.mp h).1)
  rw [hset, Finset.filter_insert]
  by_cases h : horizonForSymbol sym watchlist = hz
  · rw [if_pos ⟨hne, h⟩, if_pos h, Finset.card_insert_of_notMem hnotin]
  · rw [if_neg fun h' => h h'.2, if_neg h, Nat.add_zero]

theorem namesIn_lt_of_no_violation [Casing] {policy : HorizonPolicy}
    (hupper : Casing.upper sym = sym) (hheld : ∀ s ∈ room.held, Casing.upper s = s)
    (hhorizons : ∀ s ∈ room.held,
      Dict.get? room.horizonOf s = some (horizonForSymbol s scope.watchlist))
    (hnew : sym ∉ room.held)
    (hpolicy : policyFor (horizonForSymbol sym scope.watchlist) = some policy)
    (hcap : horizonCapViolation sym
      (Dict.set room.horizonOf sym (horizonForSymbol sym scope.watchlist)) room.held = none) :
    namesIn scope.watchlist (horizonForSymbol sym scope.watchlist) room.held <
      policy.maxPositions := by
  have htext : ∀ s, Dict.get? (Dict.set room.horizonOf sym
        (horizonForSymbol sym scope.watchlist)) s = some (horizonForSymbol s scope.watchlist) →
      horizonText (Dict.set room.horizonOf sym (horizonForSymbol sym scope.watchlist)) s =
        horizonForSymbol s scope.watchlist := by
    intro s hs
    obtain ⟨hne, hlower⟩ := horizonForSymbol_text s scope.watchlist
    unfold horizonText
    rw [hs]
    simp [hne, hlower]
  have hkeep : ∀ s ∈ room.held, horizonText (Dict.set room.horizonOf sym
      (horizonForSymbol sym scope.watchlist)) s = horizonForSymbol s scope.watchlist := by
    intro s hs
    refine htext s ?_
    have hother : sym ≠ s := by
      intro heq
      exact hnew (heq ▸ hs)
    rw [Dict.get?_set_of_ne _ _ hother]
    exact hhorizons s hs
  have hnames : (room.held.filter (· ≠ "")).map Casing.upper = room.held.filter (· ≠ "") := by
    calc (room.held.filter (· ≠ "")).map Casing.upper
        = (room.held.filter (· ≠ "")).map id :=
          List.map_congr_left fun s hs => hheld s (List.mem_filter.mp hs).1
      _ = room.held.filter (· ≠ "") := List.map_id _
  unfold horizonCapViolation at hcap
  dsimp only at hcap
  rw [hupper, htext sym (Dict.get?_set_self _ _ _), hpolicy, hnames] at hcap
  dsimp only at hcap
  rw [if_neg fun h => hnew (List.mem_filter.mp (List.mem_dedup.mp h)).1] at hcap
  split at hcap
  · cases hcap
  · rename_i hlt
    have hcount : countOpenByHorizon (room.held.filter (· ≠ "")).dedup
        (Dict.set room.horizonOf sym (horizonForSymbol sym scope.watchlist))
        (horizonForSymbol sym scope.watchlist) =
        namesIn scope.watchlist (horizonForSymbol sym scope.watchlist) room.held := by
      unfold countOpenByHorizon namesIn
      rw [← List.toFinset_card_of_nodup ((List.nodup_dedup _).filter _)]
      congr 1
      ext s
      simp only [List.mem_toFinset, List.mem_filter, List.mem_dedup, Finset.mem_filter,
        decide_eq_true_eq]
      constructor
      · intro h
        exact ⟨h.1.1, h.2.1, (hkeep s h.1.1).symm.trans h.2.2⟩
      · intro h
        exact ⟨⟨h.1, h.2.1⟩, h.2.1, (hkeep s h.1).trans h.2.2⟩
    rw [← hcount]
    exact not_le.mp hlt

theorem inSleeve_taken [Casing] :
    inSleeve scope.watchlist hz (takenRoom scope room view book zone stop size).plans =
      inSleeve scope.watchlist hz room.plans ++
        if horizonForSymbol (Casing.upper view.symbol) scope.watchlist = hz then
          [setupPlan (Casing.upper view.symbol) view book zone stop size] else [] := by
  unfold takenRoom
  dsimp only
  rw [inSleeve_append, inSleeve_singleton, setupPlan_symbol]

theorem setupSize_spec [Casing] (hgrid : OnGrid 2 room.cashLeft)
    (hsize : 1 ≤ setupSize scope room hz book) :
    OnGrid 2 (setupSize scope room hz book) ∧ setupSize scope room hz book ≤ room.cashLeft ∧
      (Dict.get? room.used hz).getD 0 + setupSize scope room hz book ≤
        sleeveCeiling hz + 1 / 200 := by
  have hentry := onGrid_entryNotionalPct hz ((Dict.get? room.used hz).getD 0) scope.maxPositionPct
    book.targetSizePct
  have hexact : setupSize scope room hz book =
      min (entryNotionalPct hz ((Dict.get? room.used hz).getD 0) scope.maxPositionPct
        book.targetSizePct) room.cashLeft := roundTo_of_onGrid (hentry.min hgrid)
  have hle := min_le_left (entryNotionalPct hz ((Dict.get? room.used hz).getD 0)
    scope.maxPositionPct book.targetSizePct) room.cashLeft
  rw [hexact] at hsize ⊢
  refine ⟨hentry.min hgrid, min_le_right _ _, ?_⟩
  have hroom := entryNotionalPct_le (lt_of_lt_of_le one_pos (hsize.trans hle))
  linarith

/-- **A turn keeps what the walk carries along.** -/
theorem takeSetup_holds [Casing] (h : RoomHolds scope start room) (view : SymbolQuantView) :
    RoomHolds scope start (takeSetup scope room view) := by
  rcases takeSetup_taken scope room view with hsame | htaken
  · rwa [hsame]
  · obtain ⟨book, zone, stop, hbook, hne, hnew, hcycle, hcap, hsize, heq⟩ := htaken
    obtain ⟨hgrid, hcash, hsleeve⟩ := setupSize_spec h.onGrid hsize
    rw [heq]
    have hnotin : Casing.upper view.symbol ∉ start.held ∧
        Casing.upper view.symbol ∉ room.plans.map (·.symbol) := by
      rw [h.held, List.mem_append, not_or] at hnew
      exact hnew
    refine
      { symbols := ?_, upperHeld := ?_, held := ?_, nodup := ?_, fresh := ?_, cash := ?_,
        onGrid := onGrid_roundTo 2 _, nonneg := ?_, used := ?_, counts := ?_, horizons := ?_,
        sleeve := ?_, cycle := ?_, slots := ?_ }
    · intro p hp
      rcases List.mem_append.mp hp with hp | hp
      · exact h.symbols p hp
      · rw [List.mem_singleton.mp hp]
        exact ⟨Casing.upper_upper _, hne⟩
    · intro s hs
      rcases List.mem_append.mp hs with hs | hs
      · exact h.upperHeld s hs
      · rw [List.mem_singleton.mp hs, Casing.upper_upper]
    · unfold takenRoom
      dsimp only
      rw [h.held, List.map_append, List.append_assoc]
      rfl
    · unfold takenRoom
      dsimp only
      rw [List.map_append, List.nodup_append]
      refine ⟨h.nodup, List.nodup_singleton _, ?_⟩
      intro a ha b hb hab
      rw [List.map_singleton, List.mem_singleton, setupPlan_symbol] at hb
      exact hnotin.2 (hb ▸ hab ▸ ha)
    · intro p hp
      rcases List.mem_append.mp hp with hp | hp
      · exact h.fresh p hp
      · rw [List.mem_singleton.mp hp]
        exact hnotin.1
    · unfold takenRoom
      dsimp only
      rw [roundTo_of_onGrid (h.onGrid.sub hgrid), h.cash, targets_append]
      unfold targets
      rw [List.map_singleton, List.sum_singleton, setupPlan_target]
      ring
    · unfold takenRoom
      dsimp only
      rw [roundTo_of_onGrid (h.onGrid.sub hgrid)]
      linarith
    · intro hz
      rw [inSleeve_taken, targets_append, ← add_assoc, ← h.used]
      refine (Dict.getD_set_add _ _ _ _).trans ?_
      congr 1
      split
      · unfold targets
        rw [List.map_singleton, List.sum_singleton, setupPlan_target]
      · rfl
    · intro hz
      rw [inSleeve_taken, List.length_append, ← add_assoc, ← h.counts]
      refine (Dict.getD_set_add _ _ _ _).trans ?_
      congr 1
      split <;> rfl
    · intro s hs
      rcases List.mem_append.mp hs with hs | hs
      · have hother : Casing.upper view.symbol ≠ s := by
          intro hsame
          exact hnew (hsame ▸ hs)
        exact (Dict.get?_set_of_ne _ _ hother).trans (h.horizons s hs)
      · rw [List.mem_singleton.mp hs]
        exact Dict.get?_set_self _ _ _
    · intro hz hsome
      refine (Dict.getD_set_add _ _ _ _).trans_le ?_
      rw [inSleeve_taken] at hsome
      split
      · rename_i hsame
        rwa [← hsame]
      · rename_i hother
        rw [if_neg hother, List.append_nil] at hsome
        rw [add_zero]
        exact h.sleeve hz hsome
    · intro hz book' hbook' hsome
      refine (Dict.getD_set_add _ _ _ _).trans_le ?_
      rw [inSleeve_taken] at hsome
      split
      · rename_i hsame
        rw [← hsame, hbook] at hbook'
        cases hbook'
        rw [← hsame]
        exact hcycle
      · rename_i hother
        rw [if_neg hother, List.append_nil] at hsome
        rw [add_zero]
        exact h.cycle hz book' hbook' hsome
    · intro hz policy hpolicy hsome
      refine (namesIn_snoc hnew hne).trans_le ?_
      rw [inSleeve_taken] at hsome
      split
      · rename_i hsame
        rw [← hsame] at hpolicy ⊢
        exact namesIn_lt_of_no_violation (Casing.upper_upper _) h.upperHeld h.horizons hnew hpolicy hcap
      · rename_i hother
        rw [if_neg hother, List.append_nil] at hsome
        exact h.slots hz policy hpolicy hsome

end Turn

/-! ## The walk -/

theorem takeSetups_holds [Casing] (h : RoomHolds scope start room) (views : List SymbolQuantView) :
    RoomHolds scope start (views.foldl (takeSetup scope) room) := by
  induction views generalizing room with
  | nil => exact h
  | cons view views ih => exact ih (takeSetup_holds h view)

def startRoom [Casing] (scope : SetupScope) (heldSymbols : List String) (newCounts : Dict ℕ)
    (sleeveUsed : Dict ℚ) (cashRoomPct : ℚ) : SetupRoom :=
  let held := heldSymbols.map Casing.upper
  { held, horizonOf := Dict.ofPairs (held.map fun s => (s, horizonForSymbol s scope.watchlist)),
    newCounts, used := sleeveUsed, cashLeft := cashRoomPct, plans := [] }

theorem startRoom_holds [Casing] {heldSymbols : List String} {newCounts : Dict ℕ} {sleeveUsed : Dict ℚ}
    {cashRoomPct : ℚ} (hgrid : OnGrid 2 cashRoomPct) (hnonneg : 0 ≤ cashRoomPct) :
    RoomHolds scope (startRoom scope heldSymbols newCounts sleeveUsed cashRoomPct)
      (startRoom scope heldSymbols newCounts sleeveUsed cashRoomPct) := by
  refine
    { symbols := by simp [startRoom], upperHeld := ?_, held := by simp [startRoom],
      nodup := List.nodup_nil, fresh := by simp [startRoom], cash := by simp [startRoom, targets],
      onGrid := hgrid, nonneg := hnonneg, used := by simp [startRoom, inSleeve, targets],
      counts := by simp [startRoom, inSleeve], horizons := ?_, sleeve := by simp [startRoom, inSleeve],
      cycle := by simp [startRoom, inSleeve], slots := by simp [startRoom, inSleeve] }
  · intro s hs
    obtain ⟨t, -, rfl⟩ := List.mem_map.mp hs
    exact Casing.upper_upper t
  · intro s hs
    exact Dict.get?_ofPairs_map hs

/-! ## The plans that are added -/

variable {d : CIODecision} {views : List SymbolQuantView} {positions : List PositionSnapshot}
  {cashPct minCashPct : ℚ} {riskOk enabled : Bool}

variable [Casing]

theorem upper_bookNames : ∀ s ∈ bookNames d positions, Casing.upper s = s := by
  intro s hs
  rcases List.mem_append.mp hs with hs | hs
  · obtain ⟨p, -, rfl⟩ := List.mem_map.mp hs
    exact Casing.upper_upper p.symbol
  · obtain ⟨p, -, rfl⟩ := List.mem_map.mp hs
    exact Casing.upper_upper p.symbol

theorem extraSetups_holds (hsome : extraSetups scope d views positions cashPct minCashPct ≠ []) :
    ∃ start room, RoomHolds scope start room ∧
      room.plans = extraSetups scope d views positions cashPct minCashPct ∧
      start.held = bookNames d positions ∧
      start.cashLeft = roundTo 2 (deployableCashPct cashPct minCashPct - targets (entering d)) ∧
      (∀ hz, (Dict.get? start.used hz).getD 0 = sleeveHeld scope positions hz +
        targets (inSleeve scope.watchlist hz (entering d))) ∧
      ∀ hz, (Dict.get? start.newCounts hz).getD 0 =
        (inSleeve scope.watchlist hz (entering d)).length := by
  unfold extraSetups at hsome ⊢
  dsimp only at hsome ⊢
  split at hsome
  · exact absurd rfl hsome
  · rename_i hcash
    rw [if_neg hcash]
    refine ⟨_, _, takeSetups_holds (startRoom_holds (onGrid_roundTo 2 _) ?_) _, rfl, ?_, rfl, ?_, ?_⟩
    · exact zero_le_one.trans (not_lt.mp hcash)
    · show (bookNames d positions).map Casing.upper = bookNames d positions
      calc (bookNames d positions).map Casing.upper
          = (bookNames d positions).map id := List.map_congr_left upper_bookNames
        _ = bookNames d positions := List.map_id _
    · intro hz
      refine (Dict.getD_foldl_set_add (fun p : SymbolActionPlan =>
        horizonForSymbol p.symbol scope.watchlist) (·.targetPositionPct) (entering d) _ hz).trans ?_
      congr 1
      refine (Dict.getD_foldl_set_add (fun p : PositionSnapshot =>
        horizonForSymbol p.symbol scope.watchlist) (heldWeight scope)
        (positions.filter (·.isHeld)) [] hz).trans ?_
      exact zero_add _
    · intro hz
      refine (Dict.getD_foldl_set_add (fun p : SymbolActionPlan =>
        horizonForSymbol p.symbol scope.watchlist) (fun _ => 1) (entering d) [] hz).trans ?_
      simp [inSleeve]

theorem lawful_nil : LawfulTopUp scope d positions cashPct minCashPct (1 / 200) [] := by
  constructor <;> simp [inSleeve]

/-- The added setups keep every budget. -/
theorem lawful_extraSetups :
    LawfulTopUp scope d positions cashPct minCashPct (1 / 200)
      (extraSetups scope d views positions cashPct minCashPct) := by
  by_cases hsome : extraSetups scope d views positions cashPct minCashPct = []
  · rw [hsome]
    exact lawful_nil
  · obtain ⟨start, room, h, hplans, hheld, hcash, hused, hcounts⟩ := extraSetups_holds hsome
    rw [← hplans]
    have hsymbols : (room.plans.map fun p => Casing.upper p.symbol) = room.plans.map (·.symbol) :=
      List.map_congr_left fun p hp => (h.symbols p hp).1
    refine
      { distinct := ?_, fresh := ?_, cash := ?_, sleeve := ?_, cycle := ?_, slots := ?_ }
    · rw [hsymbols]
      exact h.nodup
    · intro p hp
      rw [(h.symbols p hp).1, ← hheld]
      exact h.fresh p hp
    · intro _
      have hleft := h.nonneg
      rw [h.cash, hcash] at hleft
      have hnear := (abs_le.mp (abs_roundTo_sub_le 2
        (deployableCashPct cashPct minCashPct - targets (entering d)))).2
      norm_num at hnear
      linarith
    · intro hz hin
      rw [← hused, ← h.used]
      exact h.sleeve hz hin
    · intro hz book hbook hin
      rw [← hcounts, ← h.counts]
      exact h.cycle hz book hbook hin
    · intro hz policy hpolicy hin
      rw [hsymbols, ← hheld, ← h.held]
      exact h.slots hz policy hpolicy hin

/-- **The setups a decision is topped up with**: they come behind what is kept of it, are of new
names and keep every budget, up to half a unit of the second place; and an exit is only replaced
where its name is taken. -/
theorem topUp_lawful (scope : SetupScope) (d : CIODecision) (views : List SymbolQuantView)
    (positions : List PositionSnapshot) (riskOk enabled : Bool) (cashPct minCashPct : ℚ) :
    (∃ kept, kept.Sublist d.symbolActions ∧
      (ensureCioTakesSetups scope d views positions riskOk enabled cashPct minCashPct).symbolActions =
        kept ++ addedSetups scope d views positions riskOk enabled cashPct minCashPct) ∧
    LawfulTopUp scope d positions cashPct minCashPct (1 / 200)
      (addedSetups scope d views positions riskOk enabled cashPct minCashPct) ∧
    ∀ p ∈ d.symbolActions, p.action.isExit →
      p ∈ (ensureCioTakesSetups scope d views positions riskOk enabled cashPct
        minCashPct).symbolActions ∨
      (Casing.upper p.symbol ∉ bookNames d positions ∧
        ∃ q ∈ addedSetups scope d views positions riskOk enabled cashPct minCashPct,
          Casing.upper q.symbol = Casing.upper p.symbol) := by
  have hlawful : LawfulTopUp scope d positions cashPct minCashPct (1 / 200)
      (addedSetups scope d views positions riskOk enabled cashPct minCashPct) := by
    unfold addedSetups
    split
    · exact lawful_nil
    · exact lawful_extraSetups
  have hplans := @ensureSetups_plans _ d scope views positions riskOk enabled cashPct minCashPct
  refine ⟨⟨_, List.filter_sublist, hplans⟩, hlawful, ?_⟩
  intro p hp _
  rw [hplans]
  by_cases htaken : Casing.upper p.symbol ∈
      (addedSetups scope d views positions riskOk enabled cashPct minCashPct).map
        fun e => Casing.upper e.symbol
  · obtain ⟨q, hq, hsame⟩ := List.mem_map.mp htaken
    exact Or.inr ⟨hsame ▸ hlawful.fresh q hq, q, hq, hsame⟩
  · exact Or.inl (List.mem_append_left _ (List.mem_filter.mpr ⟨hp, decide_eq_true htaken⟩))

end TopUp

/-! ## Rounded rooms, and an exit of a name that is not held -/

section Sample

attribute [local instance] asciiCasing

def roundedScope : SetupScope :=
  { watchlist := [], allowlist := ["MSFT"], regime := .neutral, maxPositionPct := 10,
    minutesToClose := none }

def roundedDecision : CIODecision :=
  decisionOf .buy [planOf "MSFT" .sell, { planOf "QQQ" .buy with targetPositionPct := 4 / 1000 }]

def roundedPositions : List PositionSnapshot :=
  [{ sharesOf "AAPL" 10 with weightPct := 15004 / 1000 }]

def roundedAdded : List SymbolActionPlan :=
  addedSetups roundedScope roundedDecision [risingView "MSFT"] roundedPositions true true 20 10

/-- 10% of MSFT go beyond the 9.996% that cash and sleeve have left, in the place of its sale. -/
theorem rounded_setup_exceeds :
    ¬ LawfulTopUp roundedScope roundedDecision roundedPositions 20 10 0 roundedAdded ∧
    ¬ targets roundedAdded ≤ deployableCashPct 20 10 - targets (entering roundedDecision) ∧
    ¬ sleeveHeld roundedScope roundedPositions "short" +
        targets (inSleeve [] "short" (entering roundedDecision)) +
        targets (inSleeve [] "short" roundedAdded) ≤ sleeveCeiling "short" ∧
    ¬ KeepsExits roundedDecision
      (ensureCioTakesSetups roundedScope roundedDecision [risingView "MSFT"] roundedPositions true true
        20 10) := by
  have hcash : ¬ targets roundedAdded ≤
      deployableCashPct 20 10 - targets (entering roundedDecision) := by decide +kernel
  refine ⟨?_, hcash, by decide +kernel, ?_⟩
  · intro h
    have hle := h.cash (by decide +kernel)
    rw [add_zero] at hle
    exact hcash hle
  · intro h
    have hkept := h (planOf "MSFT" .sell) List.mem_cons_self rfl
    revert hkept
    decide +kernel

end Sample

end Investor.Agents
