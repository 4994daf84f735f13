import Investor.Lib.Survive
import Investor.Agents.Passes

/-!
# The passes lose no exit

Every exit plan of a held symbol leaves the passes as an exit plan of that symbol, one for each
and in their order, where the passes return (`exits_leave_passes`). The one exception is the trim
of a quiet swing: on the short book a partial exit becomes a hold when the tape is missing or does
not ask for an exit (`trimsQuietSwing`).

Of the eight passes only the two that align exits touch an exit at all. The others rewrite
entries, and the setups they add are never for a held symbol.
-/

namespace Investor.Agents

open Lib Schema Market Universe

section Exits

section

variable [Casing]

def heldExit (held : List String) (plan : SymbolActionPlan) : Bool :=
  plan.action.isExit && decide (Casing.upper plan.symbol ∈ held)

/-- The one plan is carried on by the other: an exit of the same symbol. -/
def CarriedOn (plan plan' : SymbolActionPlan) : Prop :=
  Casing.upper plan'.symbol = Casing.upper plan.symbol ∧ (plan.action.isExit → plan'.action.isExit)

instance : Std.Refl CarriedOn := ⟨fun _ => ⟨rfl, id⟩⟩

instance : IsTrans SymbolActionPlan CarriedOn :=
  ⟨fun _ _ _ h h' => ⟨h'.1.trans h.1, h'.2 ∘ h.2⟩⟩

/-- A partial exit on the short book whose tape is missing or asks for no exit. -/
def trimsQuietSwing (views : Dict SymbolQuantView) (watchlist : List WatchRow)
    (plan : SymbolActionPlan) : Bool :=
  let sym := Casing.upper plan.symbol
  (plan.action = .reduce || plan.action = .partialSell) &&
    horizonForSymbol sym watchlist = "short" &&
    (Dict.get? views sym).all fun view => exitAction "short" view none none none = .hold

/-- The exits a run has to keep: those of held symbols that are not such trims. -/
def PassInputs.protectedExit (x : PassInputs) (plan : SymbolActionPlan) : Bool :=
  heldExit (x.heldPositions.map fun p => Casing.upper p.symbol) plan &&
    !trimsQuietSwing (bySymbol (·.symbol) x.views) x.watchlist plan

theorem trimsQuietSwing_iff {views : Dict SymbolQuantView} {watchlist : List WatchRow}
    {plan : SymbolActionPlan} :
    trimsQuietSwing views watchlist plan ↔
      (plan.action = .reduce ∨ plan.action = .partialSell) ∧
      horizonForSymbol (Casing.upper plan.symbol) watchlist = "short" ∧
      ∀ view ∈ Dict.get? views (Casing.upper plan.symbol),
        exitAction "short" view none none none = .hold := by
  unfold trimsQuietSwing
  dsimp only
  cases Dict.get? views (Casing.upper plan.symbol) <;> simp [and_assoc]

theorem heldExit_iff {held : List String} {plan : SymbolActionPlan} :
    heldExit held plan ↔ plan.action.isExit ∧ Casing.upper plan.symbol ∈ held := by
  simp [heldExit]

theorem CarriedOn.heldExit {held : List String} {plan plan' : SymbolActionPlan}
    (h : CarriedOn plan plan') (hplan : heldExit held plan) : Agents.heldExit held plan' := by
  obtain ⟨hexit, hheld⟩ := heldExit_iff.mp hplan
  exact heldExit_iff.mpr ⟨h.2 hexit, h.1 ▸ hheld⟩

end

theorem isBuyEntry_of_isExit {a : SymbolAction} (h : a.isExit) : a.isBuyEntry = false := by
  cases a <;> first | rfl | cases h

/-! ## Horizons -/

@[simp] theorem alignHorizon_symbol [Casing] (policies : Dict HorizonPolicy) (plan : SymbolActionPlan) :
    (alignHorizon policies plan).symbol = plan.symbol := by
  unfold alignHorizon
  split <;> rfl

@[simp] theorem alignHorizon_action [Casing] (policies : Dict HorizonPolicy) (plan : SymbolActionPlan) :
    (alignHorizon policies plan).action = plan.action := by
  unfold alignHorizon
  split <;> rfl

@[simp] theorem trimsQuietSwing_alignHorizon [Casing] (views : Dict SymbolQuantView)
    (watchlist : List WatchRow) (policies : Dict HorizonPolicy) (plan : SymbolActionPlan) :
    trimsQuietSwing views watchlist (alignHorizon policies plan) =
      trimsQuietSwing views watchlist plan := by
  simp only [trimsQuietSwing, alignHorizon_symbol, alignHorizon_action]

theorem PassInputs.protectedExit_alignHorizon [Casing] (x : PassInputs) (policies : Dict HorizonPolicy)
    (plan : SymbolActionPlan) :
    x.protectedExit (alignHorizon policies plan) = x.protectedExit plan := by
  simp only [PassInputs.protectedExit, heldExit, trimsQuietSwing_alignHorizon,
    alignHorizon_symbol, alignHorizon_action]

theorem alignHorizons_keepsExits [Casing] {x : PassInputs} {d : CIODecision} {watchlist : List WatchRow} :
    Survives CarriedOn x.protectedExit d.symbolActions
      (alignCioHorizons d watchlist).symbolActions :=
  Survives.map fun plan _ hplan =>
    ⟨(x.protectedExit_alignHorizon _ plan).trans hplan, by simp, by simp⟩

/-! ## The passes that rewrite entries -/

section Entries

variable {held : List String} {d : CIODecision}

theorem survives_of_entries [Casing] {f : SymbolActionPlan → SymbolActionPlan}
    (h : ∀ plan, plan.action.isBuyEntry = false → f plan = plan) {plans : List SymbolActionPlan} :
    Survives CarriedOn (heldExit held) plans (plans.map f) := by
  refine Survives.map fun plan _ hplan => ?_
  rw [h plan (isBuyEntry_of_isExit (heldExit_iff.mp hplan).1)]
  exact ⟨hplan, rfl, id⟩

theorem enrichStops_keepsExits [Casing] {showRat : ℚ → String} {views : List SymbolQuantView}
    {markets : List MarketRow} {watchlist : List WatchRow} :
    Survives CarriedOn (heldExit held) d.symbolActions
      (enrichCioEntryStops showRat d views markets watchlist).symbolActions := by
  refine survives_of_entries fun plan hplan => ?_
  unfold enrichEntry
  rw [if_pos (by simp [hplan])]

theorem stampAttribution_keepsExits [Casing] {views : List SymbolQuantView} :
    Survives CarriedOn (heldExit held) d.symbolActions
      (stampCioEntryAttribution d views).symbolActions := by
  refine survives_of_entries fun plan hplan => ?_
  rw [if_neg (by simp [hplan])]

theorem dropBlocked_keepsExits [Casing] {views : List SymbolQuantView} {watchlist : List WatchRow}
    {regime : MarketRegime} {minutesToClose : Option ℚ} {ledger : Dict (List ℚ)} :
    Survives CarriedOn (heldExit held) d.symbolActions
      (dropBlockedEntries d views watchlist regime minutesToClose ledger).symbolActions := by
  unfold dropBlockedEntries
  dsimp only
  split
  · exact Survives.refl
  · refine Survives.filter fun plan hplan => ?_
    unfold dropReason
    rw [if_pos (by simp [isBuyEntry_of_isExit (heldExit_iff.mp hplan).1])]
    rfl

theorem reconcileNameless_plans {hasPositions : Bool} :
    (reconcileNamelessEntry d hasPositions).symbolActions = d.symbolActions := by
  unfold reconcileNamelessEntry
  split
  · rfl
  · split <;> rfl

end Entries

/-! ## Setups are for names that are not held -/

variable {heldSymbols : List String} {positions : List PositionSnapshot}

section Setups

variable {scope : SetupScope} {room : SetupRoom}

theorem takeSetup_cases [Casing] (view : SymbolQuantView) :
    takeSetup scope room view = room ∨
    ∃ plan, Casing.upper view.symbol ∉ room.held ∧ plan.symbol = Casing.upper view.symbol ∧
      plan.action = .scaleIn ∧
      (takeSetup scope room view).plans = room.plans ++ [plan] ∧
      (takeSetup scope room view).held = room.held ++ [Casing.upper view.symbol] := by
  unfold takeSetup
  dsimp only
  split
  · rename_i book zone stop _ _ _
    split
    · exact Or.inl rfl
    · rename_i hsym
      push Not at hsym
      repeat' split
      all_goals first
        | exact Or.inl rfl
        | exact Or.inr ⟨_, hsym.2.1, rfl, rfl, rfl, rfl⟩
  · exact Or.inl rfl

theorem takeSetups_new [Casing] (views : List SymbolQuantView) {held : List String}
    (hheld : held ⊆ room.held)
    (hplans : ∀ p ∈ room.plans, p.action = .scaleIn ∧ Casing.upper p.symbol ∉ held) :
    ∀ p ∈ (views.foldl (takeSetup scope) room).plans,
      p.action = .scaleIn ∧ Casing.upper p.symbol ∉ held := by
  induction views generalizing room with
  | nil => exact hplans
  | cons view views ih =>
    rw [List.foldl_cons]
    have hcases := @takeSetup_cases scope room _ view
    rcases hcases with heq | ⟨plan, hnew, hsym, haction, hadd, hrest⟩
    · rw [heq]
      exact ih hheld hplans
    · refine ih (hrest ▸ List.Subset.trans hheld (List.subset_append_left _ _)) ?_
      rw [hadd]
      intro p hp
      rcases List.mem_append.mp hp with hp | hp
      · exact hplans p hp
      · obtain rfl := List.mem_singleton.mp hp
        refine ⟨haction, ?_⟩
        rw [hsym, Casing.upper_upper]
        exact fun h => hnew (hheld h)

theorem quantEntryPlans_new [Casing] {views : List SymbolQuantView} {newCounts : Dict ℕ}
    {sleeveUsed : Dict ℚ} {cashRoomPct : ℚ} :
    ∀ p ∈ quantEntryPlans scope views heldSymbols newCounts sleeveUsed cashRoomPct,
      p.action = .scaleIn ∧ Casing.upper p.symbol ∉ heldSymbols.map Casing.upper :=
  takeSetups_new _ (fun _ h => h) fun _ hp => absurd hp List.not_mem_nil

theorem extraSetups_new [Casing] {d : CIODecision} {views : List SymbolQuantView}
    {cashPct minCashPct : ℚ} :
    ∀ p ∈ extraSetups scope d views positions cashPct minCashPct,
      p.action = .scaleIn ∧
      Casing.upper p.symbol ∉ (positions.filter (·.isHeld)).map (fun q => Casing.upper q.symbol) ∧
      ∀ q ∈ d.symbolActions, q.action.isBuyEntry → Casing.upper p.symbol ≠ Casing.upper q.symbol := by
  intro p hp
  unfold extraSetups at hp
  dsimp only at hp
  split at hp
  · cases hp
  · obtain ⟨haction, hnew⟩ := quantEntryPlans_new p hp
    simp only [List.map_append, List.map_map, Function.comp_def, Casing.upper_upper,
      List.mem_append, not_or] at hnew
    refine ⟨haction, hnew.1, fun q hq hentry heq => hnew.2 ?_⟩
    exact List.mem_map.mpr ⟨q, List.mem_filter.mpr ⟨hq, hentry⟩, heq.symm⟩

theorem ensureSetups_keepsExits [Casing] {d : CIODecision} {views : List SymbolQuantView}
    {riskOk enabled : Bool} {cashPct minCashPct : ℚ} :
    Survives CarriedOn
      (heldExit ((positions.filter (·.isHeld)).map fun p => Casing.upper p.symbol))
      d.symbolActions
      (ensureCioTakesSetups scope d views positions riskOk enabled cashPct
        minCashPct).symbolActions := by
  unfold ensureCioTakesSetups
  split
  · exact Survives.refl
  · dsimp only
    split
    · exact Survives.refl
    · refine Survives.append_right (Survives.filter fun plan hplan => ?_)
      have hheld := (heldExit_iff.mp hplan).2
      rw [decide_eq_true_eq, List.mem_map]
      rintro ⟨extra, hextra, heq⟩
      exact (extraSetups_new extra hextra).2.1 (heq ▸ hheld)

end Setups

/-! ## The two passes over exits -/

section Aligned

variable {views : Dict SymbolQuantView} {watchlist : List WatchRow} {held : List String}

variable {plan : SymbolActionPlan}

theorem alignExit_symbol [Casing] :
    ((alignExit views watchlist held plan).getD plan).symbol = plan.symbol := by
  cases h : alignExit views watchlist held plan with
  | none => rfl
  | some plan' =>
    unfold alignExit at h
    dsimp only at h
    repeat' split at h
    all_goals cases h
    all_goals rfl

theorem alignExit_not_entry [Casing] {plan' : SymbolActionPlan}
    (h : alignExit views watchlist held plan = some plan') : plan'.action.isEntry = false := by
  unfold alignExit at h
  dsimp only at h
  repeat' split at h
  all_goals cases h
  all_goals rfl

theorem symbolActionForExit_hold {e : BookExit} : symbolActionForExit e = .hold ↔ e = .hold := by
  cases e <;> simp [symbolActionForExit]

theorem alignExit_isExit [Casing] :
    ((alignExit views watchlist held plan).getD plan).action.isExit ↔
      plan.action.isExit ∧ ¬ (trimsQuietSwing views watchlist plan ∧
        (held = [] ∨ Casing.upper plan.symbol ∈ held)) := by
  rw [trimsQuietSwing_iff]
  unfold alignExit
  dsimp only
  split
  · rename_i hskip
    rw [Option.getD_none]
    rcases hskip with hnot | ⟨hheld, hsym⟩
    · exact ⟨fun h => absurd h hnot, fun h => absurd h.1 hnot⟩
    · exact ⟨fun h => ⟨h, fun htrim => htrim.2.elim hheld hsym⟩, fun h => h.1⟩
  · rename_i hlook
    push Not at hlook
    have hheld : held = [] ∨ Casing.upper plan.symbol ∈ held := by
      by_cases h : held = []
      · exact Or.inl h
      · exact Or.inr (hlook.2 h)
    rw [and_iff_left hheld, iff_true_intro hlook.1, true_and]
    cases Dict.get? views (Casing.upper plan.symbol) with
    | none =>
      dsimp only
      split
      · rename_i hquiet
        exact iff_of_false Bool.false_ne_true fun h =>
          h ⟨by simpa using hquiet.2, hquiet.1, fun _ hview => by cases hview⟩
      · rename_i hquiet
        refine iff_of_true ?_ fun h => hquiet ⟨h.2.1, by simpa using h.1⟩
        split
        · rfl
        · exact hlook.1
    | some view =>
      dsimp only
      split
      · rename_i hquiet
        obtain ⟨hwant, htrims, hshort⟩ := hquiet
        refine iff_of_false Bool.false_ne_true fun h => h ⟨by simpa using htrims, hshort, ?_⟩
        rintro _ ⟨⟩
        exact hshort ▸ symbolActionForExit_hold.mp hwant
      · rename_i hquiet
        refine iff_of_true ?_ fun h => hquiet ⟨?_, by simpa using h.1, h.2.1⟩
        · split
          · rfl
          · split
            · rfl
            · exact hlook.1
        · rw [h.2.1]
          exact symbolActionForExit_hold.mpr (h.2.2 view rfl)

theorem alignExit_carriedOn [Casing] (htrim : ¬ trimsQuietSwing views watchlist plan) :
    CarriedOn plan ((alignExit views watchlist held plan).getD plan) := by
  refine ⟨by rw [alignExit_symbol], fun hexit => ?_⟩
  exact alignExit_isExit.mpr ⟨hexit, fun h => htrim h.1⟩

end Aligned

variable [Casing]

theorem alignPlaybook_plans {d : CIODecision} {views : List SymbolQuantView}
    {watchlist : List WatchRow} :
    (alignCioPlaybookExits d views watchlist heldSymbols).symbolActions =
      d.symbolActions.map fun plan =>
        (alignExit (bySymbol (·.symbol) views) watchlist
          ((heldSymbols.filter (· ≠ "")).map Casing.upper) plan).getD plan := by
  unfold alignCioPlaybookExits
  dsimp only
  split
  · rfl
  · rename_i hsame
    simp only [List.any_eq_true, not_exists, not_and, Option.not_isSome_iff_eq_none] at hsame
    refine ((List.map_congr_left fun plan hplan => ?_).trans (List.map_id _)).symm
    rw [hsame plan hplan]
    rfl

theorem alignPlaybook_keepsExits {d : CIODecision} {views : List SymbolQuantView}
    {watchlist : List WatchRow} {held : List String} :
    List.SublistForall₂ CarriedOn
      (d.symbolActions.filter fun plan =>
        heldExit held plan && !trimsQuietSwing (bySymbol (·.symbol) views) watchlist plan)
      ((alignCioPlaybookExits d views watchlist heldSymbols).symbolActions.filter
        (heldExit held)) := by
  rw [alignPlaybook_plans]
  refine sublistForall₂_filter_map fun plan _ hplan => ?_
  obtain ⟨hheld, htrim⟩ := Bool.and_eq_true _ _ |>.mp hplan
  have hcarried : CarriedOn plan ((alignExit (bySymbol (·.symbol) views) watchlist
      ((heldSymbols.filter (· ≠ "")).map Casing.upper) plan).getD plan) :=
    alignExit_carriedOn (by simpa using htrim)
  exact ⟨hcarried.heldExit hheld, hcarried⟩

variable {pos : PositionSnapshot}

theorem playbookExitPlan_exit {watchlist : List WatchRow} {allowed : BookExit}
    {plan : SymbolActionPlan} (hallowed : allowed ≠ .hold)
    (h : playbookExitPlan watchlist pos allowed = some plan) :
    plan.action.isExit ∧ plan.symbol = Casing.upper pos.symbol := by
  unfold playbookExitPlan at h
  dsimp only at h
  split at h
  · cases h
  · cases h
    cases allowed with
    | hold => exact absurd rfl hallowed
    | reduce => exact ⟨rfl, rfl⟩
    | sell => exact ⟨rfl, rfl⟩

def wantsOut (views : Dict SymbolQuantView) (watchlist : List WatchRow) (now : Int)
    (pos : PositionSnapshot) : Prop :=
  ¬ |pos.quantity| < 1 / 10 ^ 9 ∧ bookExitOf views watchlist now pos ≠ .hold

variable {now : Int}

theorem ensureExit_cases {views : Dict SymbolQuantView} {watchlist : List WatchRow}
    {scan scan' : ExitScan} (h : ensureExit views watchlist now scan pos = some scan') :
    (scan' = scan ∧ (wantsOut views watchlist now pos →
      ∃ cur, Dict.get? scan.existing (Casing.upper pos.symbol) = some cur ∧ cur.action.isExit)) ∨
    ∃ plan, plan.action.isExit ∧ plan.symbol = Casing.upper pos.symbol ∧ scan'.changed = true ∧
      wantsOut views watchlist now pos ∧
      scan'.existing = Dict.set scan.existing (Casing.upper pos.symbol) plan ∧
      ((Dict.get? scan.existing (Casing.upper pos.symbol) = none ∧
          scan'.updated = scan.updated ++ [plan]) ∨
        ∃ cur, Dict.get? scan.existing (Casing.upper pos.symbol) = some cur ∧
          cur.action.isExit = false ∧
          scan'.updated = scan.updated.map fun p =>
            if Casing.upper p.symbol = Casing.upper pos.symbol then plan else p) := by
  unfold ensureExit at h
  dsimp only at h
  split at h
  · rename_i hstop
    refine Or.inl ⟨(Option.some.inj h).symm, fun hout => ?_⟩
    rcases hstop with hflat | hhold | hexit
    · exact absurd hflat hout.1
    · exact absurd hhold hout.2
    · exact (Option.any_eq_true _ _).mp hexit
  · rename_i hgo
    push Not at hgo
    obtain ⟨hqty, hallowed, hcur⟩ := hgo
    obtain ⟨plan, hplan, hscan⟩ := Option.bind_eq_some_iff.mp h
    obtain ⟨hexit, hsym⟩ := playbookExitPlan_exit hallowed hplan
    cases hscan
    refine Or.inr ⟨plan, hexit, hsym, rfl, ⟨not_lt.mpr hqty, hallowed⟩, rfl, ?_⟩
    cases hget : Dict.get? scan.existing (Casing.upper pos.symbol) with
    | none => exact Or.inl ⟨rfl, rfl⟩
    | some cur =>
      rw [hget] at hcur
      exact Or.inr ⟨cur, rfl, by simpa using hcur, rfl⟩

theorem ensureExit_keepsExits {views : Dict SymbolQuantView} {watchlist : List WatchRow}
    {held : List String} {scan scan' : ExitScan}
    (h : ensureExit views watchlist now scan pos = some scan') :
    Survives CarriedOn (heldExit held) scan.updated scan'.updated := by
  rcases ensureExit_cases h with ⟨rfl, _⟩ | ⟨plan, hexit, hsym, _, _, _, hupdated⟩
  · exact Survives.refl
  · rcases hupdated with ⟨_, hadd⟩ | ⟨_, _, _, hmap⟩
    · rw [hadd]
      exact Survives.refl.append_right
    · rw [hmap]
      refine Survives.map fun p _ hp => ?_
      split
      · rename_i heq
        have hcarried : CarriedOn p plan := by
          refine ⟨?_, fun _ => hexit⟩
          rw [hsym, Casing.upper_upper, heq]
        exact ⟨hcarried.heldExit hp, hcarried⟩
      · exact ⟨hp, rfl, id⟩

theorem ensurePlaybookExits_eq_some {d d' : CIODecision} {views : List SymbolQuantView}
    {watchlist : List WatchRow} (h : ensurePlaybookExits d views watchlist positions now = some d') :
    ∃ scan, positions.foldlM (ensureExit (bySymbol (·.symbol) views) watchlist now)
        (startScan d.symbolActions) = some scan ∧
      d'.symbolActions = scan.updated ∧ d'.riskApproval = d.riskApproval ∧
      (d' = d ∨ d'.portfolioAction = portfolioActionFromSymbolActions d'.symbolActions) := by
  unfold ensurePlaybookExits at h
  obtain ⟨scan, hscan, hd⟩ := Option.bind_eq_some_iff.mp h
  have hsame : scan.changed = false → scan.updated = d.symbolActions := by
    refine foldlM_keeps (I := fun s => s.changed = false → s.updated = d.symbolActions)
      (fun s hs pos _ s' hs' hchanged => ?_) hscan fun _ => rfl
    rcases ensureExit_cases hs' with ⟨rfl, _⟩ | ⟨_, _, _, htrue, _⟩
    · exact hs hchanged
    · rw [hchanged] at htrue
      cases htrue
  refine ⟨scan, hscan, ?_⟩
  cases Option.some.inj hd
  cases hchanged : scan.changed with
  | true => exact ⟨rfl, rfl, Or.inr rfl⟩
  | false => exact ⟨(hsame hchanged).symm, rfl, Or.inl rfl⟩

theorem ensurePlaybook_keepsExits {d d' : CIODecision} {views : List SymbolQuantView}
    {watchlist : List WatchRow} {held : List String}
    (h : ensurePlaybookExits d views watchlist positions now = some d') :
    Survives CarriedOn (heldExit held) d.symbolActions d'.symbolActions := by
  obtain ⟨scan, hscan, hplans, _⟩ := ensurePlaybookExits_eq_some h
  rw [hplans]
  exact foldlM_keeps (I := fun s => Survives CarriedOn (heldExit held) d.symbolActions s.updated)
    (fun s hs pos _ s' hs' => hs.trans (ensureExit_keepsExits hs')) hscan Survives.refl

theorem settleEntries_keepsExits {x : PassInputs} {d : CIODecision} :
    Survives CarriedOn (heldExit (x.heldPositions.map fun p => Casing.upper p.symbol))
      d.symbolActions (x.settleEntries d).symbolActions := by
  unfold PassInputs.settleEntries
  dsimp only
  rw [reconcileNameless_plans]
  exact enrichStops_keepsExits.trans
    (ensureSetups_keepsExits.trans (dropBlocked_keepsExits.trans stampAttribution_keepsExits))

/-- **The passes lose no exit.** Every exit plan of a held symbol that is not a trim of a
    quiet swing leaves the passes as an exit plan of that symbol, each as a plan of its
    own. -/
theorem exits_leave_passes (x : PassInputs) (d d' : CIODecision) (h : x.passes d = some d') :
    List.SublistForall₂
      (fun plan plan' => Casing.upper plan'.symbol = Casing.upper plan.symbol ∧
        plan'.action.isExit)
      (d.symbolActions.filter x.protectedExit) d'.symbolActions := by
  obtain ⟨d₁, hensure, rfl⟩ := Option.map_eq_some_iff.mp h
  have haligned : List.SublistForall₂ CarriedOn (d.symbolActions.filter x.protectedExit)
      ((x.alignExits d).symbolActions.filter
        (heldExit (x.heldPositions.map fun p => Casing.upper p.symbol))) :=
    trans_of (List.SublistForall₂ CarriedOn) alignHorizons_keepsExits alignPlaybook_keepsExits
  have hleft := trans_of (List.SublistForall₂ CarriedOn) haligned
    (trans_of (List.SublistForall₂ CarriedOn) (ensurePlaybook_keepsExits hensure)
      (settleEntries_keepsExits (x := x) (d := d₁)))
  have hexits := sublistForall₂_of_filter hleft
  refine List.sublistForall₂_iff.mpr ?_
  obtain ⟨l, hrel, hsub⟩ := List.sublistForall₂_iff.mp hexits
  exact ⟨l, hrel.imp fun _ _ hp => ⟨hp.1.1, (heldExit_iff.mp hp.2).1⟩, hsub⟩

end Exits

end Investor.Agents
