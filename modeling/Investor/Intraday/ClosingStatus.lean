import Investor.Intraday.Closing
import Investor.Intraday.ProtectionRuns

/-!
# What a submitted exit intent says

`run_closing` counts the orders that its exits make, and if there is one it marks every intent it
wrote or took up as submitted. The mark of an intent says that an exit of its own lifecycle is with
the broker, and whether it is has to be asked of each: the exit of the plan may be skipped, it may
be refused, or it may be made for another lifecycle of the symbol.

The intents are followed through the loop over the plans by what they name (`Drafted`): each
names the lifecycle that its plan is looked up to before the call (`namedLifecycle`).
-/

namespace Investor.Intraday

open Lib Market Risk Execution Universe Workflow OrderBook

variable {lifecycles : List HeldLifecycle}

section Plans

theorem PositionClosePlan.exitQty_pos {plan : PositionClosePlan} (h : plan.quantity ≠ 0) :
    0 < plan.exitQty := by
  unfold PositionClosePlan.exitQty
  split
  · exact abs_pos.mpr h
  · exact abs_pos.mpr (mul_ne_zero h (by norm_num))

variable [Casing]

/-! ## The plans -/

theorem closePlan_eq_some_iff {policy : ClosingPolicy} {symbols : List String} {p : ClosingPosition}
    {plan : PositionClosePlan} : closePlan policy symbols p = some plan ↔
      Casing.upper p.symbol ≠ "" ∧ p.quantity ≠ 0 ∧
        plan = { symbol := Casing.upper p.symbol, quantity := p.quantity
                 isIntradayOnly := symbols.contains (Casing.upper p.symbol) || p.isIntradayOnly
                 action := (closeAction (symbols.contains (Casing.upper p.symbol) ||
                  p.isIntradayOnly) policy).1
                 rationale := (closeAction (symbols.contains (Casing.upper p.symbol) ||
                  p.isIntradayOnly) policy).2 } := by
  unfold closePlan
  dsimp only
  split
  · rename_i hnone
    refine iff_of_false nofun fun h => ?_
    rcases hnone with hsymbol | hquantity
    · exact h.1 hsymbol
    · exact h.2.1 hquantity
  · rename_i hsome
    push Not at hsome
    rw [Option.some.injEq, eq_comm]
    exact ⟨fun h => ⟨hsome.1, hsome.2, h⟩, fun h => h.2.2⟩

def planOf (c : ClosingCall) (policy : ClosingPolicy) (lifecycles : List HeldLifecycle)
    (l : HeldLifecycle) : Option PositionClosePlan :=
  let horizons := horizonsForLifecycles c lifecycles
  closePlan policy (((lifecycles.filter (·.forcedIntraday horizons)).map fun l =>
    Casing.upper l.symbol).map Casing.upper) (closingPosition horizons l)

theorem plans_closingDecision (c : ClosingCall) (policy : ClosingPolicy)
    (lifecycles : List HeldLifecycle) :
    (closingDecision c policy lifecycles).plans = lifecycles.filterMap (planOf c policy lifecycles) := by
  unfold closingDecision decideClosing
  dsimp only
  rw [List.filterMap_map]
  rfl

theorem action_planOf {c : ClosingCall} {policy : ClosingPolicy} {l : HeldLifecycle}
    (hl : l ∈ lifecycles) {plan : PositionClosePlan} (h : planOf c policy lifecycles l = some plan) :
    plan.symbol = Casing.upper l.symbol ∧ plan.quantity = l.quantity ∧ l.quantity ≠ 0 ∧
      plan.action = (closeAction ((lifecycles.filter (·.forcedIntraday
        (horizonsForLifecycles c lifecycles))).any fun x =>
          Casing.upper x.symbol = Casing.upper l.symbol) policy).1 := by
  obtain ⟨-, hquantity, rfl⟩ := closePlan_eq_some_iff.mp h
  refine ⟨rfl, rfl, hquantity, ?_⟩
  dsimp only [closingPosition]
  congr 2
  have hany : ∀ symbols : List HeldLifecycle,
      ((symbols.map fun l => Casing.upper l.symbol).map Casing.upper).contains
        (Casing.upper l.symbol) =
      symbols.any fun x => decide (Casing.upper x.symbol = Casing.upper l.symbol) := by
    intro symbols
    rw [List.map_map, Bool.eq_iff_iff, List.contains_iff_mem, List.mem_map, List.any_eq_true]
    simp
  rw [hany, Bool.or_eq_left_iff_imp]
  intro hforced
  exact List.any_eq_true.mpr ⟨l, List.mem_filter.mpr ⟨hl, hforced⟩, by simp⟩

/-- What is known of the plans before any of them is carried out. -/
structure PlansFit (lifecycles : List HeldLifecycle) (plans : List PositionClosePlan) : Prop where
  held : ∀ plan ∈ plans, ∃ l ∈ lifecycles, Casing.upper l.symbol = plan.symbol
  moves : ∀ plan ∈ plans, 0 < plan.exitQty
  agree : ∀ plan ∈ plans, ∀ plan' ∈ plans, plan.symbol = plan'.symbol → plan.action = plan'.action

theorem plansFit_closingDecision (c : ClosingCall) (policy : ClosingPolicy)
    (lifecycles : List HeldLifecycle) :
    PlansFit lifecycles (closingDecision c policy lifecycles).plans := by
  have hplan : ∀ plan ∈ (closingDecision c policy lifecycles).plans,
      ∃ l ∈ lifecycles, planOf c policy lifecycles l = some plan := by
    intro plan hplan
    rw [plans_closingDecision] at hplan
    exact List.mem_filterMap.mp hplan
  constructor
  · intro plan hmem
    obtain ⟨l, hl, h⟩ := hplan plan hmem
    exact ⟨l, hl, (action_planOf hl h).1.symm⟩
  · intro plan hmem
    obtain ⟨l, hl, h⟩ := hplan plan hmem
    obtain ⟨-, hquantity, hne, -⟩ := action_planOf hl h
    exact PositionClosePlan.exitQty_pos (hquantity ▸ hne)
  · intro plan hmem plan' hmem' hsymbol
    obtain ⟨l, hl, h⟩ := hplan plan hmem
    obtain ⟨l', hl', h'⟩ := hplan plan' hmem'
    obtain ⟨hs, -, -, haction⟩ := action_planOf hl h
    obtain ⟨hs', -, -, haction'⟩ := action_planOf hl' h'
    rw [haction, haction', ← hs, ← hs', hsymbol]

end Plans

/-! ## One plan -/

section Drafts

variable {c : ClosingCall} {w : ClosingWorld} {s : Drafting} {plan : PositionClosePlan}
  {l : HeldLifecycle}

theorem caps_of_armed [Casing] (h : c.shouldAutoSubmitForceClose = true) :
    c.mode.canCreateIntent = true ∧ c.mode.intentsAreDraftOnly = false := by
  unfold ClosingCall.shouldAutoSubmitForceClose at h
  rw [Bool.and_eq_true, Bool.and_eq_true] at h
  have hsubmit := h.1.2
  cases hmode : c.mode <;> rw [hmode] at hsubmit <;> first | exact ⟨rfl, rfl⟩ | cases hsubmit

theorem draftPlan_cases [Casing] (harmed : c.shouldAutoSubmitForceClose = true)
    (haction : plan.action ≠ .keep) (hmoves : 0 < plan.exitQty)
    (hfirst : firstOf s.lifecycles plan.symbol = some l) :
    (l.status = plan.action.pending ∧ (draftPlan c s plan).lifecycles = s.lifecycles ∧
      (draftPlan c s plan).intents = s.intents ∧ (draftPlan c s plan).intentIds = s.intentIds ∧
      (draftPlan c s plan).retryForceSubmit = true) ∨
    (∃ prior, l.status ≠ plan.action.pending ∧
      (priorIntent l.symbol s.intents).filter isClosingIntent = some prior ∧
      (draftPlan c s plan).lifecycles = s.lifecycles ∧ (draftPlan c s plan).intents = s.intents ∧
      (draftPlan c s plan).intentIds = s.intentIds ++ [prior.id]) ∨
    (l.status ≠ plan.action.pending ∧
      (priorIntent l.symbol s.intents).filter isClosingIntent = none ∧
      (draftPlan c s plan).lifecycles = (s.setPending l plan.action).lifecycles ∧
      (draftPlan c s plan).intents =
        s.intents.putNew (exitIntent c l plan (newIntentId s.intents)) ∧
      (draftPlan c s plan).intentIds = s.intentIds ++ [newIntentId s.intents]) := by
  obtain ⟨hcreate, hdraft⟩ := caps_of_armed harmed
  -- the two guards of the source ask for one thing: the exit is under way
  have hpending : l.status = plan.action.pending ↔
      plan.action = .close ∧ l.status = .pendingClose ∨
        plan.action = .reduce ∧ l.status = .reducing := by
    cases hact : plan.action with
    | keep => exact absurd hact haction
    | reduce => simp [CloseAction.pending]
    | close => simp [CloseAction.pending]
  unfold draftPlan
  simp only [haction, hcreate, false_or, Bool.true_eq_false, if_false, hfirst]
  by_cases hclosing : plan.action = .close ∧ l.status = .pendingClose
  · rw [if_pos hclosing]
    exact .inl ⟨hpending.mpr (.inl hclosing), rfl, rfl, rfl, by simp [Drafting.skip, hmoves, harmed]⟩
  · rw [if_neg hclosing]
    by_cases hreducing : plan.action = .reduce ∧ l.status = .reducing
    · rw [if_pos hreducing]
      exact .inl ⟨hpending.mpr (.inr hreducing), rfl, rfl, rfl, by simp [Drafting.skip, hmoves, harmed]⟩
    · rw [if_neg hreducing]
      refine .inr ?_
      have hidle : l.status ≠ plan.action.pending := fun h =>
        (hpending.mp h).elim hclosing hreducing
      cases hprior : (priorIntent l.symbol s.intents).filter isClosingIntent with
      | some prior => exact .inl ⟨prior, hidle, rfl, rfl, rfl, rfl⟩
      | none =>
        refine .inr ⟨hidle, rfl, ?_⟩
        dsimp only
        unfold Drafting.createExit
        rw [hdraft, if_neg Bool.false_ne_true, if_neg (not_le.mpr hmoves)]
        exact ⟨rfl, rfl, rfl⟩

theorem draftPlan_ids [Casing] (c : ClosingCall) (s : Drafting) (plan : PositionClosePlan) :
    ((draftPlan c s plan).intents = s.intents ∧ (draftPlan c s plan).intentIds = s.intentIds) ∨
    (∃ prior ∈ s.intents.rows, prior.status = IntentStatus.created.value ∧
      (draftPlan c s plan).intents = s.intents ∧
      (draftPlan c s plan).intentIds = s.intentIds ++ [prior.id]) ∨
    ∃ l, (draftPlan c s plan).intents =
        s.intents.putNew (exitIntent c l plan (newIntentId s.intents)) ∧
      (draftPlan c s plan).intentIds = s.intentIds ++ [newIntentId s.intents] := by
  unfold draftPlan
  split
  · exact .inl ⟨rfl, rfl⟩
  · dsimp only
    split
    · exact .inl ⟨rfl, rfl⟩
    · rename_i l hfirst
      split
      · exact .inl ⟨rfl, rfl⟩
      · split
        · exact .inl ⟨rfl, rfl⟩
        · split
          · rename_i prior hprior
            have hfound := (Option.filter_eq_some_iff.mp hprior).1
            have hstatus := List.find?_some hfound
            rw [decide_eq_true_eq] at hstatus
            exact .inr (.inl ⟨prior, List.mem_of_find?_eq_some hfound, hstatus.2, rfl, rfl⟩)
          · unfold Drafting.createExit
            split
            · exact .inl ⟨rfl, rfl⟩
            · split
              · exact .inl ⟨rfl, rfl⟩
              · exact .inr (.inr ⟨l, rfl, rfl⟩)

/-! ## The intents of the call -/

theorem newIntentId_free (t : IntentTable) : t.find? (newIntentId t) = none :=
  KeyedTable.find?_eq_none_iff.mpr (foldl_max_succ_notMem _)

theorem find_putNew_exit (t : IntentTable) (id : ℕ) :
    (t.putNew (exitIntent c l plan (newIntentId t))).find? id =
      (t.find? id).or
        (if newIntentId t = id then some (exitIntent c l plan (newIntentId t)) else none) :=
  KeyedTable.find?_putNew _ _ _

def IdsCreated (s : Drafting) : Prop :=
  ∀ id ∈ s.intentIds, ∃ i, s.intents.find? id = some i ∧ i.status = IntentStatus.created.value

variable {symbol : String}

section

variable [Casing]

theorem idsCreated_draftPlan (h : IdsCreated s) : IdsCreated (draftPlan c s plan) := by
  intro id hid
  rcases draftPlan_ids c s plan with ⟨hintents, hids⟩ | ⟨prior, hmem, hstatus, hintents, hids⟩ |
      ⟨l, hintents, hids⟩
  · rw [hintents]
    rw [hids] at hid
    exact h id hid
  · rw [hintents]
    rw [hids, List.mem_append, List.mem_singleton] at hid
    rcases hid with hid | rfl
    · exact h id hid
    · exact ⟨prior, KeyedTable.find?_eq_some_iff.mpr ⟨hmem, rfl⟩, hstatus⟩
  · rw [hintents, find_putNew_exit]
    rw [hids, List.mem_append, List.mem_singleton] at hid
    rcases hid with hid | rfl
    · obtain ⟨i, hfind, hstatus⟩ := h id hid
      exact ⟨i, by rw [hfind, Option.some_or], hstatus⟩
    · exact ⟨_, by rw [newIntentId_free, Option.none_or, if_pos rfl], rfl⟩

theorem idsCreated_draftPlans (lifecycles : List HeldLifecycle) (plans : List PositionClosePlan)
    (notes : List String) : IdsCreated (draftPlans c w lifecycles plans notes) :=
  @run_invariant _ _ (draftPlan c) IdsCreated (fun _ _ h => idsCreated_draftPlan h) _ plans
    fun _ hid => absurd hid List.not_mem_nil

/-! ## What the intents name -/

/-- The lifecycle that the intent of a plan names, as its metadata have it. An intent that was
    there before names what it was written for; a lifecycle whose exit was started before gets
    none. -/
def namedLifecycle (c : ClosingCall) (w : ClosingWorld) (plan : PositionClosePlan) : Option Json :=
  if plan.action = .keep then none
  else
    match firstOf (openLifecycles c w) plan.symbol with
    | none => none
    | some l =>
      if l.status = plan.action.pending then none
      else
        match (priorIntent l.symbol w.intents).filter isClosingIntent with
        | some prior => some (Dict.at prior.metadata "lifecycle_id")
        | none => some (.str l.uuid.text)

def Untouched (c : ClosingCall) (w : ClosingWorld) (s : Drafting) (symbol : String) : Prop :=
  firstOf s.lifecycles symbol = firstOf (openLifecycles c w) symbol ∧
    ∀ l, firstOf (openLifecycles c w) symbol = some l →
      priorIntent l.symbol s.intents = priorIntent l.symbol w.intents

/-- What the loop has done of some plans: the intents name what the plans are looked up to, and an
    exit is under way for each symbol that it touched. -/
structure Drafted (c : ClosingCall) (w : ClosingWorld) (done : List PositionClosePlan)
    (s : Drafting) : Prop where
  apart : ∀ x ∈ s.lifecycles, ∀ y ∈ s.lifecycles, x.uuid.text = y.uuid.text → x.symbol = y.symbol
  names : ∀ id ∈ s.intentIds, ∃ i, s.intents.find? id = some i ∧
    ∃ plan ∈ done, namedLifecycle c w plan = some (Dict.at i.metadata "lifecycle_id")
  named : ∀ plan ∈ done, ∀ lifecycle, namedLifecycle c w plan = some lifecycle →
    ∃ id ∈ s.intentIds, ∃ i, s.intents.find? id = some i ∧
      Dict.at i.metadata "lifecycle_id" = lifecycle
  submits : (∃ plan ∈ done, plan.action ≠ .keep) → s.intentIds ≠ [] ∨ s.retryForceSubmit = true
  touched : ∀ symbol, Untouched c w s symbol ∨ ∃ plan ∈ done, plan.action ≠ .keep ∧
    Casing.upper plan.symbol = Casing.upper symbol ∧
    ∃ l, firstOf s.lifecycles symbol = some l ∧ l.status = plan.action.pending

theorem firstOf_congr {symbol' : String} (h : Casing.upper symbol = Casing.upper symbol') :
    firstOf lifecycles symbol = firstOf lifecycles symbol' := by
  unfold firstOf
  rw [h]

theorem firstOf_some (h : firstOf lifecycles symbol = some l) :
    l ∈ lifecycles ∧ Casing.upper l.symbol = Casing.upper symbol :=
  ⟨List.mem_of_find?_eq_some h, by simpa using List.find?_some h⟩

theorem namedLifecycle_congr {plan' : PositionClosePlan} (haction : plan.action = plan'.action)
    (h : Casing.upper plan.symbol = Casing.upper plan'.symbol) :
    namedLifecycle c w plan = namedLifecycle c w plan' := by
  unfold namedLifecycle
  rw [haction, firstOf_congr h]

theorem firstOf_setPending (symbol : String) :
    firstOf (s.setPending l plan.action).lifecycles symbol =
      (firstOf s.lifecycles symbol).map fun x =>
        if x.uuid.text = l.uuid.text then { x with status := plan.action.pending } else x := by
  unfold firstOf Drafting.setPending
  rw [List.find?_map]
  congr 2
  funext x
  dsimp only [Function.comp]
  split <;> rfl

theorem firstOf_setPending_other
    (hapart : ∀ x ∈ s.lifecycles, ∀ y ∈ s.lifecycles, x.uuid.text = y.uuid.text → x.symbol = y.symbol)
    (hl : l ∈ s.lifecycles) (hne : Casing.upper l.symbol ≠ Casing.upper symbol) :
    firstOf (s.setPending l plan.action).lifecycles symbol = firstOf s.lifecycles symbol := by
  rw [firstOf_setPending]
  cases hfirst : firstOf s.lifecycles symbol with
  | none => rfl
  | some x =>
    obtain ⟨hx, hsymbol⟩ := firstOf_some hfirst
    rw [Option.map_some, if_neg]
    intro hsame
    rw [hapart x hx l hl hsame] at hsymbol
    exact hne hsymbol

end

theorem priorIntent_putNew (hne : l.symbol ≠ symbol) (t : IntentTable) :
    priorIntent symbol (t.putNew (exitIntent c l plan (newIntentId t))) = priorIntent symbol t := by
  unfold priorIntent KeyedTable.putNew
  cases hins : t.insert (exitIntent c l plan (newIntentId t)) with
  | none => rfl
  | some t' =>
    rw [Option.getD_some, (KeyedTable.insert_eq_some hins).2, List.find?_append,
      List.find?_singleton, if_neg, Option.or_none]
    simp [exitIntent, hne]

variable [Casing]

variable {s' : Drafting}

theorem Untouched.other (h : Untouched c w s symbol)
    (hfirst : firstOf s'.lifecycles symbol = firstOf s.lifecycles symbol)
    (hprior : ∀ l, firstOf (openLifecycles c w) symbol = some l →
      priorIntent l.symbol s'.intents = priorIntent l.symbol s.intents) : Untouched c w s' symbol :=
  ⟨hfirst.trans h.1, fun l hl => (hprior l hl).trans (h.2 l hl)⟩

variable {done plans : List PositionClosePlan}

theorem Drafted.first (h : Drafted c w done s) (hfit : PlansFit (openLifecycles c w) plans)
    (hdone : ∀ p ∈ done, p ∈ plans) (hplan : plan ∈ plans) :
    ∃ l, firstOf s.lifecycles plan.symbol = some l ∧
      (Untouched c w s plan.symbol ∨ l.status = plan.action.pending ∧
        ∃ plan' ∈ done, namedLifecycle c w plan = namedLifecycle c w plan') := by
  have hupper : ∀ p ∈ plans, Casing.upper p.symbol = p.symbol := by
    intro p hp
    obtain ⟨l, -, hsymbol⟩ := hfit.held p hp
    rw [← hsymbol, Casing.upper_upper]
  -- a plan before it of the same symbol has the same action, and looked up the same lifecycle
  rcases h.touched plan.symbol with hnew | ⟨plan', hmem, -, hsymbol, l, hfirst, hstatus⟩
  · obtain ⟨l, hl, hsymbol⟩ := hfit.held plan hplan
    have hsome : (firstOf (openLifecycles c w) plan.symbol).isSome = true := by
      refine List.find?_isSome.mpr ⟨l, hl, ?_⟩
      rw [decide_eq_true_eq, hupper plan hplan, hsymbol]
    obtain ⟨l', hfirst⟩ := Option.isSome_iff_exists.mp hsome
    exact ⟨l', hnew.1.trans hfirst, .inl hnew⟩
  · have hsame : plan'.symbol = plan.symbol := by
      rw [← hupper plan' (hdone plan' hmem), hsymbol, hupper plan hplan]
    have haction := hfit.agree plan' (hdone plan' hmem) plan hplan hsame
    exact ⟨l, hfirst, .inr ⟨haction ▸ hstatus, plan', hmem,
      (namedLifecycle_congr haction hsymbol).symm⟩⟩

theorem Drafted.names_mono (h : Drafted c w done s)
    (hkept : ∀ id i, s.intents.find? id = some i → s'.intents.find? id = some i) {id : ℕ}
    (hid : id ∈ s.intentIds) : ∃ i, s'.intents.find? id = some i ∧ ∃ p ∈ done ++ [plan],
      namedLifecycle c w p = some (Dict.at i.metadata "lifecycle_id") := by
  obtain ⟨i, hfind, p, hp, hname⟩ := h.names id hid
  exact ⟨i, hkept id i hfind, p, List.mem_append_left _ hp, hname⟩

theorem Drafted.named_mono (h : Drafted c w done s)
    (hkept : ∀ id i, s.intents.find? id = some i → s'.intents.find? id = some i)
    (hids : ∀ id ∈ s.intentIds, id ∈ s'.intentIds) {p : PositionClosePlan} (hp : p ∈ done)
    {lifecycle : Json} (hname : namedLifecycle c w p = some lifecycle) : ∃ id ∈ s'.intentIds,
      ∃ i, s'.intents.find? id = some i ∧ Dict.at i.metadata "lifecycle_id" = lifecycle := by
  obtain ⟨id, hid, i, hfind, heq⟩ := h.named p hp lifecycle hname
  exact ⟨id, hids id hid, i, hkept id i hfind, heq⟩

theorem Drafted.touched_mono (h : Drafted c w done s) (hlifecycles : s'.lifecycles = s.lifecycles)
    (hintents : s'.intents = s.intents) (symbol : String) : Untouched c w s' symbol ∨
      ∃ p ∈ done ++ [plan], p.action ≠ .keep ∧ Casing.upper p.symbol = Casing.upper symbol ∧
        ∃ l, firstOf s'.lifecycles symbol = some l ∧ l.status = p.action.pending := by
  rw [hlifecycles]
  rcases h.touched symbol with hnew | ⟨p, hp, htouched⟩
  · exact .inl (hnew.other (by rw [hlifecycles]) fun _ _ => by rw [hintents])
  · exact .inr ⟨p, List.mem_append_left _ hp, htouched⟩

theorem drafted_keep (h : Drafted c w done s) (hkeep : plan.action = .keep) :
    Drafted c w (done ++ [plan]) (draftPlan c s plan) := by
  have hsame : draftPlan c s plan = s := by
    unfold draftPlan
    rw [if_pos (.inl hkeep)]
  have hnone : namedLifecycle c w plan = none := by
    unfold namedLifecycle
    rw [if_pos hkeep]
  rw [hsame]
  refine ⟨h.apart, fun id hid => h.names_mono (fun _ _ hi => hi) hid, ?_, ?_,
    h.touched_mono rfl rfl⟩
  · intro p hp lifecycle hname
    rcases List.mem_append.mp hp with hp | hp
    · exact h.named p hp lifecycle hname
    · rw [List.mem_singleton.mp hp, hnone] at hname
      cases hname
  · rintro ⟨p, hp, hmoves⟩
    rcases List.mem_append.mp hp with hp | hp
    · exact h.submits ⟨p, hp, hmoves⟩
    · rw [List.mem_singleton.mp hp] at hmoves
      exact absurd hkeep hmoves

theorem drafted_underWay (h : Drafted c w done s)
    (hnamed : ∀ lifecycle, namedLifecycle c w plan = some lifecycle →
      ∃ p ∈ done, namedLifecycle c w p = some lifecycle)
    (hlifecycles : s'.lifecycles = s.lifecycles) (hintents : s'.intents = s.intents)
    (hids : s'.intentIds = s.intentIds) (hretry : s'.retryForceSubmit = true) :
    Drafted c w (done ++ [plan]) s' := by
  have hkept : ∀ id i, s.intents.find? id = some i → s'.intents.find? id = some i :=
    fun id i hi => hintents ▸ hi
  refine ⟨hlifecycles ▸ h.apart, fun id hid => h.names_mono hkept (hids ▸ hid), ?_,
    fun _ => .inr hretry, h.touched_mono hlifecycles hintents⟩
  intro p hp lifecycle hname
  rcases List.mem_append.mp hp with hp | hp
  · exact h.named_mono hkept (fun id hid => hids ▸ hid) hp hname
  · rw [List.mem_singleton.mp hp] at hname
    obtain ⟨p', hp', hname'⟩ := hnamed lifecycle hname
    exact h.named_mono hkept (fun id hid => hids ▸ hid) hp' hname'

theorem namedLifecycle_of_untouched (hnew : Untouched c w s plan.symbol) (hkeep : plan.action ≠ .keep)
    (hfirst : firstOf s.lifecycles plan.symbol = some l) (hstatus : l.status ≠ plan.action.pending) :
    namedLifecycle c w plan = some (((priorIntent l.symbol s.intents).filter isClosingIntent).elim
      (.str l.uuid.text) fun prior => Dict.at prior.metadata "lifecycle_id") := by
  unfold namedLifecycle
  rw [if_neg hkeep, ← hnew.1, hfirst]
  dsimp only
  rw [if_neg hstatus, ← hnew.2 l (hnew.1.symm.trans hfirst)]
  cases (priorIntent l.symbol s.intents).filter isClosingIntent <;> rfl

theorem Drafted.add (h : Drafted c w done s) {i : OrderIntent}
    (hname : namedLifecycle c w plan = some (Dict.at i.metadata "lifecycle_id"))
    (hfind : s'.intents.find? i.id = some i) (hids : s'.intentIds = s.intentIds ++ [i.id])
    (hkept : ∀ id i, s.intents.find? id = some i → s'.intents.find? id = some i)
    (hapart : ∀ x ∈ s'.lifecycles, ∀ y ∈ s'.lifecycles,
      x.uuid.text = y.uuid.text → x.symbol = y.symbol)
    (htouched : ∀ symbol, Untouched c w s' symbol ∨ ∃ p ∈ done ++ [plan], p.action ≠ .keep ∧
      Casing.upper p.symbol = Casing.upper symbol ∧
      ∃ l, firstOf s'.lifecycles symbol = some l ∧ l.status = p.action.pending) :
    Drafted c w (done ++ [plan]) s' := by
  have hlast : i.id ∈ s'.intentIds := hids ▸ by simp
  refine ⟨hapart, ?_, ?_, fun _ => .inl (List.ne_nil_of_mem hlast), htouched⟩
  · intro id hid
    rw [hids, List.mem_append, List.mem_singleton] at hid
    rcases hid with hid | rfl
    · exact h.names_mono hkept hid
    · exact ⟨i, hfind, plan, List.mem_append_right _ (List.mem_singleton_self _), hname⟩
  · intro p hp lifecycle hp'
    rcases List.mem_append.mp hp with hp | hp
    · exact h.named_mono hkept (fun id hid => hids ▸ List.mem_append_left _ hid) hp hp'
    · rw [List.mem_singleton.mp hp, hname] at hp'
      exact ⟨i.id, hlast, i, hfind, Option.some.inj hp'⟩

theorem drafted_written (h : Drafted c w done s) (hkeep : plan.action ≠ .keep)
    (hfirst : firstOf s.lifecycles plan.symbol = some l)
    (hname : namedLifecycle c w plan = some (.str l.uuid.text))
    (hlifecycles : s'.lifecycles = (s.setPending l plan.action).lifecycles)
    (hintents : s'.intents = s.intents.putNew (exitIntent c l plan (newIntentId s.intents)))
    (hids : s'.intentIds = s.intentIds ++ [newIntentId s.intents]) :
    Drafted c w (done ++ [plan]) s' := by
  obtain ⟨hl, hsymbol⟩ := firstOf_some hfirst
  have hrow : s'.intents.find? (newIntentId s.intents) =
      some (exitIntent c l plan (newIntentId s.intents)) := by
    rw [hintents, find_putNew_exit, newIntentId_free, Option.none_or, if_pos rfl]
  have hkept : ∀ id i, s.intents.find? id = some i → s'.intents.find? id = some i := by
    intro id i hi
    rw [hintents, find_putNew_exit, hi, Option.some_or]
  refine h.add (i := exitIntent c l plan (newIntentId s.intents)) hname hrow hids hkept ?_
    fun symbol => ?_
  · have hsame : ∀ x ∈ s'.lifecycles, ∃ y ∈ s.lifecycles,
        x.uuid.text = y.uuid.text ∧ x.symbol = y.symbol := by
      intro x hx
      rw [hlifecycles] at hx
      obtain ⟨y, hy, rfl⟩ := List.mem_map.mp hx
      refine ⟨y, hy, ?_⟩
      split <;> exact ⟨rfl, rfl⟩
    -- only a status was set: the uuids and the symbols stay
    intro x hx y hy hxy
    obtain ⟨x', hx', hu, hs⟩ := hsame x hx
    obtain ⟨y', hy', hu', hs'⟩ := hsame y hy
    rw [hs, hs', h.apart x' hx' y' hy' (hu ▸ hu' ▸ hxy)]
  · by_cases hsame : Casing.upper plan.symbol = Casing.upper symbol
    · refine .inr ⟨plan, List.mem_append_right _ (List.mem_singleton_self _), hkeep, hsame,
        { l with status := plan.action.pending }, ?_, rfl⟩
      rw [hlifecycles, firstOf_setPending, ← firstOf_congr hsame, hfirst, Option.map_some,
        if_pos rfl]
    · have hne : Casing.upper l.symbol ≠ Casing.upper symbol := hsymbol ▸ hsame
      -- another symbol does not see the status, nor the intent
      have hothers : firstOf s'.lifecycles symbol = firstOf s.lifecycles symbol := by
        rw [hlifecycles]
        exact firstOf_setPending_other h.apart hl hne
      rcases h.touched symbol with hother | ⟨p, hp, htouched⟩
      · refine .inl (hother.other hothers fun l' hl' => ?_)
        rw [hintents]
        refine priorIntent_putNew (fun heq => hne ?_) _
        rw [heq, (firstOf_some hl').2]
      · rw [hothers]
        exact .inr ⟨p, List.mem_append_left _ hp, htouched⟩

/-- One more plan is drafted like those before it. -/
theorem drafted_step (h : Drafted c w done s) (harmed : c.shouldAutoSubmitForceClose = true)
    (hfit : PlansFit (openLifecycles c w) plans) (hdone : ∀ p ∈ done, p ∈ plans)
    (hplan : plan ∈ plans) : Drafted c w (done ++ [plan]) (draftPlan c s plan) := by
  by_cases hkeep : plan.action = .keep
  · exact drafted_keep h hkeep
  · obtain ⟨l, hfirst, hfound⟩ := h.first hfit hdone hplan
    rcases draftPlan_cases harmed hkeep (hfit.moves plan hplan) hfirst with
      ⟨hstatus, hlifecycles, hintents, hids, hretry⟩ |
      ⟨prior, hstatus, hprior, hlifecycles, hintents, hids⟩ |
      ⟨hstatus, hprior, hlifecycles, hintents, hids⟩
    · refine drafted_underWay h (fun lifecycle hname => ?_) hlifecycles hintents hids hretry
      -- an exit from before the call is named by none, one of this call by the plan that began it
      rcases hfound with hnew | ⟨-, plan', hplan', hsame⟩
      · unfold namedLifecycle at hname
        rw [if_neg hkeep, ← hnew.1, hfirst] at hname
        simp [hstatus] at hname
      · exact ⟨plan', hplan', hsame ▸ hname⟩
    · have hnew : Untouched c w s plan.symbol := hfound.resolve_right fun h => hstatus h.1
      have hname := namedLifecycle_of_untouched hnew hkeep hfirst hstatus
      have hmem := List.mem_of_find?_eq_some (Option.filter_eq_some_iff.mp hprior).1
      rw [hprior] at hname
      refine h.add hname ?_ hids (fun id i hi => hintents ▸ hi) (hlifecycles ▸ h.apart)
        (h.touched_mono hlifecycles hintents)
      rw [hintents]
      exact KeyedTable.find?_eq_some_iff.mpr ⟨hmem, rfl⟩
    · have hnew : Untouched c w s plan.symbol := hfound.resolve_right fun h => hstatus h.1
      have hname := namedLifecycle_of_untouched hnew hkeep hfirst hstatus
      rw [hprior] at hname
      exact drafted_written h hkeep hfirst hname hlifecycles hintents hids

theorem drafted_foldl {rest : List PositionClosePlan} (h : Drafted c w done s)
    (harmed : c.shouldAutoSubmitForceClose = true) (hfit : PlansFit (openLifecycles c w) plans)
    (hall : ∀ p ∈ done ++ rest, p ∈ plans) :
    Drafted c w (done ++ rest) (rest.foldl (draftPlan c) s) := by
  induction rest generalizing done s with
  | nil => rwa [List.append_nil]
  | cons plan rest ih =>
    have hstep : Drafted c w (done ++ [plan]) (draftPlan c s plan) :=
      drafted_step h harmed hfit (fun p hp => hall p (List.mem_append_left _ hp))
        (hall plan (List.mem_append_right _ List.mem_cons_self))
    have hrest := ih hstep (by rwa [List.append_assoc])
    rwa [List.append_assoc] at hrest

theorem drafted_draftPlans (harmed : c.shouldAutoSubmitForceClose = true)
    (hfit : PlansFit (openLifecycles c w) plans) (notes : List String) :
    Drafted c w plans (draftPlans c w (openLifecycles c w) plans notes) := by
  have hstart : Drafted c w [] ⟨openLifecycles c w, w.intents, [], [], notes, false⟩ := by
    refine ⟨?_, nofun, nofun, nofun, fun symbol => .inl ⟨rfl, fun l _ => rfl⟩⟩
    intro x hx y hy hxy
    rw [KeyedTable.eq_of_key_eq (List.mem_of_mem_filter hx) (List.mem_of_mem_filter hy) hxy]
  exact drafted_foldl hstart harmed hfit fun p hp => hp

end Drafts

/-! ## The whole call -/

section Runs

variable {c : ClosingCall} {w : ClosingWorld}

/-- The call gets to its plans: its policy is one, and the bus takes the event. -/
def Starts (c : ClosingCall) (w : ClosingWorld) : Prop :=
  (ClosingPolicy.ofValue c.settings.defaultClosingPolicy).isSome ∧ (enterWindow c w.events).2.isSome

section

variable [Casing]

def plansOf (c : ClosingCall) (w : ClosingWorld) : List PositionClosePlan :=
  match ClosingPolicy.ofValue c.settings.defaultClosingPolicy with
  | none => []
  | some policy => (closingDecision c policy (openLifecycles c w)).plans

def draftsOf (c : ClosingCall) (w : ClosingWorld) (notes : List String) : Drafting :=
  draftPlans c w (openLifecycles c w) (plansOf c w) notes

def closeBatch (c : ClosingCall) (w : ClosingWorld) : Batch :=
  submitBatch c.settings.toSettings w.orders (closeTurns c (openLifecycles c w) (plansOf c w))

def closeSteps (c : ClosingCall) (w : ClosingWorld) : List (Batch × BatchTurn) :=
  batchSteps c.settings.toSettings w.orders (closeTurns c (openLifecycles c w) (plansOf c w))

theorem plansFit_plansOf (c : ClosingCall) (w : ClosingWorld) :
    PlansFit (openLifecycles c w) (plansOf c w) := by
  unfold plansOf
  split
  · exact ⟨nofun, nofun, nofun⟩
  · exact plansFit_closingDecision _ _ _

theorem runClosing_of_not_starts (h : ¬ Starts c w) :
    (runClosing c w).report = none ∧ (runClosing c w).intentIds = [] ∧
      (runClosing c w).made = [] ∧ (runClosing c w).world.orders = w.orders := by
  unfold runClosing
  cases hpolicy : ClosingPolicy.ofValue c.settings.defaultClosingPolicy with
  | none => exact ⟨rfl, rfl, rfl, rfl⟩
  | some policy =>
    dsimp only
    cases hentered : (enterWindow c w.events).2 with
    | none => exact ⟨rfl, rfl, rfl, rfl⟩
    | some notes => exact absurd ⟨by rw [hpolicy]; rfl, by rw [hentered]; rfl⟩ h

theorem runClosing_of_starts (h : Starts c w) : ∃ notes decision,
    decision.plans = plansOf c w ∧
      runClosing c w = finishClosing c { w with events := (enterWindow c w.events).1 }
        (openLifecycles c w) decision (draftsOf c w notes) := by
  obtain ⟨hpolicy, hentered⟩ := h
  obtain ⟨policy, hpolicy⟩ := Option.isSome_iff_exists.mp hpolicy
  obtain ⟨notes, hentered⟩ := Option.isSome_iff_exists.mp hentered
  refine ⟨(closingDecision c policy (openLifecycles c w)).notes ++ notes,
    closingDecision c policy (openLifecycles c w), ?_, ?_⟩
  · unfold plansOf
    rw [hpolicy]
  · unfold runClosing draftsOf plansOf
    rw [hpolicy]
    dsimp only
    rw [hentered]
    rfl

theorem submitCloseIntents_eq (harmed : c.shouldAutoSubmitForceClose = true)
    (hactive : c.controls.isNewOrderAllowed = true) :
    submitCloseIntents c (openLifecycles c w) (plansOf c w) w.orders = closeBatch c w := by
  have hallowed : paperAutoSubmitAllowed c.settings.toSettings = true := by
    unfold ClosingCall.shouldAutoSubmitForceClose at harmed
    exact (Bool.and_eq_true_iff.mp harmed).2
  have hpassed : submitBlocked c.settings.toSettings c.controls true = false := by
    unfold paperAutoSubmitAllowed at hallowed
    grind [submitBlocked]
  unfold submitCloseIntents
  rw [hactive, hpassed]
  rfl

/-! ## Statuses that are true -/

def isExitKey (day : String) (lifecycle : Json) (key : String) : Bool :=
  match lifecycle with
  | .str id => [CloseAction.reduce, .close].any fun action => key = closeKey id action day
  | _ => false

/-- Among the orders made, an exit of the lifecycle is with the broker. -/
def exitSubmitted (day : String) (made : List Order) (lifecycle : Json) : Bool :=
  made.any fun o => isExitKey day lifecycle o.idempotencyKey && o.stands

/-- Each intent that the call wrote or took up is submitted only if the call submitted an exit of
    its lifecycle. -/
def StatusesTrue (c : ClosingCall) (w : ClosingWorld) : Prop :=
  ∀ i ∈ (runClosing c w).world.intents.rows, i.id ∈ (runClosing c w).intentIds →
    i.status = IntentStatus.submitted.value →
      exitSubmitted c.day (runClosing c w).made (Dict.at i.metadata "lifecycle_id") = true

/-- The call makes an order, and comes to mark its intents: the force close is armed and trading is
    on, no turn of the batch raises, and the exit of some turn goes out. -/
structure MarksIntents (c : ClosingCall) (w : ClosingWorld) : Prop where
  starts : Starts c w
  armed : c.shouldAutoSubmitForceClose = true
  active : c.controls.isNewOrderAllowed = true
  handled : ∀ x ∈ closeSteps c w, ¬ TurnRaises c.settings.toSettings x.1 x.2
  goesOut : ∃ x ∈ closeSteps c w, x.1.orders.Reaches c.settings.toSettings x.2.1 x.2.2 none

/-- At some turn, an exit of the lifecycle goes out and the broker takes it. -/
def ExitTaken (c : ClosingCall) (w : ClosingWorld) (lifecycle : Json) : Prop :=
  ∃ x ∈ closeSteps c w, isExitKey c.day lifecycle x.2.2.idempotencyKey = true ∧
    x.1.orders.Reaches c.settings.toSettings x.2.1 x.2.2 none ∧
    replyTakes x.2.1 (replyOf c.settings.toSettings x.2.1 x.2.2) = true

theorem unraised_closeBatch (h : ∀ x ∈ closeSteps c w, ¬ TurnRaises c.settings.toSettings x.1 x.2) :
    (closeBatch c w).raised = false := by
  by_contra hraised
  obtain ⟨x, hx, hturn⟩ := raised_submitBatch_iff.mp (Bool.eq_true_of_not_eq_false hraised)
  exact h x hx hturn

theorem exitSubmitted_iff
    (h : ∀ x ∈ closeSteps c w, ¬ TurnRaises c.settings.toSettings x.1 x.2) {lifecycle : Json} :
    exitSubmitted c.day (closeBatch c w).made lifecycle = true ↔ ExitTaken c w lifecycle := by
  unfold exitSubmitted ExitTaken
  simp only [List.any_eq_true, Bool.and_eq_true]
  have hmade := fun o => @mem_made_iff _ c.settings.toSettings w.orders
    (closeTurns c (openLifecycles c w) (plansOf c w)) (unraised_closeBatch h) o
  have hrow : ∀ x ∈ closeSteps c w, x.1.orders.Reaches c.settings.toSettings x.2.1 x.2.2 none →
      (turnRow c.settings.toSettings x.2.1 x.2.2 x.1.orders).stands =
        replyTakes x.2.1 (replyOf c.settings.toSettings x.2.1 x.2.2) := by
    intro x hx hreaches
    refine stands_repliedRow _ (Bool.eq_false_of_not_eq_true fun hraises => ?_)
    exact h x hx ⟨hreaches, hraises⟩
  constructor
  · rintro ⟨o, ho, hkey, hstands⟩
    obtain ⟨x, hx, hreaches, rfl⟩ := (hmade o).mp ho
    rw [(turnRow_kept _ _ _ _).1] at hkey
    rw [hrow x hx hreaches] at hstands
    exact ⟨x, hx, hkey, hreaches, hstands⟩
  · rintro ⟨x, hx, hkey, hreaches, htaken⟩
    refine ⟨_, (hmade _).mpr ⟨x, hx, hreaches, rfl⟩, ?_, ?_⟩
    · rwa [(turnRow_kept _ _ _ _).1]
    · rwa [hrow x hx hreaches]

theorem made_closeBatch_eq_nil_iff
    (h : ∀ x ∈ closeSteps c w, ¬ TurnRaises c.settings.toSettings x.1 x.2) :
    (closeBatch c w).made = [] ↔
      ¬ ∃ x ∈ closeSteps c w, x.1.orders.Reaches c.settings.toSettings x.2.1 x.2.2 none := by
  have hmade := fun o => @mem_made_iff _ c.settings.toSettings w.orders
    (closeTurns c (openLifecycles c w) (plansOf c w)) (unraised_closeBatch h) o
  rw [List.eq_nil_iff_forall_not_mem]
  constructor
  · rintro hnone ⟨x, hx, hreaches⟩
    exact hnone _ ((hmade _).mpr ⟨x, hx, hreaches, rfl⟩)
  · rintro hnone o ho
    obtain ⟨x, hx, hreaches, -⟩ := (hmade o).mp ho
    exact hnone ⟨x, hx, hreaches⟩

end

theorem not_submitted_of_created {t : IntentTable} {ids : List ℕ}
    (h : ∀ id ∈ ids, ∃ i, t.find? id = some i ∧ i.status = IntentStatus.created.value)
    {i : OrderIntent} (hi : i ∈ t.rows) (hid : i.id ∈ ids) :
    i.status ≠ IntentStatus.submitted.value := by
  obtain ⟨i', hfind, hstatus⟩ := h i.id hid
  rw [KeyedTable.find?_eq_some_iff.mpr ⟨hi, rfl⟩] at hfind
  rw [Option.some.inj hfind, hstatus]
  decide

theorem forall_marked_iff {t : IntentTable} {ids : List ℕ} {P : Dict Json → Prop} :
    (∀ i ∈ (markSubmitted ids t).rows, i.id ∈ ids → i.status = IntentStatus.submitted.value →
      P i.metadata) ↔ ∀ i ∈ t.rows, i.id ∈ ids → P i.metadata := by
  unfold markSubmitted
  simp only [KeyedTable.rows_update, List.forall_mem_map]
  refine forall₂_congr fun i _ => ?_
  by_cases hid : i.id ∈ ids
  · simp [hid]
  · simp [hid]

variable [Casing]

theorem drafted_draftsOf (harmed : c.shouldAutoSubmitForceClose = true) (notes : List String) :
    Drafted c w (plansOf c w) (draftsOf c w notes) :=
  drafted_draftPlans harmed (plansFit_plansOf c w) notes

theorem exists_exit_of_step {x : Batch × BatchTurn} (hx : x ∈ closeSteps c w) :
    ∃ plan ∈ plansOf c w, plan.action ≠ .keep := by
  have hturns : closeTurns c (openLifecycles c w) (plansOf c w) ≠ [] := by
    intro hnil
    unfold closeSteps batchSteps at hx
    rw [hnil] at hx
    cases hx
  have hsome : (plansOf c w).filterMap (planIntent c (openLifecycles c w)) ≠ [] := by
    intro hnil
    refine hturns ?_
    unfold closeTurns
    rw [hnil]
    rfl
  obtain ⟨intent, hintent⟩ := List.exists_mem_of_ne_nil _ hsome
  obtain ⟨plan, hplan, hintent⟩ := List.mem_filterMap.mp hintent
  refine ⟨plan, hplan, fun hkeep => ?_⟩
  unfold planIntent at hintent
  rw [if_pos hkeep] at hintent
  cases hintent

/-- The call marks all of its intents or none. -/
theorem intents_runClosing (hstarts : Starts c w) : ∃ notes,
    (runClosing c w).intentIds = (draftsOf c w notes).intentIds ∧
    (MarksIntents c w → (runClosing c w).made = (closeBatch c w).made ∧
      (runClosing c w).world.intents =
        markSubmitted (draftsOf c w notes).intentIds (draftsOf c w notes).intents) ∧
    (¬ MarksIntents c w → (runClosing c w).world.intents = (draftsOf c w notes).intents) := by
  obtain ⟨notes, decision, hplans, hrun⟩ := runClosing_of_starts hstarts
  refine ⟨notes, ?_⟩
  rw [hrun]
  -- what follows reads the loop by its ids, its intents and its flag alone
  generalize hs : draftsOf c w notes = s
  have hsubmits : c.shouldAutoSubmitForceClose = true → (∃ x, x ∈ closeSteps c w) →
      s.intentIds ≠ [] ∨ s.retryForceSubmit = true := by
    rintro harmed ⟨x, hx⟩
    rw [← hs]
    exact (drafted_draftsOf harmed notes).submits (exists_exit_of_step hx)
  unfold finishClosing
  dsimp only
  rw [hplans]
  split
  · rename_i hsubmit
    obtain ⟨hsome, harmed⟩ := hsubmit
    by_cases hactive : c.controls.isNewOrderAllowed = true
    · rw [submitCloseIntents_eq harmed hactive]
      by_cases hhandled : ∀ x ∈ closeSteps c w, ¬ TurnRaises c.settings.toSettings x.1 x.2
      · rw [unraised_closeBatch hhandled, if_neg Bool.false_ne_true]
        have hlength : (closeBatch c w).made.length = 0 ↔ ¬ ∃ x ∈ closeSteps c w,
            x.1.orders.Reaches c.settings.toSettings x.2.1 x.2.2 none :=
          List.length_eq_zero_iff.trans (made_closeBatch_eq_nil_iff hhandled)
        refine ⟨rfl, fun h => ⟨rfl, ?_⟩, fun h => ?_⟩
        · exact if_neg fun hnone => hlength.mp hnone h.goesOut
        · refine if_pos (hlength.mpr fun hgoes => h ?_)
          exact ⟨hstarts, harmed, hactive, hhandled, hgoes⟩
      · have hraised : (closeBatch c w).raised = true := by
          push Not at hhandled
          exact raised_submitBatch_iff.mpr hhandled
        rw [hraised, if_pos rfl]
        exact ⟨rfl, fun h => absurd h.handled hhandled, fun _ => rfl⟩
    · have hblocked : submitCloseIntents c (openLifecycles c w) (plansOf c w) w.orders =
          ⟨w.orders, [], false⟩ := by
        unfold submitCloseIntents
        rw [Bool.eq_false_of_not_eq_true hactive]
        rfl
      rw [hblocked]
      exact ⟨rfl, fun h => absurd h.active hactive, fun _ => rfl⟩
  · rename_i hidle
    refine ⟨rfl, fun h => absurd ⟨?_, h.armed⟩ hidle, fun _ => rfl⟩
    exact hsubmits h.armed (h.goesOut.imp fun x hx => hx.1)

/-- **When a submitted exit intent says the truth.** Either the call makes no order that it comes to
    count, or for each lifecycle that one of its intents names, an exit of that lifecycle goes out
    and the broker takes it. -/
theorem statusesTrue_iff (c : ClosingCall) (w : ClosingWorld) :
    StatusesTrue c w ↔ (MarksIntents c w → ∀ plan ∈ plansOf c w, ∀ lifecycle,
      namedLifecycle c w plan = some lifecycle → ExitTaken c w lifecycle) := by
  unfold StatusesTrue
  by_cases hstarts : Starts c w
  · obtain ⟨notes, hids, hmarked, hunmarked⟩ := intents_runClosing hstarts
    rw [hids]
    have hcreated : IdsCreated (draftsOf c w notes) := idsCreated_draftPlans _ _ _
    by_cases hsubmits : MarksIntents c w
    · obtain ⟨hmade, hintents⟩ := hmarked hsubmits
      have hdrafted : Drafted c w (plansOf c w) (draftsOf c w notes) :=
        drafted_draftsOf hsubmits.armed notes
      rw [hmade, hintents]
      simp only [hsubmits, true_implies, exitSubmitted_iff hsubmits.handled]
      have hmarks := @forall_marked_iff (draftsOf c w notes).intents (draftsOf c w notes).intentIds
        fun metadata => ExitTaken c w (Dict.at metadata "lifecycle_id")
      -- the lifecycles that the intents name are those that the plans are looked up to
      refine hmarks.trans ⟨fun h plan hplan lifecycle hname => ?_, fun h i hi hid => ?_⟩
      · obtain ⟨id, hid, i, hfind, rfl⟩ := hdrafted.named plan hplan lifecycle hname
        obtain ⟨hi, rfl⟩ := KeyedTable.find?_eq_some_iff.mp hfind
        exact h i hi hid
      · obtain ⟨i', hfind, plan, hplan, hname⟩ := hdrafted.names i.id hid
        rw [KeyedTable.find?_eq_some_iff.mpr ⟨hi, rfl⟩] at hfind
        rw [Option.some.inj hfind]
        exact h plan hplan _ hname
    · rw [hunmarked hsubmits]
      refine iff_of_true (fun i hi hid hstatus => ?_) fun h => absurd h hsubmits
      exact absurd hstatus (not_submitted_of_created hcreated hi hid)
  · have hids := (runClosing_of_not_starts hstarts).2.1
    rw [hids]
    exact iff_of_true (fun i _ hid => absurd hid List.not_mem_nil) fun h => absurd h.starts hstarts

end Runs

/-! ## Intents that are marked for the exits of others -/

section Sample

attribute [local instance] asciiCasing

instance (c : ClosingCall) (w : ClosingWorld) : Decidable (StatusesTrue c w) :=
  inferInstanceAs (Decidable (∀ i ∈ (runClosing c w).world.intents.rows,
    i.id ∈ (runClosing c w).intentIds → i.status = IntentStatus.submitted.value →
      exitSubmitted c.day (runClosing c w).made (Dict.at i.metadata "lifecycle_id") = true))

def closeAllCall : ClosingCall where
  settings :=
    { toWorkflowSettings := paperSettings, defaultClosingPolicy := "CLOSE_ALL"
      autoExecuteForceClose := false, allowNewPositionsInClosingWindow := false
      cancelEntryOrdersAtClosingWindow := true, eventDeduplicationWindowSeconds := 300 }
  venue := .us
  inClosingWindow := false
  controls := ⟨.active, none, 0, false⟩
  now := 0
  day := "2026-03-02"
  watchlist := []
  newestFirst := inTurn
  str := fun _ => ""
  newDecisionId := fun _ => "d1"
  answers := fun _ => ⟨0, fun _ => .error .timeout, none, fun _ => .ok (brokerAnswer .accepted 0), none⟩

def heldLong (symbol : String) (quantity : ℚ) (uuid : Ibkr.Uuid) : HeldLifecycle where
  id := 1
  symbol
  status := .open
  quantity
  averageEntryPrice := some 100
  currentPrice := some 100
  venue := "US"
  currency := none
  conId := none
  stopPrice := none
  protectionSubmitted := false
  uuid
  overnightAllowed := false
  exitPolicy := []
  decisionId := none

def exitOnFile (symbol status : String) (quantity : ℚ) (uuid : Ibkr.Uuid) : Order :=
  { brokerOrderId := some "b0", idempotencyKey := closeKey uuid.text .close "2026-03-02", symbol
    side := "sell", qty := quantity, orderType := "market", limitPrice := none, stopPrice := none
    status, decisionId := none, submittedAt := some 0, rawPayload := [], createdAt := 0 }

def uuidTwo : Ibkr.Uuid := uuidOf '2' (by decide)

def twoHeld (first second : HeldLifecycle) (h : [first.uuid.text, second.uuid.text].Nodup)
    (orders : OrderTable) : ClosingWorld where
  lifecycles := ⟨[first, second], h⟩
  intents := KeyedTable.empty
  orders := { OrderBook.emptyBook with orders }
  events := KeyedTable.empty

def reopenedBesideOther : ClosingWorld :=
  twoHeld (heldLong "AAPL" 10 uuidOne) (heldLong "MSFT" 5 uuidTwo) (by decide +kernel)
    ⟨[exitOnFile "AAPL" "FILLED" 10 uuidOne], List.nodup_singleton _⟩

def twoOfOneSymbol : ClosingWorld :=
  twoHeld (heldLong "AAPL" 10 uuidOne) (heldLong "AAPL" 5 uuidTwo) (by decide +kernel)
    KeyedTable.empty

/-- **Marked without an exit.** The exit of AAPL is skipped as filled and that of MSFT goes out, and
    both intents are marked; or the intent is written for the first lifecycle of AAPL, and the exit
    is that of the second. -/
theorem marked_without_exit :
    ¬ StatusesTrue closeAllCall reopenedBesideOther ∧ ¬ StatusesTrue closeAllCall twoOfOneSymbol :=
  ⟨by decide +kernel, by decide +kernel⟩

end Sample

end Investor.Intraday
