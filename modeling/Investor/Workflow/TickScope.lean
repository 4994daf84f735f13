import Investor.Workflow.TickRecords

/-!
# What a tick notes, and what is stored of it

The stations of a tick note what they did in a copy of the run's metadata, each under keys of its
own (`AgreesOff`). The copy becomes the metadata of the run at the end of the tick, and it becomes
durable with the commit of the caller: a call that returns is committed, one that raises is rolled
back (`DeskTick.scoped`). In between, the run keeps its count and its place on the tape whatever
the stations and the committee do (`RunHas`).

The stations are cut in two at the flatten of leftovers (`stations_eq`), since a tick may still end
early after it.
-/

namespace Investor.Workflow

open Lib Schema Market Risk Core Execution Intraday

/-! ## Notes under keys of their own -/

def AgreesOff (keys : List String) (m₀ m : Dict Json) : Prop :=
  ∀ key, key ∉ keys → Dict.get? m key = Dict.get? m₀ key

section AgreesOff

variable {keys : List String} {m₀ m m' : Dict Json}

theorem AgreesOff.refl (keys : List String) (m : Dict Json) : AgreesOff keys m m := fun _ _ => rfl

theorem AgreesOff.trans (h : AgreesOff keys m₀ m) (h' : AgreesOff keys m m') :
    AgreesOff keys m₀ m' :=
  fun key hkey => (h' key hkey).trans (h key hkey)

theorem AgreesOff.mono {keys' : List String} (h : AgreesOff keys m₀ m)
    (hkeys : ∀ key ∈ keys, key ∈ keys') : AgreesOff keys' m₀ m :=
  fun key hoff => h key fun hkey => hoff (hkeys key hkey)

theorem agreesOff_set {key : String} (hkey : key ∈ keys) (m : Dict Json) (v : Json) :
    AgreesOff keys m (Dict.set m key v) :=
  fun _ hoff => Dict.get?_set_of_ne m v fun heq => hoff (heq ▸ hkey)

theorem agreesOff_merge {e : Dict Json} (h : ∀ x ∈ e, x.1 ∈ keys) (m : Dict Json) :
    AgreesOff keys m (Dict.merge m e) := by
  induction e generalizing m with
  | nil => exact AgreesOff.refl keys m
  | cons x e ih =>
    exact (agreesOff_set (h x List.mem_cons_self) m x.2).trans
      (ih (fun y hy => h y (List.mem_cons_of_mem x hy)) (Dict.set m x.1 x.2))

theorem AgreesOff.at {key : String} (h : AgreesOff keys m₀ m) (hkey : key ∉ keys) :
    Dict.at m key = Dict.at m₀ key := by
  unfold Dict.at
  rw [h key hkey]

end AgreesOff

def WATCH_KEYS : List String :=
  ["last_session_fold", "last_session_fold_error", "last_news_ingest", "last_news_ingest_error",
    "data_fail_closed", "data_fail_closed_reasons", "data_fail_closed_cleared",
    "last_monitor_price_error", "last_monitor", "last_monitor_error", "last_event_drain_error"]

def FLATTEN_KEYS : List String :=
  ["leftover_intraday_flatten_at", "leftover_intraday_flatten", "leftover_intraday_flatten_error"]

section Stations

variable {env : Env} {desk : Desk} {k : SessionKey}

theorem exceptException_value {α : Type} {p : Prog α} {handler : Fault → Prog α} {Q : α → Prop}
    (hp : Eff.Spec (fun _ => True) p (fun a _ => Q a) fun _ _ => True)
    (hh : ∀ e, Eff.Spec (fun _ => True) (handler e) (fun a _ => Q a) fun _ _ => True) :
    Eff.Spec (fun _ => True) (exceptException p handler) (fun a _ => Q a) fun _ _ => True :=
  Eff.Spec.tryCatch hp fun e => Eff.Spec.ite (fun _ => hh e) fun _ =>
    Eff.Spec.throw fun _ _ => trivial

theorem noted_value {α β : Type} {answer : Nat → ServiceAnswer α} {f : α → β} {g : Fault → β}
    {Q : β → Prop} (hf : ∀ a, Q (f a)) (hg : ∀ e, Q (g e)) :
    Eff.Spec (fun _ => True) (exceptException (callService env answer >>= fun a => pure (f a))
      fun e => pure (g e)) (fun b _ => Q b) fun _ _ => True :=
  exceptException_value (Eff.Spec.bind Eff.Spec.any fun a => Eff.Spec.pure fun _ _ => hf a) fun e =>
    Eff.Spec.pure fun _ _ => hg e

theorem foldStation_notes (m : Dict Json) :
    Eff.Spec (fun _ => True) (foldStation env desk m) (fun m' _ => AgreesOff WATCH_KEYS m m')
      fun _ _ => True := by
  refine noted_value (fun fold => ?_) fun e => agreesOff_set (by decide) m _
  cases fold with
  | none => exact AgreesOff.refl _ m
  | some marked => exact agreesOff_set (by decide) m marked

theorem newsStation_notes (m : Dict Json) :
    Eff.Spec (fun _ => True) (newsStation env desk m) (fun r _ => AgreesOff WATCH_KEYS m r.2)
      fun _ _ => True :=
  noted_value (Q := fun r : Option NewsIngest × Dict Json => AgreesOff WATCH_KEYS m r.2)
    (fun _ => agreesOff_set (by decide) m _) fun _ => agreesOff_set (by decide) m _

theorem clearDataGate_notes (prices : Dict ℚ) (m : Dict Json) :
    AgreesOff WATCH_KEYS m (clearDataGate desk prices m) := by
  unfold clearDataGate
  extract_lets reasons soft
  split
  · refine agreesOff_merge (fun x hx => ?_) m
    simp only [List.mem_cons, List.not_mem_nil, or_false] at hx
    rcases hx with rfl | rfl | rfl <;> decide
  · exact AgreesOff.refl _ m

theorem monitorStation_notes (m : Dict Json) :
    Eff.Spec (fun _ => True) (monitorStation env desk m) (fun r _ => AgreesOff WATCH_KEYS m r.2)
      fun _ _ => True := by
  refine Eff.Spec.ite (fun _ => ?_) fun _ => ?_
  · have hprices : Eff.Spec (fun _ => True) (monitorPrices env desk m)
        (fun r _ => AgreesOff WATCH_KEYS m r.2) fun _ _ => True :=
      noted_value (Q := fun r : Dict ℚ × Dict Json => AgreesOff WATCH_KEYS m r.2)
        (fun _ => AgreesOff.refl _ m) fun _ => agreesOff_set (by decide) m _
    refine Eff.Spec.bind (hprices.weaken (fun _ h => h) (fun _ _ h => ⟨trivial, h⟩)
      fun _ _ h => h) fun priced => Eff.Spec.assume fun hpriced => ?_
    have hcleared := hpriced.trans (@clearDataGate_notes desk priced.1 priced.2)
    exact noted_value (Q := fun r : Monitored × Dict Json => AgreesOff WATCH_KEYS m r.2)
      (fun _ => hcleared.trans (agreesOff_set (by decide) _ _)) fun _ =>
        hcleared.trans (agreesOff_set (by decide) _ _)
  · exact noted_value (Q := fun r : Monitored × Dict Json => AgreesOff WATCH_KEYS m r.2)
      (fun _ => AgreesOff.refl _ m) fun _ => agreesOff_set (by decide) m _

theorem flattenStation_notes {status : MarketStatus} {now : Int} (m : Dict Json) :
    Eff.Spec (fun _ => True) (flattenStation env desk status now m)
      (fun m' _ => AgreesOff FLATTEN_KEYS m m') fun _ _ => True := by
  refine Eff.Spec.ite (fun _ => ?_) fun _ => Eff.Spec.pure fun _ _ => AgreesOff.refl _ m
  exact noted_value (fun _ => (agreesOff_set (by decide) m _).trans (agreesOff_set (by decide) _ _))
    fun _ => agreesOff_set (by decide) m _

/-! ## The stations, cut at the flatten -/

structure Watched where
  news : Option NewsIngest
  mon : Monitored
  notes : Dict Json

def watch (env : Env) (desk : Desk) (k : SessionKey) : Prog Watched := do
  let run ← loadedRun k
  let m ← foldStation env desk run.metadata
  let news ← newsStation env desk m
  let mon ← monitorStation env desk news.2
  return { news := news.1, mon := mon.1, notes := mon.2 }

def weigh (env : Env) (desk : Desk) (k : SessionKey) (trigger : String) (now : Int) (s : Watched)
    (m : Dict Json) : Prog (Option TickNotes) := do
  let status := desk.calendar.status now
  let effective := effectiveTrigger trigger s.mon s.news
  let early ← withinGap env desk status now effective.1 m
  if early then return none
  else do
    let run ← loadedRun k
    let r := tickResult desk status run.intradayReanalysisCount effective.1
    return some { notes := m, trigger := effective.1, eventIds := effective.2,
                  summary := s.mon.summary, result := r.1, reason := r.2 }

theorem stations_eq {trigger : String} {now : Int} :
    stations env desk k trigger now =
      (do
        let s ← watch env desk k
        let m ← flattenStation env desk (desk.calendar.status now) now s.notes
        weigh env desk k trigger now s m : Prog (Option TickNotes)) := by
  unfold watch
  rw [Eff.bind_bind]
  refine bind_congr fun run => ?_
  rw [Eff.bind_bind]
  refine bind_congr fun m => ?_
  rw [Eff.bind_bind]
  refine bind_congr fun news => ?_
  rw [Eff.bind_bind]
  rfl

end Stations

/-! ## The run in the session -/

/-- The run of the session, where it can be used, is as the assertion says. -/
def RunHas (k : SessionKey) (Q : DailyWorkflowRun → Prop) (w : World) : Prop :=
  w.db.broken = false → ∃ run, w.db.working.runs.find? k = some run ∧ Q run

section RunHas

variable {k : SessionKey} {Q R : DailyWorkflowRun → Prop}

theorem calm_runHas (k : SessionKey) (Q : DailyWorkflowRun → Prop) : Calm (RunHas k Q) where
  tick := fun _ h => h
  abort := fun _ _ hb => absurd hb (by simp)

theorem submitFree_runHas (k : SessionKey) (Q : DailyWorkflowRun → Prop) :
    SubmitFree (RunHas k Q) where
  tick := (calm_runHas k Q).tick
  abort := (calm_runHas k Q).abort
  set := fun _ h => h
  insert := fun _ h => h
  accept := fun _ h => h
  send := fun _ h => h

theorem assignRun_runHas {f : DailyWorkflowRun → DailyWorkflowRun}
    {hf : ∀ r, (f r).session = r.session} (h : ∀ r, Q r → R (f r)) :
    Eff.Spec (RunHas k Q) (assignRun k f hf) (fun _ => RunHas k R) fun _ => RunHas k Q := by
  refine Eff.Spec.bind loadedRun_spec fun run => Eff.Spec.edit fun w hw husable => ?_
  obtain ⟨r, hr, hq⟩ := hw.1 husable
  exact ⟨f r, found_setRun hf hr, h r hq⟩

variable {env : Env} {desk : Desk}

theorem watch_notes {run : DailyWorkflowRun} :
    Eff.Spec (RunHas k (· = run)) (watch env desk k)
      (fun s _ => AgreesOff WATCH_KEYS run.metadata s.notes) fun _ _ => True := by
  have hloaded : Eff.Spec (RunHas k (· = run)) (loadedRun k) (fun r _ => True ∧ r = run)
      fun _ _ => True := by
    refine loadedRun_spec.weaken (fun _ h => h) (fun r w hw => ⟨trivial, ?_⟩) fun _ _ _ => trivial
    obtain ⟨run', hrun', rfl⟩ := hw.1 hw.2.1
    exact Option.some.inj (hw.2.2.symm.trans hrun')
  refine Eff.Spec.bind hloaded fun r => Eff.Spec.assume fun hr => ?_
  subst hr
  refine Eff.Spec.bind ((foldStation_notes r.metadata).weaken (fun _ h => h)
    (fun _ _ h => ⟨trivial, h⟩) fun _ _ h => h) fun m => Eff.Spec.assume fun hfold => ?_
  refine Eff.Spec.bind ((newsStation_notes m).weaken (fun _ h => h)
    (fun _ _ h => ⟨trivial, h⟩) fun _ _ h => h) fun news => Eff.Spec.assume fun hnews => ?_
  refine Eff.Spec.bind ((monitorStation_notes news.2).weaken (fun _ h => h)
    (fun _ _ h => ⟨trivial, h⟩) fun _ _ h => h) fun mon => Eff.Spec.assume fun hmon => ?_
  exact Eff.Spec.pure fun _ _ => (hfold.trans hnews).trans hmon

theorem weigh_notes {trigger : String} {now : Int} {s : Watched} {m : Dict Json} :
    Eff.Spec (fun _ => True) (weigh env desk k trigger now s m)
      (fun found _ => ∀ t, found = some t → t.notes = m) fun _ _ => True := by
  refine Eff.Spec.bind Eff.Spec.any fun early => Eff.Spec.ite
    (fun _ => Eff.Spec.pure fun _ _ t ht => nomatch ht) fun _ => ?_
  refine Eff.Spec.bind Eff.Spec.any fun run => Eff.Spec.pure fun _ _ t ht => ?_
  cases ht
  rfl

theorem stations_notes {run : DailyWorkflowRun} {trigger : String} {now : Int} :
    Eff.Spec (RunHas k (· = run)) (stations env desk k trigger now)
      (fun found _ => ∀ t, found = some t →
        AgreesOff (WATCH_KEYS ++ FLATTEN_KEYS) run.metadata t.notes) fun _ _ => True := by
  rw [stations_eq]
  refine Eff.Spec.bind (watch_notes.weaken (fun _ h => h) (fun _ _ h => ⟨trivial, h⟩)
    fun _ _ h => h) fun s => Eff.Spec.assume fun hwatched => ?_
  refine Eff.Spec.bind ((flattenStation_notes s.notes).weaken (fun _ h => h)
    (fun _ _ h => ⟨trivial, h⟩) fun _ _ h => h) fun m => Eff.Spec.assume fun hflattened => ?_
  refine weigh_notes.weaken (fun _ h => h) (fun found _ h t ht => ?_) fun _ _ h => h
  rw [h t ht]
  exact (hwatched.mono fun _ => List.mem_append_left _).trans
    (hflattened.mono fun _ => List.mem_append_right _)

theorem usable_of_stations {trigger : String} {now : Int} {found : Option TickNotes} {w w' : World}
    (h : stations env desk k trigger now w = (.ok found, w')) : w.db.broken = false := by
  by_contra hbroken
  have hstop : stations env desk k trigger now w = (.error _, w) :=
    Eff.bind_of_error (loadedRun_stops (Bool.eq_true_of_not_eq_false hbroken))
  rw [hstop] at h
  cases h

theorem keeps_committeeStation_runHas [Casing] {t : TickNotes}
    (hmeta : ∀ r m, Q r → Q { r with metadata := m }) :
    Eff.Keeps (RunHas k Q) (committeeStation env desk k t) := by
  have hcalm := calm_runHas k Q
  refine Eff.Keeps.ite (Eff.Spec.map (keeps_evaluate_calm hcalm (fun f => ?_) ?_)) Eff.keeps_pure
  · exact assignRun_runHas fun r hr => hmeta r (f r.metadata) hr
  · intro _ m n a runId portfolio u c _
    exact Eff.Keeps.ite (Eff.Spec.map (keeps_materialize hcalm (fun _ _ h => h) fun _ _ _ =>
      keeps_submitValidated_free (submitFree_runHas k Q))) Eff.keeps_pure

abbrev IsOnTape (r : DailyWorkflowRun) : Prop := r.currentState.isOnTape = true

theorem requireRun_found {I : World → Prop} (hI : Calm I) :
    Eff.Spec I (requireRun env k)
      (fun run w => w.db.working.runs.find? k = some run ∧ w.db.broken = false)
      fun _ _ => True := by
  have hread : Eff.Spec I (getCurrent env k)
      (fun found w => w.db.working.runs.find? k = found ∧ w.db.broken = false)
      (fun _ _ => True) :=
    (query_spec hI).weaken (fun _ h => h) (fun found w h => ⟨h.2.2.symm, h.2.1⟩) fun _ _ _ => trivial
  refine Eff.Spec.bind hread fun found => ?_
  cases found with
  | none => exact Eff.Spec.throw fun _ _ => trivial
  | some run => exact Eff.Spec.pure fun _ h => h

theorem openTick_onTape [Casing] {day : Option Int} {now : Int} :
    Eff.Spec (fun _ => True) (openTick env desk day now) (fun k w => RunHas k IsOnTape w)
      fun _ _ => True := by
  have hany : Calm fun _ : World => True := ⟨fun _ _ => trivial, fun _ _ => trivial⟩
  refine Eff.Spec.bind Eff.Spec.any fun k => Eff.Spec.bind (requireRun_found hany) fun run => ?_
  let Found : World → Prop := fun w => w.db.working.runs.find? k = some run ∧ w.db.broken = false
  have hblocked : Eff.Spec Found (assertNotBlocked desk run) (fun _ => Found) (fun _ _ => True) :=
    keeps_assertNotBlocked.weaken (fun _ h => h) (fun _ _ h => h) fun _ _ _ => trivial
  refine Eff.Spec.bind hblocked fun _ => Eff.Spec.ite (fun _ => Eff.Spec.throw fun _ _ => trivial)
    fun _ => Eff.Spec.ite (fun honTape => Eff.Spec.pure fun w hw _ => ?_) fun _ => ?_
  · exact ⟨run, by rw [(KeyedTable.find?_eq_some_iff.mp hw.1).2]; exact hw.1, honTape⟩
  · have hreach : Eff.Spec Found (reachIntraday env desk run.session now)
        (fun _ w => RunHas run.session IsOnTape w) (fun _ _ => True) := by
      refine Eff.Spec.bind (Eff.Spec.any.pre fun _ _ => trivial) fun _ =>
        Eff.Spec.bind (requireRun_found hany) fun run' => ?_
      refine Eff.Spec.ite (fun honTape => Eff.Spec.pure fun w hw _ => ⟨run', hw.1, honTape⟩)
        fun _ => Eff.Spec.ite (fun _ => ?_) fun _ => Eff.Spec.throw fun _ _ => trivial
      refine Eff.Spec.bind (Eff.Spec.any.pre fun _ _ => trivial) fun _ =>
        Eff.Spec.bind (requireRun_found hany) fun run'' => ?_
      exact Eff.Spec.ite (fun honTape => Eff.Spec.pure fun w hw _ => ⟨run'', hw.1, honTape⟩)
        fun _ => Eff.Spec.throw fun _ _ => trivial
    exact Eff.Spec.bind hreach fun _ => Eff.Spec.pure fun _ hw => hw

end RunHas

/-! ## The end of a tick -/

def END_KEYS : List String :=
  ["last_force_close", "last_force_close_error", "last_intraday_eval_at", "last_intraday_result",
    "last_monitor"]

/-- A usable session whose run was as the assertion says, and has the notes for its metadata now,
    but for some keys. -/
structure LeftNoted (k : SessionKey) (Q : DailyWorkflowRun → Prop) (keys : List String)
    (notes : Dict Json) (w : World) : Prop where
  usable : w.db.broken = false
  noted : ∃ run run', Q run ∧ w.db.working.runs.find? k = some run' ∧
    AgreesOff keys notes run'.metadata ∧
    run'.intradayReanalysisCount = run.intradayReanalysisCount ∧ (IsOnTape run → IsOnTape run')

section Ending

variable {env : Env} {desk : Desk} {k : SessionKey} {Q R : DailyWorkflowRun → Prop} {now : Int}
  {t : TickNotes}

theorem agreesOff_tickMeta (now : Int) (t : TickNotes) :
    AgreesOff END_KEYS t.notes (tickMeta now t) := by
  have hown : AgreesOff END_KEYS t.notes (Dict.set (Dict.set t.notes "last_intraday_eval_at"
      (stamp now)) "last_intraday_result" (.str t.result.value)) :=
    (agreesOff_set (by decide) t.notes _).trans (agreesOff_set (by decide) _ _)
  unfold tickMeta
  cases t.summary with
  | none => exact hown
  | some summary => exact hown.trans (agreesOff_set (by decide) _ _)

theorem forceCloseStation_notes {status : MarketStatus} :
    Eff.Spec (RunHas k Q) (forceCloseStation env desk status t)
      (fun t' w => RunHas k Q w ∧ AgreesOff END_KEYS t.notes t'.notes) fun _ _ => True := by
  have hkeeps : Eff.Keeps (RunHas k Q) (forceCloseStation env desk status t) :=
    Eff.Keeps.ite (keeps_noted (calm_runHas k Q) (fun _ => Eff.keeps_pure) fun _ => Eff.keeps_pure)
      Eff.keeps_pure
  have hnotes : Eff.Spec (fun _ => True) (forceCloseStation env desk status t)
      (fun t' _ => AgreesOff END_KEYS t.notes t'.notes) fun _ _ => True :=
    Eff.Spec.ite (fun _ => noted_value (Q := fun t' : TickNotes => AgreesOff END_KEYS t.notes t'.notes)
      (fun _ => agreesOff_set (by decide) t.notes _) fun _ => agreesOff_set (by decide) t.notes _)
      fun _ => Eff.Spec.pure fun _ _ => AgreesOff.refl _ _
  exact (hkeeps.and hnotes).weaken (fun _ h => ⟨h, trivial⟩) (fun _ _ h => h) fun _ _ _ => trivial

theorem writeBack_leaves :
    Eff.Spec (RunHas k Q) (writeBack env k now t) (fun _ => LeftNoted k Q END_KEYS t.notes)
      fun _ _ => True := by
  intro w hw
  by_cases husable : w.db.broken = false
  · obtain ⟨run, hrun, hq⟩ := hw husable
    by_cases hgoes : WriteGoes env run.currentState w
    · obtain ⟨w', hwrote, husable', run', hrun', hnoted⟩ := @writeBack_goes env k w now t run hrun hgoes
      rw [hwrote]
      refine ⟨husable', run, run', hq, hrun', ?_, hnoted.counts, hnoted.onTape⟩
      rw [hnoted.notes]
      exact agreesOff_tickMeta now t
    · obtain ⟨e, w', hstop, -⟩ := @writeBack_stops env k w now t run husable hrun hgoes
      rw [hstop]
      trivial
  · have hstop : writeBack env k now t w = (.error _, w) :=
      Eff.bind_of_error (Eff.bind_of_error (loadedRun_stops (Bool.eq_true_of_not_eq_false husable)))
    rw [hstop]
    trivial

theorem finish_leaves :
    Eff.Spec (RunHas k Q)
      (do
        let t ← forceCloseStation env desk (desk.calendar.status now) t
        writeBack env k now t
        return (t.result, t.reason) : Prog (IntradayEvalResult × String))
      (fun _ => LeftNoted k Q END_KEYS t.notes) fun _ _ => True := by
  refine Eff.Spec.bind forceCloseStation_notes fun t' => Eff.Spec.assume fun hnotes => ?_
  refine Eff.Spec.bind writeBack_leaves fun _ => Eff.Spec.pure fun w hw => ⟨hw.usable, ?_⟩
  obtain ⟨run, run', hq, hrun', hoff, hrest⟩ := hw.noted
  exact ⟨run, run', hq, hrun', hnotes.trans hoff, hrest⟩

theorem afterCommittee_notes {outcome : Option AgentOutcome}
    (hQ : ∀ r n, Q r → Q { r with intradayReanalysisCount := n }) :
    Eff.Spec (RunHas k Q) (afterCommittee env desk k t outcome)
      (fun t' w => RunHas k Q w ∧ AgreesOff ["last_intraday_agent"] t.notes t'.notes)
      fun _ _ => True := by
  have hcount : ∀ o, Eff.Spec (RunHas k Q) (countReanalysis env desk k t o)
      (fun t' w => RunHas k Q w ∧ AgreesOff ["last_intraday_agent"] t.notes t'.notes)
      fun _ _ => True := by
    intro o
    have hassign : Eff.Spec (RunHas k Q) (assignRun k (fun r =>
        { r with intradayReanalysisCount := r.intradayReanalysisCount + 1 }) fun _ => rfl)
        (fun _ => RunHas k Q) fun _ _ => True :=
      (assignRun_runHas fun r hr => hQ r _ hr).weaken (fun _ h => h) (fun _ _ h => h)
        fun _ _ _ => trivial
    have hmarking : Eff.Keeps (RunHas k Q) (marking env desk) :=
      Keeps.exceptException (keeps_callService (calm_runHas k Q)) fun _ => Eff.keeps_pure
    refine Eff.Spec.bind hassign fun _ => Eff.Spec.bind (hmarking.weaken (fun _ h => h)
      (fun _ _ h => h) fun _ _ _ => trivial) fun _ => Eff.Spec.pure fun w hw => ⟨hw, ?_⟩
    exact agreesOff_set List.mem_cons_self t.notes _
  unfold afterCommittee
  split
  · exact Eff.Spec.pure fun w hw => ⟨hw, AgreesOff.refl _ _⟩
  · exact Eff.Spec.pure fun w hw => ⟨hw, AgreesOff.refl _ _⟩
  · exact hcount _

theorem closeTick_leaves {outcome : Option AgentOutcome}
    (hQ : ∀ r n, Q r → Q { r with intradayReanalysisCount := n }) :
    Eff.Spec (RunHas k Q) (closeTick env desk k now t outcome)
      (fun _ => LeftNoted k Q ("last_intraday_agent" :: END_KEYS) t.notes) fun _ _ => True := by
  refine Eff.Spec.bind (afterCommittee_notes hQ) fun t' => Eff.Spec.assume fun hnotes => ?_
  refine finish_leaves.weaken (fun _ h => h) (fun _ w hw => ⟨hw.usable, ?_⟩) fun _ _ h => h
  obtain ⟨run, run', hq, hrun', hoff, hrest⟩ := hw.noted
  refine ⟨run, run', hq, hrun', ?_, hrest⟩
  exact (hnotes.mono fun _ hkey => by simpa using Or.inl (List.mem_singleton.mp hkey)).trans
    (hoff.mono fun _ hkey => List.mem_cons_of_mem _ hkey)

end Ending

/-! ## Under the transaction of the caller -/

/-- A call as its callers make it: committed where it returns, rolled back where it raises. -/
def scopedTick [Casing] (env : Env) (c : DeskTick) : Prog Unit :=
  tryCatch (do
    let _ ← evaluateIntraday env c.desk c.call.sessionDate c.call.trigger c.call.now
    commit env) fun _ => rollback

def DeskTick.scoped [Casing] (env : Env) (w : World) (c : DeskTick) : World :=
  (scopedTick env c w).2

section Scope

variable [Casing] {env : Env} {c : DeskTick} {w : World}

theorem steady_committed (tables : Tables) : Steady fun w => w.db.committed = tables where
  tick := fun _ h => h
  abort := fun _ h => h
  leases := fun _ h => h
  change := fun _ _ _ h => h
  create := fun _ _ _ h => h
  intents := fun _ _ h => h
  submits := fun _ _ _ => keeps_submitValidated_free
    { tick := fun _ h => h, abort := fun _ h => h, set := fun _ h => h
      insert := fun _ h => h, accept := fun _ h => h, send := fun _ h => h }

theorem scoped_cases (env : Env) (w : World) (c : DeskTick) :
    (∃ r w', evaluateIntraday env c.desk c.call.sessionDate c.call.trigger c.call.now w = (.ok r, w') ∧
      w'.db.broken = false ∧ (c.scoped env w).db = Session.fresh w'.db.working) ∨
    (c.scoped env w).db = Session.fresh w.db.committed := by
  let call := evaluateIntraday env c.desk c.call.sessionDate c.call.trigger c.call.now
  have hcommitted : (call w).2.db.committed = w.db.committed :=
    (keeps_evaluateIntraday (steady_committed w.db.committed)).at_end rfl
  have hrolled : ∀ e w', (call >>= fun _ => commit env) w = (.error e, w') →
      w'.db.committed = w.db.committed → (c.scoped env w).db = Session.fresh w.db.committed := by
    intro e w' hraised hsame
    have hend : scopedTick env c w = rollback w' := Eff.tryCatch_of_error hraised
    unfold DeskTick.scoped
    rw [hend, ← hsame]
    rfl
  cases hcall : call w with
  | mk r w' =>
    rw [hcall] at hcommitted
    cases r with
    | error e => exact Or.inr (hrolled e w' (Eff.bind_of_error hcall) hcommitted)
    | ok r =>
      -- the flush of the commit leaves the session as it is, or breaks it
      let Same : World → Prop := fun x => (x.db.broken = false → x.db = w'.db) ∧
        x.db.committed = w.db.committed
      have hcalm : Calm Same :=
        ⟨fun _ h => h, fun x h => ⟨fun hb => absurd hb (by simp), h.2⟩⟩
      have hspec := commit_spec env hcalm w' ⟨fun _ => rfl, hcommitted⟩
      cases hcommit : commit env w' with
      | mk r' w'' =>
        rw [hcommit] at hspec
        have hboth : (call >>= fun _ => commit env) w = (r', w'') :=
          (Eff.bind_of_ok hcall).trans hcommit
        cases r' with
        | error e => exact Or.inr (hrolled e w'' hboth hspec.2)
        | ok u =>
          obtain ⟨x, hsame, husable, rfl⟩ := hspec
          have hdb : x.db = w'.db := hsame.1 husable
          refine Or.inl ⟨r, w', hcall, hdb ▸ husable, ?_⟩
          have hend : scopedTick env c w = (.ok u, { x with db := Session.fresh x.db.working }) :=
            Eff.tryCatch_of_ok hboth
          unfold DeskTick.scoped
          rw [hend, hdb]

end Scope

end Investor.Workflow
