import Investor.Workflow.TickScope

/-!
# The flatten of leftovers

Once in a session the leftovers of earlier ones are closed, by the first tick that finds no marker
`leftover_intraday_flatten_at` in the metadata. The marker is set in the tick's copy of the
metadata, as everything else is that the stations note, and the copy is written back at the end of
the tick. There are ways out before that end: a tick of the interval trigger returns with `min_gap`
after its stations, and a tick may raise. On both the marker is lost with the rest of the copy, and
the next tick closes the leftovers again.

A session is a sequence of ticks, each under the transaction of its caller.
-/

namespace Investor.Workflow

open Lib Schema Market Risk Core Execution Intraday

def hasMarker (m : Dict Json) : Bool := (Dict.at m "leftover_intraday_flatten_at").truthy

section Calls

variable [Casing] (env : Env) (w : World) (c : DeskTick)

/-- The session a call works on, and the world its stations start from. -/
def DeskTick.opened : Option (SessionKey × World) :=
  match openTick env c.desk c.call.sessionDate c.call.now w with
  | (.ok k, w₀) => some (k, w₀)
  | (.error _, _) => none

/-- What a call knows when it comes to the flatten, and the world then. -/
def DeskTick.atFlatten : Option (SessionKey × Watched × World) :=
  match c.opened env w with
  | some (k, w₀) =>
    match watch env c.desk k w₀ with
    | (.ok s, w₁) => some (k, s, w₁)
    | (.error _, _) => none
  | none => none

def DeskTick.runsFlatten : Bool :=
  match c.atFlatten env w with
  | some (_, s, _) => leftoversDue (c.desk.calendar.status c.call.now) s.notes
  | none => false

def DeskTick.flattens : Bool :=
  match c.atFlatten env w with
  | some (_, s, w₁) =>
    leftoversDue (c.desk.calendar.status c.call.now) s.notes &&
      (callService env (c.desk.intraday.runClosing false) w₁).1.toBool
  | none => false

/-- The call ends with `min_gap`: its session and its notes by then. -/
def DeskTick.endsEarly : Option (SessionKey × Dict Json) :=
  match c.atFlatten env w with
  | some (k, s, w₁) =>
    match flattenStation env c.desk (c.desk.calendar.status c.call.now) c.call.now s.notes w₁ with
    | (.ok m, w₂) =>
      match weigh env c.desk k c.call.trigger c.call.now s m w₂ with
      | (.ok none, _) => some (k, m)
      | _ => none
    | (.error _, _) => none
  | none => none

def DeskTick.commits : Prop :=
  ∃ r w', evaluateIntraday env c.desk c.call.sessionDate c.call.trigger c.call.now w = (.ok r, w') ∧
    w'.db.broken = false ∧ (c.scoped env w).db = Session.fresh w'.db.working

def DeskTick.InSession (k : SessionKey) : Prop :=
  sessionOf env c.desk c.call.sessionDate w = (.ok k, w)

end Calls

section Session

variable {env : Env} {k : SessionKey}

/-- **The leftovers of a session are closed once**, unless that raises: a tick after one in which it
    returned finds the marker and does not run it. And a tick that returns early has the metadata of
    its run as it noted them. -/
structure FlattenedOnce [Casing] (env : Env) (w : World) (calls : List DeskTick) : Prop where
  seen : ∀ done c mid d rest, calls = done ++ c :: (mid ++ d :: rest) →
    c.flattens env (runFrom (DeskTick.scoped env) w done) →
    ∀ k s w₁, d.atFlatten env (runFrom (DeskTick.scoped env) w (done ++ c :: mid)) =
      some (k, s, w₁) → hasMarker s.notes
  once : ∀ done c mid d rest, calls = done ++ c :: (mid ++ d :: rest) →
    c.flattens env (runFrom (DeskTick.scoped env) w done) →
    d.runsFlatten env (runFrom (DeskTick.scoped env) w (done ++ c :: mid)) = false
  kept : ∀ done c rest, calls = done ++ c :: rest →
    ∀ k m, c.endsEarly env (runFrom (DeskTick.scoped env) w done) = some (k, m) →
      RunHas k (fun run => ∀ key, Dict.get? run.metadata key = Dict.get? m key)
        (c.step env (runFrom (DeskTick.scoped env) w done))

/-- The notes of a call are not lost: one in which the closing of leftovers returned does not end
    early and is committed, and one that ends early has noted nothing its run does not have. -/
structure StoresNotes [Casing] (env : Env) (w : World) (c : DeskTick) : Prop where
  flattened : c.flattens env w → c.endsEarly env w = none ∧ c.commits env w
  early : ∀ k m, c.endsEarly env w = some (k, m) → ∀ w₀, c.opened env w = some (k, w₀) →
    ∀ run, w₀.db.working.runs.find? k = some run → ∀ key,
      Dict.get? m key = Dict.get? run.metadata key

/-! ## One tick -/

/-- The run is on the tape, and its metadata have the marker. -/
structure Flattened (run : DailyWorkflowRun) : Prop where
  onTape : IsOnTape run
  marker : hasMarker run.metadata

structure Marked (k : SessionKey) (w : World) : Prop where
  fresh : w.db = Session.fresh w.db.committed
  run : ∃ run, w.db.committed.runs.find? k = some run ∧ Flattened run

theorem Marked.runHas {w : World} (h : Marked k w) : RunHas k Flattened w := by
  intro _
  rw [h.fresh]
  exact h.run

theorem marked_of_runHas {w w' : World} (husable : w'.db.broken = false)
    (hrun : RunHas k Flattened w') (hdb : w.db = Session.fresh w'.db.working) : Marked k w := by
  refine ⟨?_, ?_⟩
  · rw [hdb]
    rfl
  · rw [hdb]
    exact hrun husable

variable {m : Dict Json}

theorem hasMarker_of_agrees {keys : List String} {m₀ : Dict Json} (h : AgreesOff keys m₀ m)
    (hkey : "leftover_intraday_flatten_at" ∉ keys) : hasMarker m = hasMarker m₀ := by
  unfold hasMarker
  rw [h.at hkey]

theorem openTick_session [Casing] {w : World} {c : DeskTick} (hsession : c.InSession env w k) :
    Eff.Spec (· = w) (openTick env c.desk c.call.sessionDate c.call.now) (fun k' _ => k' = k)
      fun _ _ => True := by
  have hany : Calm fun _ : World => True := ⟨fun _ _ => trivial, fun _ _ => trivial⟩
  have hkey : Eff.Spec (· = w) (sessionOf env c.desk c.call.sessionDate)
      (fun k' _ => True ∧ k' = k) fun _ _ => True := by
    rintro x rfl
    rw [hsession]
    exact ⟨trivial, rfl⟩
  refine Eff.Spec.bind hkey fun k' => Eff.Spec.assume fun hk' => ?_
  subst hk'
  refine Eff.Spec.bind ((requireRun_found hany).weaken (fun _ h => h) (fun run x h =>
    ⟨trivial, (KeyedTable.find?_eq_some_iff.mp h.1).2⟩) fun _ _ h => h) fun run =>
      Eff.Spec.assume fun hrun => ?_
  refine Eff.Spec.bind Eff.Spec.any fun _ => Eff.Spec.ite (fun _ => Eff.Spec.throw fun _ _ => trivial)
    fun _ => Eff.Spec.ite (fun _ => Eff.Spec.pure fun _ _ => hrun) fun _ => ?_
  exact Eff.Spec.bind Eff.Spec.any fun _ => Eff.Spec.pure fun _ _ => hrun

theorem openTick_marked [Casing] {w : World} {c : DeskTick} {Q : DailyWorkflowRun → Prop}
    (hQ : ∀ r, Q r → IsOnTape r) (hsession : c.InSession env w k) (hw : RunHas k Q w) :
    Eff.Spec (· = w) (openTick env c.desk c.call.sessionDate c.call.now)
      (fun k' w₀ => RunHas k Q w₀ ∧ k' = k) fun _ _ => True := by
  have hkey : Eff.Spec (· = w) (sessionOf env c.desk c.call.sessionDate)
      (fun k' x => RunHas k Q x ∧ k' = k) fun _ _ => True := by
    rintro x rfl
    rw [hsession]
    exact ⟨hw, rfl⟩
  refine Eff.Spec.bind hkey fun k' => Eff.Spec.assume fun hk' => ?_
  subst hk'
  have hcalm := calm_runHas k' Q
  have hrequire : Eff.Spec (RunHas k' Q) (requireRun env k')
      (fun run x => RunHas k' Q x ∧ (Q run ∧ run.session = k')) fun _ _ => True := by
    refine (((keeps_requireRun hcalm).and (requireRun_found hcalm))).weaken (fun _ h => ⟨h, h⟩)
      (fun run x h => ⟨h.1, ?_⟩) fun _ _ _ => trivial
    obtain ⟨run', hrun', hq⟩ := h.1 h.2.2
    obtain rfl := Option.some.inj (h.2.1.symm.trans hrun')
    exact ⟨hq, (KeyedTable.find?_eq_some_iff.mp hrun').2⟩
  refine Eff.Spec.bind hrequire fun run => Eff.Spec.assume fun hrun => ?_
  have hblocked : Eff.Spec (RunHas k' Q) (assertNotBlocked c.desk run) (fun _ => RunHas k' Q)
      fun _ _ => True :=
    keeps_assertNotBlocked.weaken (fun _ h => h) (fun _ _ h => h) fun _ _ _ => trivial
  refine Eff.Spec.bind hblocked fun _ => Eff.Spec.ite (fun _ => Eff.Spec.throw fun _ _ => trivial)
    fun _ => Eff.Spec.ite (fun _ => Eff.Spec.pure fun _ h => ⟨h, hrun.2⟩) fun hoff => ?_
  -- the tick would have changed the state of a run off the tape
  exact absurd (hQ run hrun.1) hoff

variable {desk : Desk} {now : Int}

theorem flattenStation_marked {status : MarketStatus} (h : hasMarker m) :
    flattenStation env desk status now m = pure m := by
  have hdue : leftoversDue status m = false := by
    unfold leftoversDue
    rw [show (Dict.at m "leftover_intraday_flatten_at").truthy = true from h]
    simp
  unfold flattenStation
  rw [hdue]
  rfl

theorem watch_marked :
    Eff.Spec (RunHas k Flattened) (watch env desk k) (fun s _ => hasMarker s.notes)
      fun _ _ => True := by
  intro w hw
  by_cases husable : w.db.broken = false
  · obtain ⟨run, hrun, hflattened⟩ := hw husable
    cases hend : watch env desk k w with
    | mk r w' =>
      cases r with
      | error e => trivial
      | ok s =>
        have hnotes := watch_notes.of_ok (fun _ => ⟨run, hrun, rfl⟩) hend
        show hasMarker s.notes
        rw [hasMarker_of_agrees hnotes (by decide)]
        exact hflattened.marker
  · have hstop : watch env desk k w = (.error _, w) :=
      Eff.bind_of_error (loadedRun_stops (Bool.eq_true_of_not_eq_false husable))
    rw [hstop]
    trivial

theorem stations_marked {trigger : String} :
    Eff.Spec (RunHas k Flattened) (stations env desk k trigger now)
      (fun found w => RunHas k Flattened w ∧ ∀ t, found = some t → hasMarker t.notes)
      fun _ _ => True := by
  have hnotes : Eff.Spec (RunHas k Flattened) (stations env desk k trigger now)
      (fun found _ => ∀ t, found = some t → hasMarker t.notes) fun _ _ => True := by
    rw [stations_eq]
    refine Eff.Spec.bind (watch_marked.weaken (fun _ h => h) (fun _ _ h => ⟨trivial, h⟩)
      fun _ _ h => h) fun s => Eff.Spec.assume fun hmarker => ?_
    rw [flattenStation_marked hmarker]
    refine weigh_notes.weaken (fun _ h => h) (fun found _ h t ht => ?_) fun _ _ h => h
    rw [h t ht]
    exact hmarker
  exact ((keeps_stations (calm_runHas k Flattened)).and hnotes).weaken (fun _ h => ⟨h, h⟩)
    (fun _ _ h => h) fun _ _ _ => trivial

theorem LeftNoted.flattened {keys : List String} {notes : Dict Json} {w : World}
    (h : LeftNoted k IsOnTape keys notes w) (hkey : "leftover_intraday_flatten_at" ∉ keys)
    (hmarker : hasMarker notes) : RunHas k Flattened w := by
  intro _
  obtain ⟨run, run', honTape, hrun', hnotes, -, htape⟩ := h.noted
  refine ⟨run', hrun', htape honTape, ?_⟩
  rw [hasMarker_of_agrees hnotes hkey]
  exact hmarker

theorem committee_marked [Casing] {t : TickNotes} (hmarker : hasMarker t.notes) :
    Eff.Spec (RunHas k IsOnTape)
      (committeeStation env desk k t >>= fun outcome => closeTick env desk k now t outcome)
      (fun _ => RunHas k Flattened) fun _ _ => True := by
  have hcalled : Eff.Spec (RunHas k IsOnTape) (committeeStation env desk k t)
      (fun _ => RunHas k IsOnTape) fun _ _ => True :=
    (keeps_committeeStation_runHas fun _ _ h => h).weaken (fun _ h => h) (fun _ _ h => h)
      fun _ _ _ => trivial
  refine Eff.Spec.bind hcalled fun outcome => ?_
  exact (closeTick_leaves fun _ _ h => h).weaken (fun _ h => h)
    (fun _ w h => h.flattened (by decide) hmarker) fun _ _ h => h

theorem marked_scoped [Casing] {w : World} {c : DeskTick} (hsession : c.InSession env w k)
    (hw : Marked k w) : Marked k (c.scoped env w) := by
  rcases scoped_cases env w c with ⟨r, w', hcall, husable, hdb⟩ | hdb
  · refine marked_of_runHas husable ?_ hdb
    have hspec : Eff.Spec (· = w)
        (evaluateIntraday env c.desk c.call.sessionDate c.call.trigger c.call.now)
        (fun _ => RunHas k Flattened) fun _ _ => True := by
      refine Eff.Spec.bind (openTick_marked (fun r h => h.onTape) hsession hw.runHas)
        fun k' => Eff.Spec.assume fun hk' => ?_
      subst hk'
      refine Eff.Spec.bind stations_marked fun found => Eff.Spec.assume fun hnotes => ?_
      cases found with
      | none => exact Eff.Spec.pure fun _ h => h
      | some t =>
        refine (committee_marked (hnotes t rfl)).pre fun x hx hb => ?_
        obtain ⟨run, hrun, hflattened⟩ := hx hb
        exact ⟨run, hrun, hflattened.onTape⟩
    exact hspec.of_ok rfl hcall
  · refine ⟨?_, ?_⟩
    · rw [hdb]
      rfl
    · rw [hdb]
      exact hw.run

variable {w₁ : World}

theorem flattenStation_flattens {status : MarketStatus} {flattened : Json} {w₂ : World}
    (hdue : leftoversDue status m)
    (hreturned : callService env (desk.intraday.runClosing false) w₁ = (.ok flattened, w₂)) :
    ∃ m', flattenStation env desk status now m w₁ = (.ok m', w₂) ∧ hasMarker m' := by
  refine ⟨Dict.set (Dict.set m "leftover_intraday_flatten_at" (stamp now))
    "leftover_intraday_flatten" flattened, ?_, ?_⟩
  · unfold flattenStation
    rw [if_pos hdue]
    exact Eff.tryCatch_of_ok (Eff.bind_of_ok hreturned)
  · unfold hasMarker Dict.at
    rw [Dict.get?_set_of_ne _ _ (by decide), Dict.get?_set_self]
    rfl

variable [Casing]

theorem atFlatten_eq_some {w : World} {c : DeskTick} {s : Watched}
    (h : c.atFlatten env w = some (k, s, w₁)) :
    ∃ w₀, openTick env c.desk c.call.sessionDate c.call.now w = (.ok k, w₀) ∧
      watch env c.desk k w₀ = (.ok s, w₁) := by
  unfold DeskTick.atFlatten DeskTick.opened at h
  split at h
  · rename_i k' w₀ hopened
    split at hopened
    · rename_i k'' w₀' hopen
      cases hopened
      split at h
      · rename_i s' w₁' hwatch
        cases h
        exact ⟨w₀, hopen, hwatch⟩
      · cases h
    · cases hopened
  · cases h

theorem flatten_of_flattens {w : World} {c : DeskTick} (h : c.flattens env w) :
    ∃ k' s w₁ m w₂, c.atFlatten env w = some (k', s, w₁) ∧
      flattenStation env c.desk (c.desk.calendar.status c.call.now) c.call.now s.notes w₁ =
        (.ok m, w₂) ∧ hasMarker m := by
  unfold DeskTick.flattens at h
  cases hflatten : c.atFlatten env w with
  | none =>
    rw [hflatten] at h
    cases h
  | some found =>
    obtain ⟨k', s, w₁⟩ := found
    rw [hflatten] at h
    simp only [Bool.and_eq_true] at h
    obtain ⟨hdue, hreturned⟩ := h
    cases hclosing : callService env (c.desk.intraday.runClosing false) w₁ with
    | mk closed w₂ =>
      rw [hclosing] at hreturned
      cases closed with
      | error e => cases hreturned
      | ok flattened =>
        obtain ⟨m, hstation, hmarker⟩ := flattenStation_flattens hdue hclosing
        exact ⟨k', s, w₁, m, w₂, rfl, hstation, hmarker⟩

theorem committee_of_flattens {w w' : World} {c : DeskTick} {r : IntradayEvalResult × String}
    (hflattens : c.flattens env w) (hlate : c.endsEarly env w = none)
    (hcall : evaluateIntraday env c.desk c.call.sessionDate c.call.trigger c.call.now w = (.ok r, w')) :
    ∃ k' w₀ t w₃, openTick env c.desk c.call.sessionDate c.call.now w = (.ok k', w₀) ∧
      stations env c.desk k' c.call.trigger c.call.now w₀ = (.ok (some t), w₃) ∧
      hasMarker t.notes ∧ (committeeStation env c.desk k' t >>= fun outcome =>
        closeTick env c.desk k' c.call.now t outcome) w₃ = (.ok r, w') := by
  obtain ⟨k', s, w₁, m, w₂, hflatten, hstation, hmarker⟩ := flatten_of_flattens hflattens
  obtain ⟨w₀, hopen, hwatch⟩ := atFlatten_eq_some hflatten
  -- the stations go on from the flatten as the gap is weighed
  have hstations : stations env c.desk k' c.call.trigger c.call.now w₀ =
      weigh env c.desk k' c.call.trigger c.call.now s m w₂ := by
    rw [stations_eq, Eff.bind_of_ok hwatch, Eff.bind_of_ok hstation]
  unfold evaluateIntraday tick at hcall
  rw [Eff.bind_of_ok hopen] at hcall
  cases hweigh : weigh env c.desk k' c.call.trigger c.call.now s m w₂ with
  | mk weighed w₃ =>
    rw [hweigh] at hstations
    cases weighed with
    | error e =>
      rw [Eff.bind_of_error hstations] at hcall
      cases hcall
    | ok found =>
      rw [Eff.bind_of_ok hstations] at hcall
      cases found with
      | none =>
        unfold DeskTick.endsEarly at hlate
        simp only [hflatten, hstation, hweigh] at hlate
        cases hlate
      | some t =>
        have hnotes : t.notes = m := weigh_notes.of_ok trivial hweigh t rfl
        exact ⟨k', w₀, t, w₃, hopen, hstations, hnotes ▸ hmarker, hcall⟩

theorem marked_of_flattens {w : World} {c : DeskTick} (hsession : c.InSession env w k)
    (hflattens : c.flattens env w) (hlate : c.endsEarly env w = none)
    (hcommits : c.commits env w) : Marked k (c.scoped env w) := by
  obtain ⟨r, w', hcall, husable, hdb⟩ := hcommits
  refine marked_of_runHas husable ?_ hdb
  obtain ⟨k', w₀, t, w₃, hopen, hstations, hmarker, hended⟩ :=
    committee_of_flattens hflattens hlate hcall
  obtain rfl : k' = k := (openTick_session hsession).of_ok rfl hopen
  have honTape : RunHas k' IsOnTape w₀ := openTick_onTape.of_ok trivial hopen
  have hkept : RunHas k' IsOnTape w₃ :=
    (keeps_stations (calm_runHas k' IsOnTape)).of_end honTape hstations
  exact (committee_marked hmarker).of_ok hkept hended

theorem seen_of_marked {w : World} {c : DeskTick} (hsession : c.InSession env w k) (hw : Marked k w)
    {k' : SessionKey} {s : Watched} (hflatten : c.atFlatten env w = some (k', s, w₁)) :
    hasMarker s.notes := by
  obtain ⟨w₀, hopen, hwatch⟩ := atFlatten_eq_some hflatten
  obtain ⟨hrun, rfl⟩ :=
    (openTick_marked (fun r h => h.onTape) hsession hw.runHas).of_ok rfl hopen
  exact watch_marked.of_ok hrun hwatch

theorem endsEarly_eq_some {w : World} {c : DeskTick} (h : c.endsEarly env w = some (k, m)) :
    ∃ w₀ w₃, openTick env c.desk c.call.sessionDate c.call.now w = (.ok k, w₀) ∧
      stations env c.desk k c.call.trigger c.call.now w₀ = (.ok none, w₃) ∧
      c.step env w = w₃ := by
  unfold DeskTick.endsEarly at h
  split at h
  · rename_i k' s w₁ hflatten
    split at h
    · rename_i m' w₂ hstation
      split at h
      · rename_i w₃ hweigh
        cases h
        obtain ⟨w₀, hopen, hwatch⟩ := atFlatten_eq_some hflatten
        have hstations : stations env c.desk k c.call.trigger c.call.now w₀ = (.ok none, w₃) := by
          rw [stations_eq, Eff.bind_of_ok hwatch, Eff.bind_of_ok hstation]
          exact hweigh
        refine ⟨w₀, w₃, hopen, hstations, ?_⟩
        have hcall : evaluateIntraday env c.desk c.call.sessionDate c.call.trigger c.call.now w =
            (.ok (.noChange, "min_gap"), w₃) :=
          (Eff.bind_of_ok hopen).trans (Eff.bind_of_ok hstations)
        exact congrArg Prod.snd hcall
      · cases h
    · cases h
  · cases h

theorem kept_of_storesNotes {w : World} {c : DeskTick} (h : StoresNotes env w c)
    (hearly : c.endsEarly env w = some (k, m)) :
    RunHas k (fun run => ∀ key, Dict.get? run.metadata key = Dict.get? m key) (c.step env w) := by
  obtain ⟨w₀, w₃, hopen, hstations, hstep⟩ := endsEarly_eq_some hearly
  obtain ⟨run₀, hrun₀, -⟩ :=
    openTick_onTape.of_ok trivial hopen (usable_of_stations hstations)
  have hkept : RunHas k (· = run₀) w₃ :=
    (keeps_stations (calm_runHas k (· = run₀))).of_end (fun _ => ⟨run₀, hrun₀, rfl⟩) hstations
  rw [hstep]
  intro hb
  obtain ⟨run, hrun, rfl⟩ := hkept hb
  have hopened : c.opened env w = some (k, w₀) := by
    unfold DeskTick.opened
    rw [hopen]
  exact ⟨run, hrun, fun key => (h.early k m hearly w₀ hopened run hrun₀ key).symm⟩

/-! ## A session of ticks -/

/-- **Over the ticks of a session the leftovers are closed once and nothing noted is lost**, if a
    tick that closes them does not end early and is stored, and a tick that ends early has noted
    nothing new. -/
theorem flattened_once {w : World} {calls : List DeskTick}
    (hmeets : StepsMeet (DeskTick.scoped env)
      (fun w c => c.InSession env w k ∧ StoresNotes env w c) w calls) :
    FlattenedOnce env w calls := by
  have hseen : ∀ done c mid d rest, calls = done ++ c :: (mid ++ d :: rest) →
      c.flattens env (runFrom (DeskTick.scoped env) w done) →
      ∀ k' s w₁, d.atFlatten env (runFrom (DeskTick.scoped env) w (done ++ c :: mid)) =
        some (k', s, w₁) → hasMarker s.notes := by
    intro done c mid d rest hcalls hflattens k' s w₁ hflatten
    subst hcalls
    -- the first tick leaves the marker, those between keep it, and the last one reads it
    obtain ⟨hfirst, hrest⟩ := (StepsMeet.append_iff.mp hmeets).2
    obtain ⟨hlate, hcommits⟩ := hfirst.2.flattened hflattens
    have hmarked := marked_of_flattens hfirst.1 hflattens hlate hcommits
    obtain ⟨hmid, hnext, -⟩ := StepsMeet.append_iff.mp hrest
    have hstill : Marked k (runFrom (DeskTick.scoped env)
        (c.scoped env (runFrom (DeskTick.scoped env) w done)) mid) :=
      run_invariant_of_meets (fun x a hx ha => marked_scoped ha.1 hx) hmarked hmid
    rw [runFrom_append, runFrom_cons] at hflatten
    exact seen_of_marked hnext.1 hstill hflatten
  refine ⟨hseen, fun done c mid d rest hcalls hflattens => ?_, fun done c rest hcalls k' m hearly => ?_⟩
  · unfold DeskTick.runsFlatten
    split
    · rename_i k' s w₁ hflatten
      have hmarker := hseen done c mid d rest hcalls hflattens k' s w₁ hflatten
      unfold leftoversDue
      rw [show (Dict.at s.notes "leftover_intraday_flatten_at").truthy = true from hmarker]
      simp
    · rfl
  · subst hcalls
    exact kept_of_storesNotes (StepsMeet.append_iff.mp hmeets).2.1.2 hearly

end Session

/-! ## A session that closes its leftovers twice -/

section FlattenedTwice

attribute [local instance] asciiCasing

def leftoverTick (answer : ServiceAnswer Json) (now : Int) : DeskTick :=
  { desk := { deskDeciding (decisionOf .hold []) with
      intraday := { quietIntraday with runClosing := fun _ _ => answer } }
    call := { sessionDate := some 0, trigger := "interval", now } }

def storedMarker (k : SessionKey) (tables : Tables) : Bool :=
  match tables.runs.find? k with
  | some run => hasMarker run.metadata
  | none => false

theorem commits_of_storedMarker {env : Env} {w : World} {c : DeskTick} {k : SessionKey}
    (hbefore : storedMarker k w.db.committed = false)
    (hafter : storedMarker k (c.scoped env w).db.committed = true) : c.commits env w := by
  rcases scoped_cases env w c with hcommits | hdb
  · exact hcommits
  · rw [hdb] at hafter
    rw [show (Session.fresh w.db.committed).committed = w.db.committed from rfl, hbefore] at hafter
    cases hafter

/-- The two ticks of a session, half an hour apart, close its leftovers in the first. -/
theorem flattened_once_of_two :
    FlattenedOnce (acceptingEnv fun _ => false) revalidatedWorld
      [leftoverTick (answers .null) 0, leftoverTick (answers .null) 1800] := by
  have hcommits : (leftoverTick (answers .null) 0).commits (acceptingEnv fun _ => false)
      revalidatedWorld := by
    refine @commits_of_storedMarker _ _ _ { sessionDate := 0, calendarName := "NYSE" } ?_ ?_
    · decide +kernel
    · decide +kernel
  have hfirst : StoresNotes (acceptingEnv fun _ => false) revalidatedWorld
      (leftoverTick (answers .null) 0) := by
    have hlate : (leftoverTick (answers .null) 0).endsEarly (acceptingEnv fun _ => false)
        revalidatedWorld = none := Option.isNone_iff_eq_none.mp (by decide +kernel)
    refine ⟨fun _ => ⟨hlate, hcommits⟩, fun k m hearly => ?_⟩
    rw [hlate] at hearly
    cases hearly
  have hsecond : StoresNotes (acceptingEnv fun _ => false)
      ((leftoverTick (answers .null) 0).scoped (acceptingEnv fun _ => false) revalidatedWorld)
      (leftoverTick (answers .null) 1800) := by
    refine ⟨fun hflattens => absurd hflattens (by decide +kernel), fun k m hearly => ?_⟩
    have hlate : (leftoverTick (answers .null) 1800).endsEarly (acceptingEnv fun _ => false)
        ((leftoverTick (answers .null) 0).scoped (acceptingEnv fun _ => false) revalidatedWorld) =
        none := Option.isNone_iff_eq_none.mp (by decide +kernel)
    rw [hlate] at hearly
    cases hearly
  exact @flattened_once _ { sessionDate := 0, calendarName := "NYSE" } _ _ _
    ⟨⟨rfl, hfirst⟩, ⟨rfl, hsecond⟩, trivial⟩

def leftoverTicks : List DeskTick :=
  [leftoverTick (raises (.other "broker down")) 0, leftoverTick (answers .null) 300,
    leftoverTick (answers .null) 600]

/-- **A second tick within the gap closes the leftovers, and the third closes them again.** -/
theorem leftovers_closed_twice :
    ¬ FlattenedOnce (acceptingEnv fun _ => false) revalidatedWorld leftoverTicks := by
  intro honce
  have hagain := honce.once [leftoverTick (raises (.other "broker down")) 0]
    (leftoverTick (answers .null) 300) [] (leftoverTick (answers .null) 600) [] rfl
    (by decide +kernel)
  have hruns : (leftoverTick (answers .null) 600).runsFlatten (acceptingEnv fun _ => false)
      (runFrom (DeskTick.scoped (acceptingEnv fun _ => false)) revalidatedWorld
        ([leftoverTick (raises (.other "broker down")) 0] ++
          leftoverTick (answers .null) 300 :: [])) = true := by
    decide +kernel
  rw [hruns] at hagain
  cases hagain

end FlattenedTwice

end Investor.Workflow
