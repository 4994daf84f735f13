import Investor.Alerts.Service

/-!
# The alerts of reconciliations

Each call of `emit_reconciliation_alert` makes a service of its own, which remembers nothing: only
an unresolved row holds an alert back. Books in sync resolve what was raised. So a result is sent
once in each stretch between two reconciliations that are in sync, whatever else is found and
whoever acknowledges what (`recon_alert_once`).
-/

namespace Investor.Alerts

open Lib

/-- `_RECON_ALERT_RESULTS`. -/
def RECON_ALERT_RESULTS : List String := ["MATERIAL_DRIFT", "BROKER_UNAVAILABLE", "LOCAL_STATE_INVALID"]

def RECON_CODES : List String := ["recon.material_drift", "recon.broker_unavailable", "recon.local_state_invalid"]

/-- `AlertService(session, settings=cfg)`. -/
def newService (w : World) : World := { w with alerts := [], lastEmit := [] }

/-- `resolve_alerts_by_code`. -/
def resolveAlertsByCode (code : String) (w : World) : ℕ × World := resolveByCode code (newService w)

structure Recon where
  result : String
  createdAt : Int
  now : Int

section Recons

def Recon.args [Casing] (c : Recon) : EmitArgs :=
  { code := "recon." ++ Casing.lower c.result
    severity := if c.result ∈ ["MATERIAL_DRIFT", "LOCAL_STATE_INVALID"] then .critical else .warning
    dedupeKey := some ("recon:" ++ c.result), createdAt := c.createdAt, now := c.now }

/-- `emit_reconciliation_alert`. -/
def emitReconciliationAlert [Casing] (cfg : AlertSettings) (c : Recon) (w : World) :
    Option EmitResult × World :=
  if c.result = "IN_SYNC" then (none, RECON_CODES.foldl (fun w code => (resolveAlertsByCode code w).2) w)
  else if c.result ∉ RECON_ALERT_RESULTS then (none, w)
  else (some (emit cfg c.args (newService w)).1, (emit cfg c.args (newService w)).2)

inductive ReconStep
  | reconciled (c : Recon)
  | acknowledge (id : ℕ)

def reconStep [Casing] (cfg : AlertSettings) (w : World) : ReconStep → World
  | .reconciled c => (emitReconciliationAlert cfg c w).2
  | .acknowledge id => (Alerts.acknowledge id (newService w)).2

/-- The results since the books were last in sync. -/
def sinceInSync (seen : List String) : ReconStep → List String
  | .reconciled c => if c.result = "IN_SYNC" then [] else c.result :: seen
  | .acknowledge _ => seen

/-- What is unresolved is what was seen since the books were in sync. -/
structure Episodes [Casing] (w : World) (seen : List String) : Prop where
  session : w.session
  ids : (w.rows.map (·.id)).Nodup
  below : ∀ r ∈ w.rows, r.id < w.nextId
  raised : ∀ r ∈ w.rows, ∃ result ∈ RECON_ALERT_RESULTS,
    r.effectiveDedupeKey = "recon:" ++ result ∧ r.code = "recon." ++ Casing.lower result
  open_iff : ∀ result ∈ RECON_ALERT_RESULTS,
    (∃ r ∈ w.rows, r.effectiveDedupeKey = "recon:" ++ result ∧ r.status.unresolved) ↔ result ∈ seen

/-- The rows have other statuses, and those of the codes are resolved. -/
def Restated (codes : List String) (w w' : World) : Prop :=
  w'.session = w.session ∧ w'.nextId = w.nextId ∧ ∃ f : AlertRecord → AlertRecord, w'.rows = w.rows.map f ∧
    ∀ r ∈ w.rows, f r = { r with status := (f r).status } ∧
      ((f r).status.unresolved ↔ r.status.unresolved ∧ r.code ∉ codes)

variable {cfg : AlertSettings} {w w' : World} {seen seen' codes : List String}

theorem recon_inj {a b : String} (h : "recon:" ++ a = "recon:" ++ b) : a = b := by
  have hchars := congrArg String.toList h
  rw [String.toList_append, String.toList_append] at hchars
  exact String.toList_injective (List.append_cancel_left hchars)

theorem code_mem [Casing] :
    ∀ result ∈ RECON_ALERT_RESULTS, "recon." ++ Casing.lower result ∈ RECON_CODES := by
  intro result h
  simp only [RECON_ALERT_RESULTS, List.mem_cons, List.not_mem_nil, or_false] at h
  rcases h with rfl | rfl | rfl
  all_goals
    rw [Casing.lower_ascii _ (by decide)]
    decide +kernel

theorem Episodes.restated [Casing] (h : Episodes w seen) (hr : Restated codes w w')
    (hseen : ∀ result ∈ RECON_ALERT_RESULTS,
      result ∈ seen' ↔ result ∈ seen ∧ "recon." ++ Casing.lower result ∉ codes) : Episodes w' seen' := by
  obtain ⟨hsession, hnext, f, hrows, hf⟩ := hr
  have hid : ∀ r ∈ w.rows, (f r).id = r.id := fun r hr => by rw [(hf r hr).1]
  have hkey : ∀ r ∈ w.rows, (f r).effectiveDedupeKey = r.effectiveDedupeKey := fun r hr => by
    rw [(hf r hr).1]
    rfl
  have hcode : ∀ r ∈ w.rows, (f r).code = r.code := fun r hr => by rw [(hf r hr).1]
  constructor
  · exact hsession ▸ h.session
  · have hids : w.rows.map ((·.id) ∘ f) = w.rows.map (·.id) := List.map_congr_left hid
    rw [hrows, List.map_map, hids]
    exact h.ids
  · intro r hr
    obtain ⟨y, hy, rfl⟩ := List.mem_map.mp (hrows ▸ hr)
    rw [hid y hy, hnext]
    exact h.below y hy
  · intro r hr
    obtain ⟨y, hy, rfl⟩ := List.mem_map.mp (hrows ▸ hr)
    rw [hkey y hy, hcode y hy]
    exact h.raised y hy
  · intro result hresult
    rw [hseen result hresult, ← h.open_iff result hresult, hrows]
    constructor
    · rintro ⟨r, hr, hk, hopen⟩
      obtain ⟨y, hy, rfl⟩ := List.mem_map.mp hr
      rw [hkey y hy] at hk
      obtain ⟨hopen, hnot⟩ := (hf y hy).2.mp hopen
      obtain ⟨result', -, hk', hc⟩ := h.raised y hy
      obtain rfl := recon_inj (hk'.symm.trans hk)
      exact ⟨⟨y, hy, hk, hopen⟩, hc ▸ hnot⟩
    · rintro ⟨⟨y, hy, hk, hopen⟩, hnot⟩
      obtain ⟨result', -, hk', hc⟩ := h.raised y hy
      obtain rfl := recon_inj (hk'.symm.trans hk)
      exact ⟨f y, List.mem_map_of_mem hy, (hkey y hy).trans hk, (hf y hy).2.mpr ⟨hopen, hc ▸ hnot⟩⟩

theorem restated_resolve (hsession : w.session = true) (codes : List String) :
    Restated codes w (codes.foldl (fun w code => (resolveAlertsByCode code w).2) w) := by
  induction codes generalizing w with
  | nil => exact ⟨rfl, rfl, id, (List.map_id _).symm, fun r _ => ⟨rfl, by simp⟩⟩
  | cons code codes ih =>
    obtain ⟨hsame, hnext, f, hrows, hf⟩ := ih (w := (resolveAlertsByCode code w).2) hsession
    let meant (r : AlertRecord) : Bool := decide (r.code = code) && r.status.unresolved
    let g (r : AlertRecord) : AlertRecord := if meant r then { r with status := .resolved } else r
    have hfirst : (resolveAlertsByCode code w).2.rows = w.rows.map g := if_pos hsession
    have hg : ∀ r, g r = { r with status := (g r).status } ∧
        ((g r).status.unresolved ↔ r.status.unresolved ∧ r.code ≠ code) := by
      intro r
      by_cases hmeant : meant r
      · have hcode := (Bool.and_eq_true_iff.mp hmeant).1
        simp [g, hmeant, AlertStatus.unresolved, of_decide_eq_true hcode]
      · simp only [g, hmeant, Bool.false_eq_true, if_false, true_and]
        exact ⟨fun hopen => ⟨hopen, fun hcode => hmeant (by simp [meant, hcode, hopen])⟩, fun h => h.1⟩
    refine ⟨hsame, hnext, fun r => f (g r), ?_, fun r hr => ?_⟩
    · rw [List.foldl_cons, hrows, hfirst, List.map_map]
      rfl
    · obtain ⟨hrest, hopen⟩ := hf (g r) (hfirst ▸ List.mem_map_of_mem hr)
      dsimp only
      constructor
      · rw [hrest, (hg r).1]
      · have hcode : (g r).code = r.code := by rw [(hg r).1]
        rw [hopen, (hg r).2, hcode, List.mem_cons, not_or, and_assoc]

theorem restated_acknowledge [Casing] (h : Episodes w seen) (id : ℕ) :
    Restated [] w (Alerts.acknowledge id (newService w)).2 := by
  have hsame : Restated [] w (newService w) :=
    ⟨rfl, rfl, fun r => r, (List.map_id _).symm, fun r _ => ⟨rfl, by simp⟩⟩
  have hload : loadDbAlert id (newService w) = w.rows.find? fun r => r.id = id := if_pos h.session
  unfold Alerts.acknowledge
  have hmemory : ((newService w).alerts.find? fun a => a.id = id) = none := rfl
  rw [hmemory, Option.none_or, hload]
  cases hfind : w.rows.find? fun r => r.id = id with
  | none => exact hsame
  | some row =>
    dsimp only
    split
    · exact hsame
    · rename_i hopen
      refine ⟨rfl, rfl, fun r => if decide (r.id = id) then { r with status := .acknowledged } else r,
        if_pos h.session, fun r hr => ?_⟩
      by_cases hid : r.id = id
      · have hrow : r = row := List.inj_on_of_nodup_map h.ids hr (List.mem_of_find?_eq_some hfind)
          (hid.trans (Eq.symm (by simpa using List.find?_some hfind)))
        have hunresolved : r.status.unresolved := by
          rw [hrow]
          cases hstatus : row.status with
          | resolved => exact absurd hstatus hopen
          | _ => rfl
        dsimp only
        rw [if_pos (decide_eq_true hid)]
        exact ⟨rfl, iff_of_true rfl ⟨hunresolved, List.not_mem_nil⟩⟩
      · simp [hid]

/-- A new service emits exactly if no unresolved row has the key. -/
theorem emit_newService (enabled : cfg.enableAlerts = true) (hsession : w.session = true) (a : EmitArgs) :
    ((emit cfg a (newService w)).1.emitted = true ↔
      ¬∃ r ∈ w.rows, r.effectiveDedupeKey = a.key ∧ r.status.unresolved) ∧
    (emit cfg a (newService w)).2.session = true ∧ (emit cfg a (newService w)).2.nextId = w.nextId + 1 ∧
    (emit cfg a (newService w)).2.rows =
      if (emit cfg a (newService w)).1.emitted then w.rows ++ [a.alert w] else w.rows := by
  have hrow := findActiveByDedupe_isSome (w := newService w) a
  have hcool : withinCooldown cfg (newService w) (a.alert (newService w)).effectiveDedupeKey a.severity a.now = false :=
    rfl
  have hmemory : (newService w).alerts = [] := rfl
  unfold Alerts.emit
  simp only [enabled, hcool, hmemory, Bool.not_true, Bool.false_eq_true, if_false, List.find?_nil]
  rw [← effectiveDedupeKey_alert a (newService w)] at hrow ⊢
  cases hfind : findActiveByDedupe (newService w) (a.alert (newService w)).effectiveDedupeKey with
  | some row =>
    rw [hfind] at hrow
    exact ⟨iff_of_false (by simp) (not_not_intro (hrow.mp rfl).2), hsession, rfl, rfl⟩
  | none =>
    rw [hfind] at hrow
    refine ⟨iff_of_true rfl fun hexists => ?_, hsession, rfl, if_pos hsession⟩
    exact absurd (hrow.mpr ⟨hsession, hexists⟩) (by simp)

variable [Casing]

theorem key_args (c : Recon) : c.args.key = "recon:" ++ c.result := by
  have hne : "recon:" ++ c.result ≠ "" := by
    intro h
    have hlength := congrArg String.length h
    simp at hlength
  simp [Recon.args, EmitArgs.key, Option.filter_some, hne]

theorem Episodes.emit (h : Episodes w seen) (enabled : cfg.enableAlerts = true) {c : Recon}
    (hresult : c.result ∈ RECON_ALERT_RESULTS) :
    Episodes (Alerts.emit cfg c.args (newService w)).2 (c.result :: seen) := by
  obtain ⟨hsends, hsession, hnext, hrows⟩ := emit_newService enabled h.session c.args
  rw [key_args, h.open_iff c.result hresult] at hsends
  have hkey : (c.args.alert w).effectiveDedupeKey = "recon:" ++ c.result := key_args c
  by_cases hsent : (Alerts.emit cfg c.args (newService w)).1.emitted = true
  · rw [if_pos hsent] at hrows
    have hfresh : ∀ r ∈ w.rows, r.id ≠ w.nextId := fun r hr => (h.below r hr).ne
    refine ⟨hsession, ?_, ?_, ?_, fun result hin => ?_⟩
    · rw [hrows, List.map_append, List.nodup_append]
      refine ⟨h.ids, List.nodup_singleton _, fun a ha b hb hab => ?_⟩
      obtain ⟨r, hr, rfl⟩ := List.mem_map.mp ha
      exact hfresh r hr (hab.trans (List.mem_singleton.mp hb))
    · intro r hr
      rw [hnext]
      rcases List.mem_append.mp (hrows ▸ hr) with hr | hr
      · exact Nat.lt_succ_of_lt (h.below r hr)
      · rw [List.mem_singleton.mp hr]
        exact Nat.lt_succ_self _
    · intro r hr
      rcases List.mem_append.mp (hrows ▸ hr) with hr | hr
      · exact h.raised r hr
      · rw [List.mem_singleton.mp hr]
        exact ⟨c.result, hresult, hkey, rfl⟩
    · rw [hrows, List.mem_cons, ← h.open_iff result hin]
      constructor
      · rintro ⟨r, hr, hk, hopen⟩
        rcases List.mem_append.mp hr with hr | hr
        · exact Or.inr ⟨r, hr, hk, hopen⟩
        · rw [List.mem_singleton.mp hr, hkey] at hk
          exact Or.inl (recon_inj hk).symm
      · rintro (rfl | ⟨r, hr, hk, hopen⟩)
        · exact ⟨_, List.mem_append_right _ List.mem_cons_self, hkey, rfl⟩
        · exact ⟨r, List.mem_append_left _ hr, hk, hopen⟩
  · rw [if_neg hsent] at hrows
    have hseen : c.result ∈ seen := by
      by_contra hnot
      exact hsent (hsends.mpr hnot)
    refine ⟨hsession, hrows ▸ h.ids, ?_, hrows ▸ h.raised, fun result hin => ?_⟩
    · rw [hrows, hnext]
      exact fun r hr => Nat.lt_succ_of_lt (h.below r hr)
    · rw [hrows, h.open_iff result hin, List.mem_cons]
      exact ⟨Or.inr, fun hor => hor.elim (fun heq => heq ▸ hseen) fun hmem => hmem⟩

/-- Every result keeps the episodes. -/
theorem Episodes.step (h : Episodes w seen) (enabled : cfg.enableAlerts = true) (s : ReconStep) :
    Episodes (reconStep cfg w s) (sinceInSync seen s) := by
  cases s with
  | acknowledge id => exact h.restated (restated_acknowledge h id) fun result _ => by simp [sinceInSync]
  | reconciled c =>
    unfold reconStep emitReconciliationAlert sinceInSync
    dsimp only
    split
    · exact h.restated (restated_resolve h.session _) fun result hin =>
        iff_of_false List.not_mem_nil fun hkept => hkept.2 (code_mem result hin)
    · split
      · rename_i hother
        have hsame : Restated [] w w := ⟨rfl, rfl, id, (List.map_id _).symm, fun r _ => ⟨rfl, by simp⟩⟩
        refine h.restated hsame ?_
        intro result hin
        have hne : result ≠ c.result := fun heq => hother (heq ▸ hin)
        simp [hne]
      · rename_i hresult
        exact h.emit enabled (not_not.mp hresult)

theorem Episodes.run (h : Episodes w seen) (enabled : cfg.enableAlerts = true) (steps : List ReconStep) :
    Episodes (runFrom (reconStep cfg) w steps) (runFrom sinceInSync seen steps) := by
  induction steps generalizing w seen with
  | nil => exact h
  | cons s steps ih => exact ih (h.step enabled s)

/-- **In every run a result that is to be alerted is sent exactly if it was not found since the books were last in
    sync; and books in sync leave no alert unresolved.** -/
theorem recon_alert_once (cfg : AlertSettings) (enabled : cfg.enableAlerts = true) (steps : List ReconStep)
    (c : Recon) :
    let w := runFrom (reconStep cfg) { session := true } steps
    ((emitReconciliationAlert cfg c w).1.any (·.emitted) ↔
      c.result ∈ RECON_ALERT_RESULTS ∧ c.result ∉ runFrom sinceInSync [] steps) ∧
    (c.result = "IN_SYNC" → ∀ r ∈ (emitReconciliationAlert cfg c w).2.rows, r.status.unresolved = false) := by
  have hfirst : Episodes { session := true } [] :=
    ⟨rfl, List.nodup_nil, fun r hr => (by cases hr), fun r hr => (by cases hr), fun result _ => by simp⟩
  have h := hfirst.run enabled steps
  dsimp only
  constructor
  · unfold emitReconciliationAlert
    split
    · rename_i hsync
      rw [hsync]
      exact iff_of_false (by simp) fun hin => absurd hin.1 (by decide)
    · split
      · rename_i hother
        exact iff_of_false (by simp) fun hin => hother hin.1
      · rename_i hresult
        have hin := not_not.mp hresult
        have hsends := (emit_newService enabled h.session c.args).1
        rw [key_args, h.open_iff c.result hin] at hsends
        exact hsends.trans ⟨fun hnot => ⟨hin, hnot⟩, fun hboth => hboth.2⟩
  · intro hsync r hr
    have hafter := h.step enabled (.reconciled c)
    rw [sinceInSync, if_pos hsync] at hafter
    obtain ⟨result, hin, hkey, -⟩ := hafter.raised r hr
    by_contra hopen
    rw [Bool.not_eq_false] at hopen
    cases (hafter.open_iff result hin).mp ⟨r, hr, hkey, hopen⟩

end Recons

section Sample

attribute [local instance] asciiCasing

theorem drift_alert_again : ((emitReconciliationAlert defaultAlerts ⟨"MATERIAL_DRIFT", 2, 2⟩
    (runFrom (reconStep defaultAlerts) { session := true }
      [.reconciled ⟨"MATERIAL_DRIFT", 0, 0⟩, .reconciled ⟨"IN_SYNC", 1, 1⟩])).1.any (·.emitted)) = true :=
  (recon_alert_once defaultAlerts rfl _ _).1.mpr (by decide)

end Sample

end Investor.Alerts
