import Investor.Intraday.ProtectionCall

/-!
# When lifecycles stay guarded

A lifecycle is guarded if it is protected as long as it is open and noted to be (`Guarded`). The
trail clears the note with the stop it moves, and a lifecycle that is closed needs none; all the
other steps leave the note as it is, whatever becomes of the stop: a holding changes the quantity
under it, a proposal the price, and a cancelled or synced order is gone without a word to its
lifecycle.

For each step the condition under which it leaves the lifecycle guarded is exact
(`guarded_step_iff`), so that a run stays guarded exactly when all its steps meet theirs
(`guarded_iff`).
-/

namespace Investor.Intraday

open Lib Schema Market Risk Execution Universe OrderBook

section Runs

structure Noted (k : Keeping) (s : Positions) (r : Lifecycle) : Prop where
  found : s.lifecycles.find? k.followed = some r
  active : r.status.isActive
  noted : r.protectionSubmitted

def Guarded [Casing] (k : Keeping) (s : Positions) : Prop :=
  ∀ r, Noted k s r → Protected (k.uuid k.followed) r s.orders

theorem guarded_iff_found [Casing] {k : Keeping} {s : Positions} : Guarded k s ↔
    ∀ r ∈ s.lifecycles.find? k.followed, r.status.isActive → r.protectionSubmitted →
      Protected (k.uuid k.followed) r s.orders := by
  constructor
  · intro h r hr hactive hnoted
    exact h r ⟨hr, hactive, hnoted⟩
  · intro h r hr
    exact h r hr.found hr.active hr.noted

instance [Casing] (k : Keeping) (s : Positions) : Decidable (Guarded k s) :=
  decidable_of_iff _ guarded_iff_found.symm

def PositionFits [Casing] (k : Keeping) (s : Positions) : PositionOp → Prop
  | .protect id call => id = k.followed → ∀ r, s.lifecycles.find? k.followed = some r →
      r.status.isActive → ProtectFits k.settings.toSettings (k.uuid k.followed) call r s.orders
  -- the stop must be for the quantity the broker has
  | .holding p => ∀ r, Noted k s r → existing s.lifecycles.rows p = some r →
      Protected (k.uuid k.followed) { r with quantity := p.quantity } s.orders
  | .closeFlat _ => True
  | .evaluate _ _ _ => True
  -- the stop must be at the price that comes of the proposal
  | .updateExitPolicy id stop => id = k.followed → ∀ r, Noted k s r →
      Protected (k.uuid k.followed) (updateExitPolicy k.settings stop r) s.orders
  -- some stop must stay at work
  | .cancelOrder cancels key => ∀ r, Noted k s r →
      ∃ o ∈ s.orders.orders.rows, Rests (k.uuid k.followed) r o ∧
        (o.idempotencyKey = key → (cancelledRow cancels o).isWorking)
  | .syncStatuses orderOf _ => ∀ r, Noted k s r →
      ∃ o ∈ s.orders.orders.rows, Rests (k.uuid k.followed) r o ∧ (syncedRow orderOf o).isWorking

variable {k : Keeping} {s : Positions} {r : Lifecycle}

/-! ## The calls -/

theorem find_protect_other [Casing] {cfg : Settings} {u v : Ibkr.Uuid} {c : ProtectionCall} {b : OrderBook}
    {key : String} (hne : u.text ≠ v.text) (hkey : hasPrefix key (stopFront v)) :
    (submitProtectionStop cfg u c r b).orders.orders.find? key = b.orders.find? key := by
  have hnot : ¬ hasPrefix key (stopFront u) := fun hu => hne (text_eq_of_fronts hu hkey)
  have hstale : ∀ stop, ∀ o ∈ staleStops u r stop b, key ≠ o.idempotencyKey := by
    rintro stop o ho rfl
    have hown := (Bool.and_eq_true_iff.mp (List.mem_filter.mp ho).2).1
    exact hnot (isOwnStop_iff.mp hown).2.1
  have hsubmit : ∀ stop b', (submitStop cfg u c r stop b').orders.orders.find? key =
      b'.orders.find? key := by
    intro stop b'
    have hother : (b'.submitOne cfg c.answers (stopIntent cfg u c.decisionId r stop)
        none).orders.find? key = b'.orders.find? key :=
      find_submitOne_other (stopIntent_not_exit cfg u c.decisionId r stop)
        (by rintro rfl; exact hnot (front_of_stopKey u stop))
    unfold submitStop
    dsimp only
    split
    · rfl
    · split <;> exact hother
  unfold submitProtectionStop
  split
  · rfl
  · split
    · rfl
    · rename_i stop hstop
      split
      · rfl
      · unfold restStop
        simp only [filter_stale]
        split
        · rfl
        · split
          · rfl
          · split
            · exact find_cancelEach_other (hstale stop)
            · exact (hsubmit stop _).trans (find_cancelEach_other (hstale stop))

variable {id : ℕ} {call : ProtectionCall}

theorem noted_protect_iff [Casing] (hne : id ≠ k.followed) :
    Noted k (Positions.step k s (.protect id call)) r ↔ Noted k s r := by
  cases hfind : s.lifecycles.find? id with
  | none => simp only [Positions.step, hfind]
  | some other =>
    have hsame : (Positions.step k s (.protect id call)).lifecycles.find? k.followed =
        s.lifecycles.find? k.followed := by
      simp only [Positions.step, hfind, KeyedTable.find?_updateAt, if_neg hne.symm, Option.map_id']
    exact ⟨fun h => ⟨hsame ▸ h.found, h.active, h.noted⟩,
      fun h => ⟨hsame.trans h.found, h.active, h.noted⟩⟩

theorem guarded_protect_other_iff [Casing] (hne : id ≠ k.followed) :
    Guarded k (Positions.step k s (.protect id call)) ↔ Guarded k s := by
  refine forall_congr' fun r => ?_
  rw [noted_protect_iff hne]
  refine forall_congr' fun _ => protected_congr fun key hkey => ?_
  cases hfind : s.lifecycles.find? id with
  | none => simp only [Positions.step, hfind]
  | some other =>
    simp only [Positions.step, hfind]
    exact find_protect_other (fun htext => hne (k.unique id htext)) hkey

theorem guarded_protect_iff [Casing] :
    Guarded k (Positions.step k s (.protect k.followed call)) ↔
      PositionFits k s (.protect k.followed call) := by
  cases hfind : s.lifecycles.find? k.followed with
  | none =>
    refine iff_of_true (fun r h => ?_) fun _ r hr => ?_
    · have hnone : (Positions.step k s (.protect k.followed call)).lifecycles.find? k.followed =
          none := by
        simp only [Positions.step, hfind]
      have hfound := h.found
      rw [hnone] at hfound
      cases hfound
    · rw [hfind] at hr
      cases hr
  | some r =>
    have hafter : (Positions.step k s (.protect k.followed call)).lifecycles.find? k.followed =
        some { r with protectionSubmitted := (submitProtectionStop k.settings.toSettings
          (k.uuid k.followed) call r s.orders).protectionSubmitted } := by
      simp only [Positions.step, hfind, KeyedTable.find?_updateAt, Option.map_some, if_pos]
    have horders : (Positions.step k s (.protect k.followed call)).orders =
        (submitProtectionStop k.settings.toSettings (k.uuid k.followed) call r s.orders).orders := by
      simp only [Positions.step, hfind]
    have hfits := @protect_fits_iff k.settings.toSettings (k.uuid k.followed) call r s.orders _
    constructor
    · intro h _ r' hr' hactive
      rw [hfind] at hr'
      cases hr'
      refine hfits.mp fun hnoted => ?_
      have hprotected := h _ ⟨hafter, hactive, hnoted⟩
      rw [horders] at hprotected
      exact (protected_note _).mp hprotected
    · rintro h r' ⟨hfound, hactive, hnoted⟩
      rw [hafter] at hfound
      cases hfound
      rw [horders]
      exact (protected_note _).mpr (hfits.mpr (h rfl r hfind hactive) hnoted)

/-! ## The lifecycles -/

theorem find_iff : s.lifecycles.find? id = some r ↔ r ∈ s.lifecycles.rows ∧ r.id = id :=
  KeyedTable.find?_eq_some_iff

theorem guarded_updateAt_iff [Casing] {f : Lifecycle → Lifecycle} (hf : ∀ r, (f r).id = r.id)
    (hkeeps : ∀ r, (f r).status = r.status ∧ ((f r).protectionSubmitted → r.protectionSubmitted))
    (h : Guarded k s) :
    Guarded k { s with lifecycles := s.lifecycles.updateAt id f hf } ↔
      (id = k.followed → ∀ r, Noted k s r → (f r).protectionSubmitted →
        Protected (k.uuid k.followed) (f r) s.orders) := by
  have hfind := KeyedTable.find?_updateAt (t := s.lifecycles) (k := id) hf (j := k.followed)
  constructor
  · rintro hafter rfl r hr hflag
    refine hafter (f r) ⟨?_, (hkeeps r).1 ▸ hr.active, hflag⟩
    rw [hfind, hr.found, Option.map_some, if_pos rfl]
  · intro hfits r' hr'
    obtain ⟨r, hr, rfl⟩ := Option.map_eq_some_iff.mp (hfind.symm.trans hr'.found)
    have hactive := hr'.active
    have hnoted := hr'.noted
    split at hactive
    · rename_i hid
      rw [if_pos hid] at hnoted ⊢
      exact hfits hid.symm r ⟨hr, (hkeeps r).1 ▸ hactive, (hkeeps r).2 hnoted⟩ hnoted
    · rename_i hid
      rw [if_neg hid] at hnoted ⊢
      exact h r ⟨hr, hactive, hnoted⟩

theorem evaluated_spec [Casing] (columns : MonitorColumns) (o : Observation) (r : Lifecycle) :
    (r.evaluated columns o).status = r.status ∧
      ((r.evaluated columns o).protectionSubmitted → r.protectionSubmitted ∧
        (r.evaluated columns o).symbol = r.symbol ∧ (r.evaluated columns o).quantity = r.quantity ∧
          (r.evaluated columns o).stopPrice = r.stopPrice) := by
  unfold Lifecycle.evaluated observed Monitored.trailed
  split
  · exact ⟨rfl, nofun⟩
  · exact ⟨rfl, fun h => ⟨h, rfl, rfl, rfl⟩⟩

theorem guarded_evaluate [Casing] {columns : MonitorColumns} {o : Observation} (h : Guarded k s) :
    Guarded k (Positions.step k s (.evaluate id columns o)) := by
  refine (guarded_updateAt_iff (id_evaluated columns o) (fun r => ?_) h).mpr fun _ r hr hflag => ?_
  · exact ⟨(evaluated_spec columns o r).1, fun hflag => ((evaluated_spec columns o r).2 hflag).1⟩
  · obtain ⟨-, hsymbol, hquantity, hstop⟩ := (evaluated_spec columns o r).2 hflag
    exact (protected_of_same hsymbol hquantity hstop).mpr (h r hr)

theorem updateExitPolicy_spec (cfg : MonitorSettings) (stop : Option ℚ) (r : Lifecycle) :
    (updateExitPolicy cfg stop r).status = r.status ∧
      (updateExitPolicy cfg stop r).protectionSubmitted = r.protectionSubmitted := by
  unfold updateExitPolicy
  split
  · exact ⟨rfl, rfl⟩
  · split <;> exact ⟨rfl, rfl⟩

theorem guarded_updateExitPolicy_iff [Casing] {stop : Option ℚ} (h : Guarded k s) :
    Guarded k (Positions.step k s (.updateExitPolicy id stop)) ↔
      PositionFits k s (.updateExitPolicy id stop) := by
  refine (guarded_updateAt_iff (id_updateExitPolicy k.settings stop) (fun r => ?_) h).trans ?_
  · obtain ⟨hstatus, hflag⟩ := updateExitPolicy_spec k.settings stop r
    exact ⟨hstatus, fun hnoted => hflag ▸ hnoted⟩
  · refine forall_congr' fun _ => forall_congr' fun r => forall_congr' fun hr => ?_
    rw [(updateExitPolicy_spec k.settings stop r).2]
    exact forall_prop_of_true hr.noted

theorem guarded_closeFlat [Casing] {held : List (String × String)} (h : Guarded k s) :
    Guarded k (Positions.step k s (.closeFlat held)) := by
  intro r' hr'
  have hfind := KeyedTable.find?_update (t := s.lifecycles) (id_closeFlat held) (k := k.followed)
  obtain ⟨r, hr, rfl⟩ := Option.map_eq_some_iff.mp (hfind.symm.trans hr'.found)
  have hactive := hr'.active
  have hnoted := hr'.noted
  unfold closeFlat at hactive hnoted ⊢
  split at hactive
  · cases hactive
  · rename_i hheld
    rw [if_neg hheld] at hnoted ⊢
    exact h r ⟨hr, hactive, hnoted⟩

/-! ## A holding -/

variable {stop : Lifecycle → Option ℚ}

theorem protectionSubmitted_stamp :
    (stampHorizonStop stop r).protectionSubmitted = r.protectionSubmitted := by
  unfold stampHorizonStop
  split <;> rfl

variable {p : Holding}

theorem protectionSubmitted_update :
    (updateLifecycle stop r p).protectionSubmitted = r.protectionSubmitted :=
  protectionSubmitted_stamp

theorem protectionSubmitted_new [Casing] : (newLifecycle stop id p).protectionSubmitted = false :=
  protectionSubmitted_stamp

theorem existing_mem [Casing] {rows : List Lifecycle} (h : existing rows p = some r) :
    r ∈ rows := by
  unfold existing at h
  cases hcontract : p.conId.bind (byConId rows) with
  | some found =>
    rw [hcontract] at h
    cases h
    obtain ⟨c, -, hc⟩ := Option.bind_eq_some_iff.mp hcontract
    exact List.mem_of_find?_eq_some hc
  | none =>
    rw [hcontract] at h
    exact List.mem_of_find?_eq_some h

theorem stopPrice_holding {price : ℚ} (h : r.stopPrice = some price) :
    (updateLifecycle stop r p).stopPrice = r.stopPrice := by
  simp [updateLifecycle, stampHorizonStop, h]

theorem protected_update_iff [Casing] {u : Ibkr.Uuid} {b : OrderBook} (h : Protected u r b) :
    Protected u (updateLifecycle stop r p) b ↔
      Protected u { r with quantity := p.quantity } b := by
  obtain ⟨o, -, hrests⟩ := h
  obtain ⟨price, hprice, -⟩ := hrests.price
  exact protected_of_same (symbol_update ..) (quantity_update ..) (stopPrice_holding hprice)

theorem guarded_holding_iff [Casing] (h : Guarded k s) :
    Guarded k (Positions.step k s (.holding p)) ↔ PositionFits k s (.holding p) := by
  have hrows : ∀ r', (Positions.step k s (.holding p)).lifecycles.find? k.followed = some r' ↔
      r' ∈ ensureLifecycleFromBroker k.horizonStop s.lifecycles.rows p ∧ r'.id = k.followed :=
    fun r' => KeyedTable.find?_eq_some_iff
  constructor
  · intro hafter r hr hfound
    have hid := (find_iff.mp hr.found).2
    refine (protected_update_iff (h r hr)).mp (hafter (updateLifecycle k.horizonStop r p) ⟨?_, ?_, ?_⟩)
    · rw [hrows]
      refine ⟨?_, (id_update ..).trans hid⟩
      simp only [ensureLifecycleFromBroker, hfound, List.mem_map]
      exact ⟨r, (find_iff.mp hr.found).1, if_pos rfl⟩
    · rw [isActive_update]
      exact hr.active
    · rw [protectionSubmitted_update]
      exact hr.noted
  · intro hfits r' hr'
    obtain ⟨hmem, hid⟩ := (hrows r').mp hr'.found
    cases hfound : existing s.lifecycles.rows p with
    | none =>
      simp only [ensureLifecycleFromBroker, hfound, List.mem_append, List.mem_singleton] at hmem
      rcases hmem with hmem | rfl
      · exact h r' ⟨find_iff.mpr ⟨hmem, hid⟩, hr'.active, hr'.noted⟩
      · have hnoted := hr'.noted
        rw [protectionSubmitted_new] at hnoted
        cases hnoted
    | some found =>
      simp only [ensureLifecycleFromBroker, hfound, List.mem_map] at hmem
      obtain ⟨r, hr, rfl⟩ := hmem
      have hactive := hr'.active
      have hnoted := hr'.noted
      split at hid
      · rename_i hsame
        rw [if_pos hsame] at hactive hnoted ⊢
        rw [id_update] at hid
        rw [isActive_update] at hactive
        rw [protectionSubmitted_update] at hnoted
        have hnow : Noted k s r := ⟨find_iff.mpr ⟨hr, hid⟩, hactive, hnoted⟩
        have hmemfound := existing_mem hfound
        have heq : r = found := KeyedTable.eq_of_key_eq hr hmemfound hsame
        exact (protected_update_iff (h r hnow)).mpr (hfits r hnow (heq ▸ hfound))
      · rename_i hother
        rw [if_neg hother] at hactive hnoted ⊢
        exact h r ⟨find_iff.mpr ⟨hr, hid⟩, hactive, hnoted⟩

/-! ## Runs -/

/-- A step leaves the position guarded exactly if it fits the stop. -/
theorem guarded_step_iff [Casing] {op : PositionOp} (h : Guarded k s) :
    Guarded k (Positions.step k s op) ↔ PositionFits k s op := by
  cases op with
  | protect id call =>
    by_cases hid : id = k.followed
    · subst hid
      exact guarded_protect_iff
    · rw [guarded_protect_other_iff hid]
      exact iff_of_true h fun hsame => absurd hsame hid
  | holding p => exact guarded_holding_iff h
  | closeFlat held => exact iff_of_true (guarded_closeFlat h) trivial
  | evaluate id columns o => exact iff_of_true (guarded_evaluate h) trivial
  | updateExitPolicy id stop => exact guarded_updateExitPolicy_iff h
  | cancelOrder cancels key =>
    refine forall_congr' fun r => ⟨fun hafter hr => ?_, fun hfits hr => ?_⟩
    · exact (protected_cancelOrder_iff (h r hr)).mp (hafter ⟨hr.found, hr.active, hr.noted⟩)
    · have hbefore : Noted k s r := ⟨hr.found, hr.active, hr.noted⟩
      exact (protected_cancelOrder_iff (h r hbefore)).mpr (hfits hbefore)
  | syncStatuses orderOf now =>
    refine forall_congr' fun r => ⟨fun hafter hr => ?_, fun hfits hr => ?_⟩
    · exact protected_sync_iff.mp (hafter ⟨hr.found, hr.active, hr.noted⟩)
    · exact protected_sync_iff.mpr (hfits ⟨hr.found, hr.active, hr.noted⟩)

end Runs

/-- **When a lifecycle stays guarded from a call on**: exactly when the call and each step after it
    meet their conditions, whatever was noted before the call. -/
theorem guarded_iff [Casing] (k : Keeping) (s : Positions) (call : ProtectionCall)
    (ops : List PositionOp) :
    (∀ done, done <+: ops →
        Guarded k (runFrom (Positions.step k) s (.protect k.followed call :: done))) ↔
      StepsMeet (Positions.step k) (PositionFits k) s (.protect k.followed call :: ops) := by
  rw [StepsMeet.cons_iff, ← guarded_protect_iff]
  constructor
  · intro h
    have hcall : Guarded k (Positions.step k s (.protect k.followed call)) := h [] List.nil_prefix
    exact ⟨hcall, (all_reached_iff (fun _ _ hinv => guarded_step_iff hinv) hcall).mp h⟩
  · rintro ⟨hcall, hmeet⟩
    exact (all_reached_iff (fun _ _ hinv => guarded_step_iff hinv) hcall).mpr hmeet

/-! ## A stop that is not there, and one that is too small -/

section Sample

attribute [local instance] asciiCasing

def uuidOf (digit : Char) (h : digit ∈ "0123456789abcdef".toList) : Ibkr.Uuid where
  hex := List.replicate 32 digit
  length_eq := List.length_replicate
  isHex := fun _ hc => List.eq_of_mem_replicate hc ▸ h

def uuidOne : Ibkr.Uuid := uuidOf '1' (by decide)

def firstFollowed : Keeping where
  settings := mockMonitorSettings
  horizonStop := fun _ => none
  uuid := fun i => if i = 1 then uuidOne else uuidOf '0' (by decide)
  followed := 1
  unique := by
    intro i h
    by_contra hi
    rw [if_neg hi, if_pos rfl] at h
    revert h
    decide +kernel

def longBhp : Positions where
  lifecycles := ⟨[{ shortBhp with quantity := 100, stopPrice := some 58 }], List.nodup_singleton _⟩
  orders := ⟨⟨[], List.nodup_nil⟩, [], [], [], []⟩

def callWith (reply : Except BrokerFault OrderResult) : ProtectionCall where
  controls := ⟨.active, none, 0, false⟩
  answers := ⟨0, fun _ => .error .timeout, none, fun _ => reply, none⟩
  decisionId := "d1"

def restedStop : OrderResult :=
  { brokerOrderId := "b1", status := .accepted, submittedAt := 0, filledQty := 0
    avgFillPrice := none, raw := [] }

def holdsMore : Holding :=
  { symbol := "BHP", quantity := 150, avgEntry := 60, currentPrice := none, stopPrice := none
    venue := .au, currency := none, conId := none }

/-- The broker does not answer, and a stop is noted that is not there; or it rests a stop of 100
    shares, the position grows to 150, and the stop stays noted. -/
theorem unguarded_note :
    ¬ (∀ (k : Keeping) (s : Positions) (call : ProtectionCall), call.controls.isNewOrderAllowed →
        Guarded k (Positions.step k s (.protect k.followed call))) ∧
      ¬ (∀ (k : Keeping) (s : Positions) (p : Holding), Guarded k s →
        Guarded k (Positions.step k s (.holding p))) := by
  constructor
  · intro h
    have hnoted := h firstFollowed longBhp (callWith (.error .timeout)) rfl
    revert hnoted
    decide +kernel
  · intro h
    have hnoted := h firstFollowed
      (Positions.step firstFollowed longBhp (.protect 1 (callWith (.ok restedStop)))) holdsMore
      (by decide +kernel)
    revert hnoted
    decide +kernel

end Sample

end Investor.Intraday
