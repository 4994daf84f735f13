import Investor.Intraday.Protection

/-!
# What the note of a protection stop is worth

An order rests for a lifecycle if it is a working stop of it on the exit side, at its stop price and
for its whole quantity (`Rests`). The call that notes such a stop does not see to it that there is
one: it leaves a note that is set already as it is, counts a working stop whatever its quantity, and
takes any answer of the broker but a refusal for a resting order, a fill and an unanswered timeout
included (`live_iff`). `protect_fits_iff` is the exact condition under which what it notes is true.
-/

namespace Investor.Intraday

open Lib Schema Market Risk Execution Universe OrderBook

section Call

/-! ## Guarded lifecycles -/

/-- An order is a working stop of the lifecycle, on the exit side, at its price and for its whole
    quantity. -/
structure Rests [Casing] (u : Ibkr.Uuid) (r : Lifecycle) (o : Order) : Prop where
  own : isOwnStop u r o
  price : ∃ stop, r.stopPrice = some stop ∧ o.stopPrice = some stop
  full : o.qty = |r.quantity|

theorem rests_iff [Casing] {u : Ibkr.Uuid} {r : Lifecycle} {o : Order} : Rests u r o ↔
    isOwnStop u r o ∧ (r.stopPrice.isSome ∧ o.stopPrice = r.stopPrice) ∧ o.qty = |r.quantity| := by
  constructor
  · rintro ⟨hown, ⟨stop, hstop, ho⟩, hfull⟩
    exact ⟨hown, ⟨by rw [hstop]; rfl, ho.trans hstop.symm⟩, hfull⟩
  · rintro ⟨hown, ⟨hsome, ho⟩, hfull⟩
    obtain ⟨stop, hstop⟩ := Option.isSome_iff_exists.mp hsome
    exact ⟨hown, ⟨stop, hstop, ho.trans hstop⟩, hfull⟩

instance [Casing] (u : Ibkr.Uuid) (r : Lifecycle) (o : Order) : Decidable (Rests u r o) :=
  decidable_of_iff _ rests_iff.symm

def Protected [Casing] (u : Ibkr.Uuid) (r : Lifecycle) (b : OrderBook) : Prop :=
  ∃ o ∈ b.orders.rows, Rests u r o

instance [Casing] (u : Ibkr.Uuid) (r : Lifecycle) (b : OrderBook) : Decidable (Protected u r b) :=
  inferInstanceAs (Decidable (∃ o ∈ b.orders.rows, Rests u r o))

variable {cfg : Settings} {u v : Ibkr.Uuid} {c : ProtectionCall} {r : Lifecycle} {stop : ℚ}
  {b : OrderBook} {o : Order} {decisionId : String}

/-! ## Clearing the stale stops -/

variable {cancels : String → Except BrokerFault OrderResult}

theorem find_cancelEach_other {os : List Order} {key : String}
    (h : ∀ o ∈ os, key ≠ o.idempotencyKey) :
    (cancelEach cancels os b).1.orders.find? key = b.orders.find? key := by
  induction os generalizing b with
  | nil => rfl
  | cons o os ih =>
    unfold cancelEach
    split
    · rfl
    · rw [ih fun o' ho' => h o' (List.mem_cons_of_mem _ ho'), find_cancelOrder]
      simp [h o List.mem_cons_self]

theorem cancelEach_eq {os : List Order} (hunique : (os.map (·.idempotencyKey)).Nodup)
    (hrows : ∀ o ∈ os, b.orders.find? o.idempotencyKey = some o) :
    (cancelEach cancels os b).2 = os.all (fun o => !cancelFails cancels o) ∧
      ((cancelEach cancels os b).2 = true → (cancelEach cancels os b).1 =
        os.foldl (fun b o => b.cancelOrder cancels o.idempotencyKey) b) := by
  induction os generalizing b with
  | nil => exact ⟨rfl, fun _ => rfl⟩
  | cons o os ih =>
    rw [List.map_cons, List.nodup_cons] at hunique
    have hrest : ∀ o' ∈ os,
        (b.cancelOrder cancels o.idempotencyKey).orders.find? o'.idempotencyKey = some o' := by
      intro o' ho'
      have hne : o'.idempotencyKey ≠ o.idempotencyKey := fun heq =>
        hunique.1 (List.mem_map.mpr ⟨o', ho', heq⟩)
      rw [find_cancelOrder, hrows o' (List.mem_cons_of_mem _ ho')]
      simp [hne]
    obtain ⟨hall, hfold⟩ := ih hunique.2 hrest
    unfold cancelEach
    rw [hrows o List.mem_cons_self, Option.all_some, List.all_cons]
    cases cancelFails cancels o with
    | true => simp
    | false =>
      simp only [Bool.false_eq_true, if_false, Bool.not_false, Bool.true_and, List.foldl_cons]
      exact ⟨hall, hfold⟩

section

variable [Casing]

def staleStops (u : Ibkr.Uuid) (r : Lifecycle) (stop : ℚ) (b : OrderBook) : List Order :=
  b.orders.rows.filter fun o => isOwnStop u r o && isStale stop o

def clearedRow (u : Ibkr.Uuid) (c : ProtectionCall) (r : Lifecycle) (stop : ℚ) (o : Order) : Order :=
  if isOwnStop u r o && isStale stop o then cancelledRow c.answers.cancels o else o

def Clears (u : Ibkr.Uuid) (c : ProtectionCall) (r : Lifecycle) (stop : ℚ) (b : OrderBook) : Prop :=
  ∀ o ∈ staleStops u r stop b, cancelFails c.answers.cancels o = false

theorem find_of_mem_stale (ho : o ∈ staleStops u r stop b) :
    b.orders.find? o.idempotencyKey = some o :=
  find_of_mem (List.mem_of_mem_filter ho)

theorem cancelEach_stale :
    (cancelEach c.answers.cancels (staleStops u r stop b) b).2 =
        (staleStops u r stop b).all (fun o => !cancelFails c.answers.cancels o) ∧
      ((cancelEach c.answers.cancels (staleStops u r stop b) b).2 = true →
        (cancelEach c.answers.cancels (staleStops u r stop b) b).1 =
          (staleStops u r stop b).foldl (fun b o => b.cancelOrder c.answers.cancels o.idempotencyKey)
            b) :=
  cancelEach_eq (nodup_keys_filter b _) fun _ ho => find_of_mem_stale ho

theorem cleared_iff : (cancelEach c.answers.cancels (staleStops u r stop b) b).2 = true ↔
    Clears u c r stop b := by
  rw [cancelEach_stale.1, List.all_eq_true]
  simp only [Bool.not_eq_true', Clears]

theorem find_cleared (h : Clears u c r stop b) (key : String) :
    (cancelEach c.answers.cancels (staleStops u r stop b) b).1.orders.find? key =
      (b.orders.find? key).map (clearedRow u c r stop) := by
  rw [cancelEach_stale.2 (cleared_iff.mpr h)]
  exact @KeyedTable.find?_foldl_filter _ _ _ _ _ OrderBook.orders
    (fun b o => b.cancelOrder c.answers.cancels o.idempotencyKey)
    (fun _ => cancelledRow c.answers.cancels) (fun b o k => find_cancelOrder b _ k) _ b key

/-! ## The answer to the submission -/

inductive StopOutcome
  /-- Nothing, and the submission says so: it was refused, or it raised. -/
  | refused
  /-- A working stop. -/
  | rests
  /-- Nothing that rests, or nothing that is known of: it is filled, an order of another type, or
      the broker did not answer. -/
  | gone
  deriving DecidableEq

def StopOutcome.ofStatus : OrderStatus → StopOutcome
  | .canceled | .rejected => .refused
  | .filled => .gone
  | .new | .accepted | .partiallyFilled => .rests

def placedType (result : OrderResult) : String :=
  match Dict.get? result.raw "order_type" with
  | some (.str s) => if s = "" then "stop" else s
  | _ => "stop"

def stopOutcome (a : SubmitAnswers) : Except BrokerFault OrderResult → StopOutcome
  | .ok result =>
    if StopOutcome.ofStatus result.status = .rests ∧
        ¬ STOP_ORDER_TYPES.contains (Casing.lower (placedType result)) then .gone
    else StopOutcome.ofStatus result.status
  | .error .timeout =>
    match a.clientOrder with
    | some (.ok (some remote)) => StopOutcome.ofStatus remote.status
    | some (.error _) => .refused
    | _ => .gone
  | .error _ => .refused

def stopRequest (cfg : Settings) (u : Ibkr.Uuid) (c : ProtectionCall) (r : Lifecycle) (stop : ℚ) :
    OrderRequest :=
  orderRequest cfg (stopIntent cfg u c.decisionId r stop) "stop" none

theorem replyOf_stop : replyOf cfg c.answers (stopIntent cfg u c.decisionId r stop) =
    c.answers.submit (stopRequest cfg u c r stop) := by
  have hlower : Casing.lower "stop" = "stop" := Casing.lower_ascii _ (by decide)
  have hstrip : strip "stop" = "stop" := by decide
  have hresting : isRestingStop "stop" = true := by
    unfold isRestingStop canonicalOrderType
    simp [hstrip, hlower]
  unfold replyOf requestOf
  simp [stopIntent, hresting, shapedTerms, stopRequest]

theorem lower_internal (s : OrderStatus) :
    Casing.lower (internalStatus s).value = asciiLower (internalStatus s).value :=
  lower_written (value_written _)

theorem working_internal_iff (s : OrderStatus) :
    WORKING_ORDER_STATUSES.contains (Casing.lower (internalStatus s).value) ↔
      StopOutcome.ofStatus s = .rests := by
  rw [lower_internal]
  cases s <;> decide

theorem live_internal_iff (s : OrderStatus) :
    (!(["rejected", "cancelled", "canceled"].contains (Casing.lower (internalStatus s).value))) ↔
      StopOutcome.ofStatus s ≠ .refused := by
  rw [lower_internal]
  cases s <;> decide

theorem lower_unknown : Casing.lower "UNKNOWN" = "unknown" :=
  (lower_written (by decide)).trans (by decide +kernel)

theorem lower_rejected : Casing.lower InternalOrderState.rejected.value = "rejected" :=
  (lower_written (value_written _)).trans (by decide +kernel)

variable {a : SubmitAnswers} {reply : Except BrokerFault OrderResult}

theorem outcome_of_raises (h : replyRaises a reply) : stopOutcome a reply = .refused := by
  cases reply with
  | ok result => cases h
  | error e =>
    cases e with
    | timeout =>
      rcases hclient : a.clientOrder with _ | (e | (_ | remote))
      · simp [replyRaises, hclient] at h
      · simp only [stopOutcome, hclient]
      · simp [replyRaises, hclient] at h
      · simp [replyRaises, hclient] at h
    | broker message => cases h
    | other message => rfl

theorem live_iff (h : replyRaises a reply = false) (row : Order) :
    isLive (repliedRow a reply row) ↔ stopOutcome a reply ≠ .refused := by
  cases reply with
  | ok result =>
    refine (live_internal_iff result.status).trans (not_congr ?_)
    simp only [stopOutcome]
    split_ifs with hplaced
    · simp [hplaced.1]
    · rfl
  | error e =>
    cases e with
    | timeout =>
      have hunknown : isLive (timedOut row) := by
        show (!(["rejected", "cancelled", "canceled"].contains (Casing.lower "UNKNOWN"))) = true
        rw [lower_unknown]
        decide
      show isLive (repliedTimeout a row) = true ↔ _
      rcases hclient : a.clientOrder with _ | (e | (_ | remote))
      · simp only [repliedTimeout, stopOutcome, hclient]
        exact iff_of_true hunknown nofun
      · simp [replyRaises, hclient] at h
      · simp only [repliedTimeout, stopOutcome, hclient]
        exact iff_of_true hunknown nofun
      · simp only [repliedTimeout, stopOutcome, hclient]
        exact live_internal_iff remote.status
    | broker message =>
      refine iff_of_false (fun hlive => ?_) (by simp [stopOutcome])
      have hdead : (!(["rejected", "cancelled", "canceled"].contains
          (Casing.lower InternalOrderState.rejected.value))) = true := hlive
      rw [lower_rejected] at hdead
      revert hdead
      decide
    | other message => cases h

structure IsStopRow (u : Ibkr.Uuid) (r : Lifecycle) (stop : ℚ) (row : Order) : Prop where
  key : row.idempotencyKey = stopKey u stop
  type : row.orderType = "stop"
  price : row.stopPrice = some stop
  full : row.qty = |r.quantity|

def Suited (r : Lifecycle) (row : Order) : Prop :=
  row.symbol = Casing.upper r.symbol ∧ row.side = r.exitSide.value

theorem isOwnStop_iff : isOwnStop u r o ↔ Suited r o ∧ hasPrefix o.idempotencyKey (stopFront u) ∧
    STOP_ORDER_TYPES.contains (Casing.lower o.orderType) ∧ o.isWorking := by
  simp only [isOwnStop, Suited, Bool.and_eq_true, decide_eq_true_eq, and_assoc]

theorem rests_stopRow_iff {row row' : Order} (h : IsStopRow u r stop row)
    (hstop : r.stopPrice = some stop) (hkey : row'.idempotencyKey = row.idempotencyKey)
    (hsymbol : row'.symbol = row.symbol) (hside : row'.side = row.side)
    (hprice : row'.stopPrice = row.stopPrice) (hqty : row'.qty = row.qty) :
    Rests u r row' ↔ Suited r row ∧ STOP_ORDER_TYPES.contains (Casing.lower row'.orderType) ∧
      row'.isWorking := by
  have hfront : hasPrefix row'.idempotencyKey (stopFront u) := by
    rw [hkey, h.key]
    exact front_of_stopKey u stop
  have hsuited : Suited r row' ↔ Suited r row := by
    unfold Suited
    rw [hsymbol, hside]
  constructor
  · intro hrests
    obtain ⟨hown, -, htype, hworking⟩ := isOwnStop_iff.mp hrests.own
    exact ⟨hsuited.mp hown, htype, hworking⟩
  · rintro ⟨hown, htype, hworking⟩
    refine ⟨isOwnStop_iff.mpr ⟨hsuited.mpr hown, hfront, htype, hworking⟩, ?_, ?_⟩
    · exact ⟨stop, hstop, by rw [hprice, h.price]⟩
    · rw [hqty, h.full]

theorem lower_stop : STOP_ORDER_TYPES.contains (Casing.lower "stop") := by
  rw [Casing.lower_ascii "stop" (by decide)]
  decide

theorem rests_replied_iff {row : Order} (h : IsStopRow u r stop row)
    (hstop : r.stopPrice = some stop) (hlive : stopOutcome a reply ≠ .refused) :
    Rests u r (repliedRow a reply row) ↔ stopOutcome a reply = .rests ∧ Suited r row := by
  cases reply with
  | ok result =>
    have htype : (answered result row).orderType = placedType result := by
      unfold placedType
      rw [← h.type]
      rfl
    refine (@rests_stopRow_iff u r stop _ row (answered result row) h hstop rfl rfl rfl rfl rfl).trans ?_
    rw [htype]
    show Suited r row ∧ _ ∧ WORKING_ORDER_STATUSES.contains
      (Casing.lower (internalStatus result.status).value) = true ↔ _
    rw [working_internal_iff]
    unfold stopOutcome
    by_cases hrest : StopOutcome.ofStatus result.status = .rests
    · simp [hrest, and_comm]
    · simp [hrest]
  | error e =>
    cases e with
    | timeout =>
      have hunknown : ¬ Rests u r (timedOut row) := by
        rw [@rests_stopRow_iff u r stop _ row (timedOut row) h hstop rfl rfl rfl rfl rfl]
        rintro ⟨-, -, hworking⟩
        have hcontains : WORKING_ORDER_STATUSES.contains (Casing.lower "UNKNOWN") = true := hworking
        rw [lower_unknown] at hcontains
        revert hcontains
        decide
      show Rests u r (repliedTimeout a row) ↔ _
      rcases hclient : a.clientOrder with _ | (e | (_ | remote))
      · simp only [repliedTimeout, stopOutcome, hclient]
        exact iff_of_false hunknown (by simp)
      · simp [stopOutcome, hclient] at hlive
      · simp only [repliedTimeout, stopOutcome, hclient]
        exact iff_of_false hunknown (by simp)
      · simp only [repliedTimeout, stopOutcome, hclient]
        refine (@rests_stopRow_iff u r stop _ row (recovered remote (timedOut row)) h hstop rfl rfl rfl
          rfl rfl).trans ?_
        show Suited r row ∧ STOP_ORDER_TYPES.contains (Casing.lower row.orderType) = true ∧
          WORKING_ORDER_STATUSES.contains (Casing.lower (internalStatus remote.status).value) = true ↔ _
        rw [h.type, working_internal_iff]
        simp only [lower_stop, true_and]
        exact and_comm
    | broker message => exact absurd rfl hlive
    | other message => exact absurd rfl hlive

theorem isStopRow_claimed {a : SubmitAnswers} {found : Option Order}
    (hfound : ∀ row, found = some row → row.idempotencyKey = stopKey u stop) :
    IsStopRow u r stop (claimedRow cfg a (stopIntent cfg u decisionId r stop) none found) := by
  cases found with
  | none => exact ⟨rfl, rfl, rfl, rfl⟩
  | some row => exact ⟨hfound row rfl, rfl, rfl, rfl⟩

theorem suited_claimed_iff {found : Option Order} :
    Suited r (claimedRow cfg a (stopIntent cfg u decisionId r stop) none found) ↔
      ∀ row, found = some row → Suited r row := by
  cases found with
  | none => exact iff_of_true ⟨rfl, rfl⟩ nofun
  | some row =>
    refine ⟨fun h row' hrow' => ?_, fun h => h row rfl⟩
    cases hrow'
    exact h

/-! ## Protection, by the rows -/

theorem protected_iff_find : Protected u r b ↔
    ∃ k o, b.orders.find? k = some o ∧ Rests u r o := by
  constructor
  · rintro ⟨o, ho, hrests⟩
    exact ⟨o.idempotencyKey, o, find_of_mem ho, hrests⟩
  · rintro ⟨k, o, hfind, hrests⟩
    exact ⟨o, (KeyedTable.find?_eq_some_iff.mp hfind).1, hrests⟩

theorem front_of_rests (h : Rests u r o) : hasPrefix o.idempotencyKey (stopFront u) :=
  (isOwnStop_iff.mp h.own).2.1

end

theorem key_of_find {k : String} (h : b.orders.find? k = some o) : o.idempotencyKey = k :=
  (KeyedTable.find?_eq_some_iff.mp h).2

variable [Casing]

theorem protected_congr {b' : OrderBook}
    (h : ∀ k, hasPrefix k (stopFront u) → b'.orders.find? k = b.orders.find? k) :
    Protected u r b' ↔ Protected u r b := by
  have hrow : ∀ {k o}, Rests u r o → o.idempotencyKey = k →
      (b'.orders.find? k = some o ↔ b.orders.find? k = some o) := by
    rintro k o hrests rfl
    rw [h _ (front_of_rests hrests)]
  rw [protected_iff_find, protected_iff_find]
  constructor
  · rintro ⟨k, o, hfind, hrests⟩
    exact ⟨k, o, (hrow hrests (key_of_find hfind)).mp hfind, hrests⟩
  · rintro ⟨k, o, hfind, hrests⟩
    exact ⟨k, o, (hrow hrests (key_of_find hfind)).mpr hfind, hrests⟩

theorem rests_congr {r' : Lifecycle} (hsymbol : r'.symbol = r.symbol)
    (hquantity : r'.quantity = r.quantity) (hstop : r'.stopPrice = r.stopPrice) :
    Rests u r' o ↔ Rests u r o := by
  have hside : r'.exitSide = r.exitSide := by
    unfold Lifecycle.exitSide
    rw [hquantity]
  have hown : isOwnStop u r' o = isOwnStop u r o := by
    unfold isOwnStop
    rw [hside, hsymbol]
  constructor
  · rintro ⟨h1, h2, h3⟩
    exact ⟨hown ▸ h1, hstop ▸ h2, hquantity ▸ h3⟩
  · rintro ⟨h1, h2, h3⟩
    exact ⟨hown ▸ h1, hstop ▸ h2, hquantity ▸ h3⟩

theorem protected_of_same {r' : Lifecycle} (hsymbol : r'.symbol = r.symbol)
    (hquantity : r'.quantity = r.quantity) (hstop : r'.stopPrice = r.stopPrice) :
    Protected u r' b ↔ Protected u r b :=
  exists_congr fun _ => and_congr_right fun _ => rests_congr hsymbol hquantity hstop

theorem protected_note (flag : Bool) :
    Protected u { r with protectionSubmitted := flag } b ↔ Protected u r b :=
  @protected_of_same u r b _ { r with protectionSubmitted := flag } rfl rfl rfl

theorem Rests.written_iff (h : Rests u r o) (status : String) (payload : List (String × Json)) :
    Rests u r { o with status := status, rawPayload := payload } ↔
      ({ o with status := status, rawPayload := payload } : Order).isWorking := by
  obtain ⟨hsuited, hfront, htype, -⟩ := isOwnStop_iff.mp h.own
  constructor
  · intro hrests
    exact (isOwnStop_iff.mp hrests.own).2.2.2
  · intro hworking
    exact ⟨isOwnStop_iff.mpr ⟨hsuited, hfront, htype, hworking⟩, h.price, h.full⟩

theorem protected_cancelOrder_iff {key : String} (h : Protected u r b) :
    Protected u r (b.cancelOrder cancels key) ↔
      ∃ o ∈ b.orders.rows, Rests u r o ∧
        (o.idempotencyKey = key → (cancelledRow cancels o).isWorking) := by
  have hwritten : ∀ o, Rests u r o →
      (Rests u r (cancelledRow cancels o) ↔ (cancelledRow cancels o).isWorking) := by
    intro o hrests
    obtain ⟨status, hrow⟩ := cancelledRow_eq cancels o
    rw [hrow]
    exact hrests.written_iff status o.rawPayload
  rw [protected_iff_find]
  constructor
  · rintro ⟨k, o', hfind, hrests⟩
    rw [find_cancelOrder] at hfind
    obtain ⟨o, ho, rfl⟩ := Option.map_eq_some_iff.mp hfind
    have hmem := (KeyedTable.find?_eq_some_iff.mp ho).1
    have hko := key_of_find ho
    by_cases hk : k = key
    · rw [if_pos hk] at hrests
      -- the order that rested before is the one that is cancelled, or stays
      obtain ⟨kept, hkept, hbefore⟩ := h
      by_cases hkey : kept.idempotencyKey = key
      · have hsame : kept = o := by
          refine Option.some.inj ((find_of_mem hkept).symm.trans ?_)
          rw [hkey, ← hk, ho]
        exact ⟨kept, hkept, hbefore, fun _ => hsame ▸ (isOwnStop_iff.mp hrests.own).2.2.2⟩
      · exact ⟨kept, hkept, hbefore, fun heq => absurd heq hkey⟩
    · rw [if_neg hk] at hrests
      exact ⟨o, hmem, hrests, fun heq => absurd (hko.symm.trans heq) hk⟩
  · rintro ⟨o, ho, hrests, hworking⟩
    refine ⟨o.idempotencyKey, if o.idempotencyKey = key then cancelledRow cancels o else o, ?_, ?_⟩
    · rw [find_cancelOrder, find_of_mem ho]
      rfl
    · split
      · rename_i hk
        exact (hwritten o hrests).mpr (hworking hk)
      · exact hrests

theorem rests_syncedRow_iff {orderOf : String → Except BrokerFault OrderResult} :
    Rests u r (syncedRow orderOf o) ↔ Rests u r o ∧ (syncedRow orderOf o).isWorking := by
  obtain ⟨status, payload, hrow⟩ := syncWrite_eq orderOf o.brokerId? o
  have hwritten : o.isWorking → syncedRow orderOf o =
      { o with status := status, rawPayload := payload } := by
    intro hworking
    rw [syncedRow, if_pos hworking, hrow]
  constructor
  · intro hrests
    obtain ⟨hsuited, hfront, htype, hworking⟩ := isOwnStop_iff.mp hrests.own
    refine ⟨?_, hworking⟩
    by_cases hbefore : o.isWorking = true
    · rw [hwritten hbefore] at hrests hsuited hfront htype
      exact ⟨isOwnStop_iff.mpr ⟨hsuited, hfront, htype, hbefore⟩, hrests.price, hrests.full⟩
    · rw [syncedRow, if_neg hbefore] at hworking
      exact absurd hworking hbefore
  · rintro ⟨hrests, hworking⟩
    rw [hwritten (isOwnStop_iff.mp hrests.own).2.2.2] at hworking ⊢
    exact (hrests.written_iff status payload).mpr hworking

theorem protected_sync_iff {orderOf : String → Except BrokerFault OrderResult} {now : Int} :
    Protected u r (b.syncStatusesFromBroker orderOf now) ↔
      ∃ o ∈ b.orders.rows, Rests u r o ∧ (syncedRow orderOf o).isWorking := by
  rw [protected_iff_find]
  constructor
  · rintro ⟨k, o', hfind, hrests⟩
    rw [find_sync] at hfind
    obtain ⟨o, ho, rfl⟩ := Option.map_eq_some_iff.mp hfind
    exact ⟨o, (KeyedTable.find?_eq_some_iff.mp ho).1, rests_syncedRow_iff.mp hrests⟩
  · rintro ⟨o, ho, hrests⟩
    refine ⟨o.idempotencyKey, syncedRow orderOf o, ?_, rests_syncedRow_iff.mpr hrests⟩
    rw [find_sync, find_of_mem ho]
    rfl

/-! ## The call -/

def Counted (u : Ibkr.Uuid) (r : Lifecycle) (stop : ℚ) (b : OrderBook) : Prop :=
  (∃ o ∈ b.orders.rows, isOwnStop u r o) ∧ staleStops u r stop b = []

/-- The call submits a stop, and its key is free once the stale stops are cancelled. -/
structure Submits (cfg : Settings) (u : Ibkr.Uuid) (c : ProtectionCall) (r : Lifecycle) (stop : ℚ)
    (b : OrderBook) : Prop where
  uncounted : ¬ Counted u r stop b
  allowed : c.controls.isNewOrderAllowed
  clears : Clears u c r stop b
  passed : submitBlocked cfg c.controls true = false
  free : ∀ row, b.orders.find? (stopKey u stop) = some row →
    foldStatus (clearedRow u c r stop row).status ∈ DEAD_ORDER_STATUSES

def SubmitFits (cfg : Settings) (u : Ibkr.Uuid) (c : ProtectionCall) (r : Lifecycle) (stop : ℚ)
    (b : OrderBook) : Prop :=
  stopOutcome c.answers (c.answers.submit (stopRequest cfg u c r stop)) ≠ .refused →
    (∃ o ∈ b.orders.rows, Rests u r o ∧ o.idempotencyKey ≠ stopKey u stop) ∨
      stopOutcome c.answers (c.answers.submit (stopRequest cfg u c r stop)) = .rests ∧
        ∀ row, b.orders.find? (stopKey u stop) = some row → Suited r row

/-- A call that notes a stop finds or makes one that protects the lifecycle: where the note is set
    already, where it counts what rests, and where it submits a stop that is not refused. -/
structure ProtectFits (cfg : Settings) (u : Ibkr.Uuid) (c : ProtectionCall) (r : Lifecycle)
    (b : OrderBook) : Prop where
  noted : r.protectionSubmitted → Protected u r b
  counted : r.protectionSubmitted = false → r.quantity ≠ 0 → ∀ stop, r.stopPrice = some stop →
    Counted u r stop b → Protected u r b
  submitted : r.protectionSubmitted = false → r.quantity ≠ 0 → ∀ stop, r.stopPrice = some stop →
    Submits cfg u c r stop b → SubmitFits cfg u c r stop b

theorem filter_stale : (b.orders.rows.filter (isOwnStop u r)).filter (isStale stop) =
    staleStops u r stop b := by
  rw [List.filter_filter, staleStops]
  congr 1
  funext o
  exact Bool.and_comm _ _

theorem counted_iff : (!(b.orders.rows.filter (isOwnStop u r)).isEmpty &&
    (staleStops u r stop b).isEmpty) = true ↔ Counted u r stop b := by
  have hempty : (b.orders.rows.filter (isOwnStop u r)).isEmpty = false ↔
      ∃ o ∈ b.orders.rows, isOwnStop u r o := by
    rw [← Bool.not_eq_true, List.isEmpty_iff, List.filter_eq_nil_iff]
    push Not
    rfl
  rw [Bool.and_eq_true, Bool.not_eq_true', hempty, List.isEmpty_iff, Counted]

theorem clearedRow_of_not_stale (h : ¬ (isOwnStop u r o && isStale stop o) = true) :
    clearedRow u c r stop o = o := if_neg h

theorem suited_clearedRow : Suited r (clearedRow u c r stop o) ↔ Suited r o := by
  unfold clearedRow
  split
  · obtain ⟨status, hrow⟩ := cancelledRow_eq c.answers.cancels o
    rw [hrow]
    rfl
  · rfl

theorem rests_clearedRow_iff (hstop : r.stopPrice = some stop) :
    Rests u r (clearedRow u c r stop o) ↔ Rests u r o := by
  by_cases hstale : (isOwnStop u r o && isStale stop o) = true
  · have hprice : ∀ o' : Order, o'.stopPrice = o.stopPrice → ¬ Rests u r o' := by
      intro o' hsame hrests
      obtain ⟨price, hprice, ho⟩ := hrests.price
      cases hstop.symm.trans hprice
      have hfar := (Bool.and_eq_true_iff.mp hstale).2
      rw [isStale, ← hsame, ho, Option.getD_some, sub_self, abs_zero, decide_eq_true_eq] at hfar
      norm_num at hfar
    refine iff_of_false (hprice _ ?_) (hprice o rfl)
    obtain ⟨status, hrow⟩ := cancelledRow_eq c.answers.cancels o
    rw [clearedRow, if_pos hstale, hrow]
  · rw [clearedRow_of_not_stale hstale]

variable {cleared : OrderBook}

theorem protected_submit_iff
    (hcleared : ∀ k, cleared.orders.find? k = (b.orders.find? k).map (clearedRow u c r stop))
    (hstop : r.stopPrice = some stop) (hfree : KeyFree cleared (stopKey u stop))
    (hlive : stopOutcome c.answers (c.answers.submit (stopRequest cfg u c r stop)) ≠ .refused) :
    Protected u r (cleared.submitOne cfg c.answers (stopIntent cfg u c.decisionId r stop) none) ↔
      (∃ o ∈ b.orders.rows, Rests u r o ∧ o.idempotencyKey ≠ stopKey u stop) ∨
        stopOutcome c.answers (c.answers.submit (stopRequest cfg u c r stop)) = .rests ∧
          ∀ row, b.orders.find? (stopKey u stop) = some row → Suited r row := by
  have hexit := stopIntent_not_exit cfg u c.decisionId r stop
  have hmade : (cleared.submitOne cfg c.answers (stopIntent cfg u c.decisionId r stop) none).orders.find?
      (stopKey u stop) = _ := (@submitOne_of_free _ _ _ _ none _ hexit hfree).1
  rw [replyOf_stop] at hmade
  have hother : ∀ k, k ≠ stopKey u stop →
      (cleared.submitOne cfg c.answers (stopIntent cfg u c.decisionId r stop) none).orders.find? k =
        (b.orders.find? k).map (clearedRow u c r stop) := fun k hk =>
    (find_submitOne_other hexit hk).trans (hcleared k)
  have hrow := @isStopRow_claimed cfg u r stop c.decisionId _ c.answers
    (cleared.orders.find? (stopKey u stop)) fun row hfind => key_of_find hfind
  have hsuited : (∀ row, cleared.orders.find? (stopKey u stop) = some row → Suited r row) ↔
      ∀ row, b.orders.find? (stopKey u stop) = some row → Suited r row := by
    rw [hcleared]
    simp only [Option.map_eq_some_iff, forall_exists_index, and_imp, forall_apply_eq_imp_iff₂,
      suited_clearedRow]
  have hreplied := rests_replied_iff hrow hstop hlive
  rw [suited_claimed_iff, hsuited] at hreplied
  rw [← hreplied, protected_iff_find]
  constructor
  · rintro ⟨k, o, hfind, hrests⟩
    by_cases hk : k = stopKey u stop
    · rw [hk, hmade] at hfind
      cases hfind
      exact .inr hrests
    · rw [hother k hk] at hfind
      obtain ⟨o, ho, rfl⟩ := Option.map_eq_some_iff.mp hfind
      refine .inl ⟨o, (KeyedTable.find?_eq_some_iff.mp ho).1,
        (rests_clearedRow_iff hstop).mp hrests, ?_⟩
      rw [key_of_find ho]
      exact hk
  · rintro (⟨o, ho, hrests, hk⟩ | hrests)
    · refine ⟨o.idempotencyKey, clearedRow u c r stop o, ?_, (rests_clearedRow_iff hstop).mpr hrests⟩
      rw [hother _ hk, find_of_mem ho]
      rfl
    · exact ⟨_, _, hmade, hrests⟩

theorem keyFree_cleared_iff
    (hcleared : ∀ k, cleared.orders.find? k = (b.orders.find? k).map (clearedRow u c r stop)) :
    KeyFree cleared (stopKey u stop) ↔ ∀ row, b.orders.find? (stopKey u stop) = some row →
      foldStatus (clearedRow u c r stop row).status ∈ DEAD_ORDER_STATUSES := by
  unfold KeyFree
  rw [hcleared]
  simp only [Option.map_eq_some_iff, forall_exists_index, and_imp, forall_apply_eq_imp_iff₂]

theorem submitStop_fits_iff (hflag : r.protectionSubmitted = false)
    (hcleared : ∀ k, cleared.orders.find? k = (b.orders.find? k).map (clearedRow u c r stop))
    (hstop : r.stopPrice = some stop) :
    ((submitStop cfg u c r stop cleared).protectionSubmitted →
        Protected u r (submitStop cfg u c r stop cleared).orders) ↔
      (submitBlocked cfg c.controls true = false → KeyFree cleared (stopKey u stop) →
        SubmitFits cfg u c r stop b) := by
  have hexit := stopIntent_not_exit cfg u c.decisionId r stop
  unfold submitStop
  cases hblocked : submitBlocked cfg c.controls true with
  | true =>
    exact iff_of_true (fun h => absurd h Bool.false_ne_true) fun h => absurd h.symm Bool.false_ne_true
  | false =>
    simp only [Bool.false_eq_true, if_false, true_implies]
    by_cases hfree : KeyFree cleared (stopKey u stop)
    · have hmade : cleared.ordersMade cfg c.answers (stopIntent cfg u c.decisionId r stop) none = _ :=
        (@submitOne_of_free _ _ _ _ none _ hexit hfree).2
      rw [replyOf_stop] at hmade
      cases hraises : replyRaises c.answers (c.answers.submit (stopRequest cfg u c r stop)) with
      | true =>
        rw [hraises, if_pos rfl] at hmade
        rw [hmade]
        exact iff_of_true (fun h => absurd h (by simp [hflag]))
          fun _ hlive => absurd (outcome_of_raises hraises) hlive
      | false =>
        rw [hraises, if_neg Bool.false_ne_true] at hmade
        rw [hmade]
        simp only [List.any_cons, List.any_nil, Bool.or_false, hfree, true_implies]
        rw [live_iff hraises]
        exact forall_congr' fun hlive => protected_submit_iff hcleared hstop hfree hlive
    · have hmade : cleared.ordersMade cfg c.answers (stopIntent cfg u c.decisionId r stop) none = _ :=
        (@submitOne_of_taken _ _ _ _ none _ hexit hfree).2
      rw [hmade]
      exact iff_of_true (fun h => absurd h Bool.false_ne_true) fun h => absurd h hfree

theorem restStop_fits_iff (hflag : r.protectionSubmitted = false) (hstop : r.stopPrice = some stop) :
    ((restStop cfg u c r stop b).protectionSubmitted →
        Protected u r (restStop cfg u c r stop b).orders) ↔
      (Counted u r stop b → Protected u r b) ∧
        (Submits cfg u c r stop b → SubmitFits cfg u c r stop b) := by
  unfold restStop
  simp only [filter_stale]
  by_cases hcounted : Counted u r stop b
  · rw [if_pos (counted_iff.mpr hcounted)]
    simp only [true_implies, hcounted]
    exact (and_iff_left fun h => absurd hcounted h.uncounted).symm
  · rw [if_neg fun h => hcounted (counted_iff.mp h)]
    simp only [hcounted, false_implies, true_and]
    cases hallowed : c.controls.isNewOrderAllowed with
    | false =>
      refine iff_of_true (fun h => absurd h (by simp [hflag])) fun h => ?_
      rw [h.allowed] at hallowed
      cases hallowed
    | true =>
      simp only [Bool.not_true, Bool.false_eq_true, if_false]
      by_cases hclears : Clears u c r stop b
      · rw [cleared_iff.mpr hclears]
        simp only [Bool.not_true, Bool.false_eq_true, if_false]
        refine (submitStop_fits_iff hflag (find_cleared hclears) hstop).trans ?_
        rw [keyFree_cleared_iff (find_cleared hclears)]
        constructor
        · intro h hsubmits
          exact h hsubmits.passed hsubmits.free
        · intro h hpassed hfree
          exact h ⟨hcounted, hallowed, hclears, hpassed, hfree⟩
      · have hnot : (cancelEach c.answers.cancels (staleStops u r stop b) b).2 = false := by
          rw [← Bool.not_eq_true, cleared_iff]
          exact hclears
        rw [hnot]
        exact iff_of_true (fun h => absurd h (by simp [hflag])) fun h => absurd h.clears hclears

/-- The flag is right exactly if the call fits the book. -/
theorem protect_fits_iff : ((submitProtectionStop cfg u c r b).protectionSubmitted →
      Protected u r (submitProtectionStop cfg u c r b).orders) ↔ ProtectFits cfg u c r b := by
  unfold submitProtectionStop
  cases hflag : r.protectionSubmitted with
  | true =>
    rw [if_pos rfl]
    constructor
    · intro h
      exact ⟨fun _ => h rfl, by simp [hflag], by simp [hflag]⟩
    · intro h _
      exact h.noted hflag
  | false =>
    rw [if_neg Bool.false_ne_true]
    cases hstop : r.stopPrice with
    | none => exact iff_of_true nofun ⟨by simp [hflag], by simp [hstop], by simp [hstop]⟩
    | some stop =>
      dsimp only
      by_cases hquantity : r.quantity = 0
      · have hnothing : |r.quantity| ≤ 0 := by simp [hquantity]
        rw [if_pos hnothing]
        exact iff_of_true nofun ⟨by simp [hflag], by simp [hquantity], by simp [hquantity]⟩
      · have hsome : ¬ |r.quantity| ≤ 0 := not_le.mpr (abs_pos.mpr hquantity)
        rw [if_neg hsome, restStop_fits_iff hflag hstop]
        constructor
        · rintro ⟨hcounted, hsubmits⟩
          refine ⟨by simp [hflag], fun _ _ price hprice => ?_, fun _ _ price hprice => ?_⟩
          · cases hstop.symm.trans hprice
            exact hcounted
          · cases hstop.symm.trans hprice
            exact hsubmits
        · intro h
          exact ⟨h.counted hflag hquantity stop hstop, h.submitted hflag hquantity stop hstop⟩

end Call

end Investor.Intraday
