import Investor.Execution.OrderUpdates

/-!
# Fills on file

The profit and loss is counted from `Execution` rows. `_submit_one` and
`sync_statuses_from_broker` write one when they read that an order is filled; the other paths to a
final status (`cancel_order`, `poll_and_apply`, the recovery after a timeout, `submit_intent`, and
a cancelled order wherever it is read) write none, whatever the broker says was filled. So the law
`Booked`, that the rows of an ended order add up to what the broker filled, holds in a run whose
answers bring no fill on those paths that is not on file (`Fits`).
-/

namespace Investor.Execution

open Lib Schema Market

def endedStatuses : List String := ["filled", "cancelled", "canceled"]

/-- The broker's statuses that are final in the sense of the law. -/
def OrderStatus.Ends (s : OrderStatus) : Prop := s = .filled ∨ s = .canceled

instance (s : OrderStatus) : Decidable s.Ends := inferInstanceAs (Decidable (_ ∨ _))

namespace OrderBook

def bookedQty (b : OrderBook) (key : String) : ℚ :=
  ((b.executions.filter fun e => e.orderKey = key).map (·.qty)).sum

def FillOnFile (b : OrderBook) (key : String) (answer : OrderResult) : Prop :=
  0 < answer.filledQty → answer.avgFillPrice.isSome → b.bookedQty key = answer.filledQty

def NothingOnFile (b : OrderBook) (key : String) (answer : OrderResult) : Prop :=
  0 < answer.filledQty → answer.avgFillPrice.isSome → b.bookedQty key = 0

/-! ## Frames -/

/-- Two books that agree on the order of a key, its last answer and its fills. -/
structure SameAt (key : String) (b b' : OrderBook) : Prop where
  row : b'.orders.find? key = b.orders.find? key
  last : Dict.get? b'.handled key = Dict.get? b.handled key
  qty : b'.bookedQty key = b.bookedQty key

def Touches (key : String) (b b' : OrderBook) : Prop := ∀ k, k ≠ key → SameAt k b b'

variable {answer : OrderResult} {f : Order → Order} {symbol : String} {qty : ℚ} {now : Int}
  {row : Order}

section Frames

variable {b b' b'' : OrderBook} {key : String}

theorem SameAt.refl : SameAt key b b := ⟨rfl, rfl, rfl⟩

theorem SameAt.trans (h : SameAt key b b') (h' : SameAt key b' b'') : SameAt key b b'' :=
  ⟨h'.row.trans h.row, h'.last.trans h.last, h'.qty.trans h.qty⟩

theorem Touches.refl : Touches key b b := fun _ _ => SameAt.refl

theorem Touches.trans (h : Touches key b b') (h' : Touches key b' b'') : Touches key b b'' :=
  fun k hk => (h k hk).trans (h' k hk)

theorem touches_setOrder {hf : ∀ r, (f r).idempotencyKey = r.idempotencyKey} :
    Touches key b (b.setOrder key f hf) :=
  fun _ hk => ⟨find_setOrder_other hk, rfl, rfl⟩

theorem touches_handle : Touches key b (b.handle key answer) :=
  fun _ hk => ⟨rfl, Dict.get?_set_of_ne _ _ (Ne.symm hk), rfl⟩

theorem touches_send {req : OrderRequest} : Touches key b (b.send req) :=
  fun _ _ => ⟨rfl, rfl, rfl⟩

theorem touches_addFills {fills : List Execution} (h : ∀ e ∈ fills, e.orderKey = key) :
    Touches key b (b.addFills fills) := by
  intro k hk
  refine ⟨rfl, rfl, ?_⟩
  have hnone : (fills.filter fun e => e.orderKey = k) = [] := by
    rw [List.filter_eq_nil_iff]
    intro e he heq
    exact hk ((of_decide_eq_true heq).symm.trans (h e he))
  unfold bookedQty addFills
  rw [List.filter_append, hnone, List.append_nil]

theorem touches_addOrder (row : Order) : Touches row.idempotencyKey b (b.addOrder row) := by
  intro k hk
  refine ⟨?_, rfl, rfl⟩
  unfold addOrder
  cases hins : b.orders.insert row with
  | none => rfl
  | some orders =>
    show orders.find? k = b.orders.find? k
    unfold KeyedTable.find?
    rw [(KeyedTable.insert_eq_some hins).2, List.find?_append, List.find?_singleton,
      decide_eq_false (Ne.symm hk)]
    exact Option.or_none

theorem orderKey_fillOf : ∀ e ∈ fillOf key symbol qty now answer, e.orderKey = key := by
  unfold fillOf
  intro e he
  split at he
  · rw [List.mem_singleton.mp he]
  · exact absurd he List.not_mem_nil

theorem bookedQty_addFills :
    (b.addFills (fillOf key symbol qty now answer)).bookedQty key =
      b.bookedQty key + ((fillOf key symbol qty now answer).map (·.qty)).sum := by
  have hall : ((fillOf key symbol qty now answer).filter fun e => e.orderKey = key) =
      fillOf key symbol qty now answer := by
    rw [List.filter_eq_self]
    intro e he
    exact decide_eq_true (orderKey_fillOf e he)
  unfold bookedQty addFills
  rw [List.filter_append, hall, List.map_append, List.sum_append]

theorem nodup_keys_filter (b : OrderBook) (p : Order → Bool) :
    ((b.orders.rows.filter p).map (·.idempotencyKey)).Nodup :=
  b.orders.unique.sublist (List.filter_sublist.map _)

theorem find_of_mem (h : row ∈ b.orders.rows) : b.orders.find? row.idempotencyKey = some row :=
  KeyedTable.find?_eq_some_iff.mpr ⟨h, rfl⟩

end Frames

section Law

section

variable [Casing]

/-- The law for the order of a key: once it has ended, the fill of its last answer is on file. -/
def BookedAt (b : OrderBook) (key : String) : Prop :=
  ∀ row ∈ b.orders.find? key, foldStatus row.status ∈ endedStatuses →
    ∀ last ∈ Dict.get? b.handled key, b.FillOnFile key last

/-- **The law of the book.** -/
def Booked (b : OrderBook) : Prop := ∀ key, b.BookedAt key

theorem SameAt.bookedAt {key : String} {b b' : OrderBook} (h : SameAt key b b')
    (hb : b.BookedAt key) : b'.BookedAt key := by
  unfold BookedAt FillOnFile
  rw [h.row, h.last, h.qty]
  exact hb

theorem Touches.booked {key : String} {b b' : OrderBook} (h : Touches key b b') (hb : b.Booked)
    (hkey : b'.BookedAt key) : b'.Booked := by
  intro k
  by_cases hk : k = key
  · rw [hk]
    exact hkey
  · exact (h k hk).bookedAt (hb k)

theorem foldl_booked {f : OrderBook → Order → OrderBook}
    (htouch : ∀ b row, Touches row.idempotencyKey b (f b row)) {rows : List Order}
    {b : OrderBook} (hunique : (rows.map (·.idempotencyKey)).Nodup) (hb : b.Booked)
    (hstep : ∀ row ∈ rows, ∀ c, SameAt row.idempotencyKey b c →
      (f c row).BookedAt row.idempotencyKey) :
    (rows.foldl f b).Booked := by
  induction rows generalizing b with
  | nil => exact hb
  | cons row rows ih =>
    rw [List.map_cons, List.nodup_cons] at hunique
    rw [List.foldl_cons]
    refine ih hunique.2 ((htouch b row).booked hb ?_) fun row' hrow' c hc => ?_
    · exact hstep row (List.mem_cons_self ..) b SameAt.refl
    · have hne : row'.idempotencyKey ≠ row.idempotencyKey := fun heq =>
        hunique.1 (List.mem_map.mpr ⟨row', hrow', heq⟩)
      exact hstep row' (List.mem_cons_of_mem _ hrow') c ((htouch b row _ hne).trans hc)

/-! ## Final statuses -/

theorem ended_written {s : String} (hs : s ∈ writtenStatuses) :
    foldStatus s ∈ endedStatuses ↔ asciiLower s ∈ endedStatuses := by
  rw [foldStatus_written hs]

theorem ended_value {s : OrderStatus} (h : foldStatus s.value ∈ endedStatuses) : s.Ends := by
  rw [ended_written (value_written_broker s)] at h
  revert h
  cases s <;> decide +kernel

theorem ended_state {S : InternalOrderState} (h : foldStatus S.value ∈ endedStatuses) :
    S = .filled ∨ S = .cancelled := by
  rw [ended_written (value_written S)] at h
  revert h
  cases S <;> decide +kernel

theorem ended_internal {s : OrderStatus} (h : foldStatus (internalStatus s).value ∈ endedStatuses) :
    s.Ends := by
  have hstate := ended_state h
  revert hstate
  cases s <;> decide

theorem pending_not_ended : foldStatus "pending_submit" ∉ endedStatuses := by
  rw [ended_written (by decide)]
  decide +kernel

theorem working_not_ended {s : String} (hs : s ∈ writtenStatuses)
    (h : Casing.lower s ∈ WORKING_ORDER_STATUSES) : foldStatus s ∉ endedStatuses := by
  rw [ended_written hs]
  rw [lower_written hs] at h
  revert h
  generalize asciiLower s = folded
  revert folded
  decide

/-! ## The law after a write -/

section Writes

variable {b : OrderBook} {key : String}

theorem bookedAt_setOrder {hf : ∀ r, (f r).idempotencyKey = r.idempotencyKey}
    (h : ∀ row ∈ b.orders.find? key, foldStatus (f row).status ∈ endedStatuses →
      ∀ last ∈ Dict.get? b.handled key, b.FillOnFile key last) :
    (b.setOrder key f hf).BookedAt key := by
  intro row hrow hended last hlast
  rw [find_setOrder] at hrow
  obtain ⟨r, hr, hrr⟩ := Option.map_eq_some_iff.mp hrow
  rw [if_pos (KeyedTable.find?_eq_some_iff.mp hr).2] at hrr
  rw [← hrr] at hended
  exact h r hr hended last hlast

theorem bookedAt_answer {hf : ∀ r, (f r).idempotencyKey = r.idempotencyKey}
    (h : ∀ row ∈ b.orders.find? key, foldStatus (f row).status ∈ endedStatuses →
      b.FillOnFile key answer) : ((b.handle key answer).setOrder key f hf).BookedAt key := by
  refine bookedAt_setOrder fun row hrow hended last hlast => ?_
  have hsome : Dict.get? (b.handle key answer).handled key = some answer :=
    Dict.get?_set_self _ _ _
  rw [hsome] at hlast
  cases hlast
  exact h row hrow hended

/-- What is asked of an answer whose fill `fillOf` puts on file. -/
def BookingFits (b : OrderBook) (key : String) (answer : OrderResult) : Prop :=
  match answer.status with
  | .filled => b.NothingOnFile key answer
  | .canceled => b.FillOnFile key answer
  | _ => True

theorem bookedAt_booking {hf : ∀ r, (f r).idempotencyKey = r.idempotencyKey}
    (hstatus : ∀ r, (f r).status = (internalStatus answer.status).value)
    (h : b.BookingFits key answer) :
    (((b.handle key answer).setOrder key f hf).addFills
      (fillOf key symbol qty now answer)).BookedAt key := by
  have hqty : ((b.handle key answer).setOrder key f hf).bookedQty key = b.bookedQty key := rfl
  have hfile : answer.status.Ends →
      (((b.handle key answer).setOrder key f hf).addFills
        (fillOf key symbol qty now answer)).FillOnFile key answer := by
    intro hends hpositive hprice
    rw [bookedQty_addFills, hqty]
    unfold BookingFits at h
    obtain ⟨price, hprice'⟩ := Option.isSome_iff_exists.mp hprice
    rcases hends with hfilled | hcanceled
    · rw [hfilled] at h
      unfold fillOf
      rw [hfilled, hprice']
      dsimp only
      rw [if_neg (ne_of_gt hpositive), h hpositive hprice, List.map_singleton, List.sum_singleton,
        zero_add]
    · rw [hcanceled] at h
      unfold fillOf
      rw [hcanceled]
      exact (add_zero _).trans (h hpositive hprice)
  intro row hrow hended last hlast
  have hsome : Dict.get? (((b.handle key answer).setOrder key f hf).addFills
      (fillOf key symbol qty now answer)).handled key = some answer :=
    Dict.get?_set_self _ _ _
  rw [hsome] at hlast
  cases hlast
  refine hfile (ended_internal ?_)
  have hfound : row ∈ ((b.handle key answer).setOrder key f hf).orders.find? key := hrow
  rw [find_setOrder] at hfound
  obtain ⟨r, hr, rfl⟩ := Option.map_eq_some_iff.mp hfound
  rw [if_pos (KeyedTable.find?_eq_some_iff.mp hr).2, hstatus] at hended
  exact hended

theorem bookedAt_addOrder (row : Order) (hfree : ¬ b.orders.HasKey row.idempotencyKey)
    (h : foldStatus row.status ∈ endedStatuses →
      ∀ last ∈ Dict.get? b.handled row.idempotencyKey, b.FillOnFile row.idempotencyKey last) :
    (b.addOrder row).BookedAt row.idempotencyKey := by
  intro row' hrow' hended last hlast
  obtain ⟨orders, hins⟩ := Option.ne_none_iff_exists'.mp
    (fun hnone => hfree (KeyedTable.insert_eq_none_iff.mp hnone))
  have horders : (b.addOrder row).orders = orders := by
    unfold addOrder
    rw [hins]
    rfl
  have hrow : row ∈ orders.rows := by
    rw [(KeyedTable.insert_eq_some hins).2]
    exact List.mem_append_right _ (List.mem_singleton_self row)
  rw [horders, KeyedTable.find?_eq_some_iff.mpr ⟨hrow, rfl⟩] at hrow'
  cases hrow'
  exact h hended last hlast

end Writes

end

/-! ## Cancelling -/

/-- What is asked of a cancellation. Where the order never got an id, its last answer has no fill
    that is not on file; else an answer that ends the order has none. -/
def CancelFits (cancels : String → Except BrokerFault OrderResult) (b : OrderBook) (row : Order) :
    Prop :=
  match row.brokerId? with
  | none =>
    ∀ last ∈ Dict.get? b.handled row.idempotencyKey, b.FillOnFile row.idempotencyKey last
  | some oid =>
    ∀ answer ∈ (cancels oid).toOption, answer.status.Ends → b.FillOnFile row.idempotencyKey answer

section Paths

variable {b : OrderBook}

variable {cancels : String → Except BrokerFault OrderResult}

theorem touches_cancelOrder {key : String} : Touches key b (b.cancelOrder cancels key) := by
  unfold cancelOrder
  cases b.orders.find? key with
  | none => exact Touches.refl
  | some row =>
    dsimp only
    cases row.brokerId? with
    | none => exact touches_setOrder
    | some oid =>
      dsimp only
      cases cancels oid with
      | error e => exact Touches.refl
      | ok answer => exact touches_handle.trans touches_setOrder

theorem bookedAt_cancelOrder [Casing] {key : String} (hb : b.BookedAt key)
    (h : ∀ row ∈ b.orders.find? key, CancelFits cancels b row) :
    (b.cancelOrder cancels key).BookedAt key := by
  unfold cancelOrder
  cases hfind : b.orders.find? key with
  | none => exact hb
  | some row =>
    obtain ⟨_, hkey⟩ := KeyedTable.find?_eq_some_iff.mp hfind
    have hfits := h row hfind
    unfold CancelFits at hfits
    rw [hkey] at hfits
    dsimp only
    cases hid : row.brokerId? with
    | none =>
      rw [hid] at hfits
      exact bookedAt_setOrder fun _ _ _ => hfits
    | some oid =>
      rw [hid] at hfits
      dsimp only at hfits ⊢
      cases hanswer : cancels oid with
      | error e => exact hb
      | ok answer =>
        rw [hanswer] at hfits
        exact bookedAt_answer fun _ _ hended => hfits answer rfl (ended_value hended)

variable {c : OrderBook}

theorem SameAt.cancelFits (h : SameAt row.idempotencyKey b c) (hfits : CancelFits cancels b row) :
    CancelFits cancels c row := by
  unfold CancelFits FillOnFile
  rw [h.last, h.qty]
  exact hfits

theorem executions_cancelOrder {key : String} :
    (b.cancelOrder cancels key).executions = b.executions := by
  unfold cancelOrder
  cases b.orders.find? key with
  | none => rfl
  | some row =>
    dsimp only
    cases row.brokerId? with
    | none => rfl
    | some oid =>
      dsimp only
      cases cancels oid with
      | error e => rfl
      | ok answer => rfl

/-! ## Syncing and polling -/

def SyncFits (orderOf : String → Except BrokerFault OrderResult) (b : OrderBook) (row : Order) :
    Prop :=
  ∀ oid ∈ row.brokerId?,
    match orderOf oid with
    | .error (.broker message) => hasPart message "order_not_found" →
        ∀ last ∈ Dict.get? b.handled row.idempotencyKey, b.FillOnFile row.idempotencyKey last
    | .error _ => True
    | .ok answer => b.BookingFits row.idempotencyKey answer

variable {orderOf : String → Except BrokerFault OrderResult}

theorem touches_syncRow : Touches row.idempotencyKey b (b.syncRow orderOf now row) := by
  unfold syncRow
  cases row.brokerId? with
  | none => exact Touches.refl
  | some oid =>
    dsimp only
    cases orderOf oid with
    | error e =>
      cases e with
      | timeout => exact Touches.refl
      | other message => exact Touches.refl
      | broker message =>
        dsimp only
        split
        · exact touches_setOrder
        · exact Touches.refl
    | ok answer =>
      have hchanged : Touches row.idempotencyKey b
          ((b.handle row.idempotencyKey answer).setOrder row.idempotencyKey (synced answer)
            key_synced) := touches_handle.trans touches_setOrder
      dsimp only
      split
      · exact hchanged.trans (touches_addFills orderKey_fillOf)
      · exact hchanged

theorem status_synced (answer : OrderResult) (row : Order) :
    (synced answer row).status = (internalStatus answer.status).value := by
  unfold synced
  split
  · rfl
  · rename_i h
    exact not_not.mp h

theorem bookedAt_syncRow [Casing] (hb : b.BookedAt row.idempotencyKey) (hworking : row.isWorking)
    (h : SyncFits orderOf b row) : (b.syncRow orderOf now row).BookedAt row.idempotencyKey := by
  unfold syncRow
  cases hid : row.brokerId? with
  | none => exact hb
  | some oid =>
    have hfits := h oid hid
    dsimp only
    cases hanswer : orderOf oid with
    | error e =>
      rw [hanswer] at hfits
      cases e with
      | timeout => exact hb
      | other message => exact hb
      | broker message =>
        dsimp only at hfits ⊢
        split
        · rename_i hgone
          exact bookedAt_setOrder fun _ _ _ => hfits hgone
        · exact hb
    | ok answer =>
      rw [hanswer] at hfits
      dsimp only at hfits ⊢
      split
      · exact bookedAt_booking (status_synced answer) hfits
      · -- the row is in that status already, and it is a working one
        rename_i hsame
        refine bookedAt_answer fun r _ hended => ?_
        rw [status_synced, ← not_not.mp hsame] at hended
        refine absurd hended (working_not_ended ?_ (List.contains_iff_mem.mp hworking))
        rw [not_not.mp hsame]
        exact value_written _

theorem SameAt.syncFits (h : SameAt row.idempotencyKey b c) (hfits : SyncFits orderOf b row) :
    SyncFits orderOf c row := by
  unfold SyncFits BookingFits FillOnFile NothingOnFile
  rw [h.last, h.qty]
  exact hfits

/-- The broker's news end the order: they are of a final status, and the internal state of the
    row, if it is one, may move there. -/
def NewsEnd (status : String) (news : OrderStatus) : Prop :=
  news.Ends ∧ ∀ S ∈ InternalOrderState.all, status = S.value →
    internalStatus news ∈ ALLOWED_ORDER_TRANSITIONS S

def PollFits (openOrders : Dict OrderResult)
    (orderOf : Option (String → Except BrokerFault OrderResult)) (b : OrderBook) (row : Order) :
    Prop :=
  ∀ remote ∈ row.brokerId?.bind (remoteOf openOrders orderOf),
    NewsEnd row.status remote.status → b.FillOnFile row.idempotencyKey remote

variable {openOrders : Dict OrderResult}

theorem touches_pollRow [Casing] {orderOf : Option (String → Except BrokerFault OrderResult)} :
    Touches row.idempotencyKey b (b.pollRow openOrders orderOf row) := by
  unfold pollRow
  cases row.brokerId?.bind (remoteOf openOrders orderOf) with
  | none => exact Touches.refl
  | some remote =>
    dsimp only
    unfold applyRemoteStatus
    cases b.orders.find? row.idempotencyKey with
    | none => exact Touches.refl
    | some _ =>
      have hwritten : Touches row.idempotencyKey b
          ((b.handle row.idempotencyKey remote).setOrder row.idempotencyKey
            (applied (mappedState remote.status.value)) key_applied) :=
        touches_handle.trans touches_setOrder
      intro k hk
      exact ⟨(hwritten k hk).row, (hwritten k hk).last, (hwritten k hk).qty⟩

theorem mappedState_value [Casing] (s : OrderStatus) : mappedState s.value = internalStatus s := by
  unfold mappedState
  rw [lower_written (value_written_broker s)]
  cases s <;> decide +kernel

theorem newsEnd_of_ended [Casing] {news : OrderStatus} (hworking : row.isWorking)
    (hended : foldStatus (applied (internalStatus news) row).status ∈ endedStatuses) :
    NewsEnd row.status news := by
  have hstays : row.status ∈ writtenStatuses → foldStatus row.status ∉ endedStatuses :=
    fun hwritten => working_not_ended hwritten (List.contains_iff_mem.mp hworking)
  unfold applied at hended
  rcases applyOutcome_cases row.status (internalStatus news) with
    ⟨houtcome, hsame⟩ | ⟨houtcome, hterminal, _⟩ | ⟨houtcome, _⟩ | ⟨houtcome, hmoves⟩ <;>
    rw [houtcome] at hended
  · refine absurd hended (hstays ?_)
    rw [hsame]
    exact value_written _
  · refine absurd hended (hstays ?_)
    obtain ⟨S, _, hS⟩ := List.mem_map.mp hterminal
    rw [← hS]
    exact value_written S
  · rcases ended_state hended with h | h <;> cases h
  · refine ⟨ended_internal hended, fun S _ hS => hmoves S ?_⟩
    rw [hS]
    exact ofValue?_value S

theorem bookedAt_pollRow [Casing] {orderOf : Option (String → Except BrokerFault OrderResult)}
    (hb : b.BookedAt row.idempotencyKey) (hworking : row.isWorking)
    (hrow : b.orders.find? row.idempotencyKey = some row) (h : PollFits openOrders orderOf b row) :
    (b.pollRow openOrders orderOf row).BookedAt row.idempotencyKey := by
  unfold pollRow
  cases hremote : row.brokerId?.bind (remoteOf openOrders orderOf) with
  | none => exact hb
  | some remote =>
    have hwritten : ((b.handle row.idempotencyKey remote).setOrder row.idempotencyKey
        (applied (mappedState remote.status.value)) key_applied).BookedAt row.idempotencyKey := by
      refine bookedAt_answer fun r hr hended => h remote hremote ?_
      rw [show r = row from Option.some.inj (hr.symm.trans hrow), mappedState_value] at hended
      exact newsEnd_of_ended hworking hended
    dsimp only
    unfold applyRemoteStatus
    rw [hrow]
    exact hwritten

theorem SameAt.pollFits {orderOf : Option (String → Except BrokerFault OrderResult)}
    (h : SameAt row.idempotencyKey b c) (hfits : PollFits openOrders orderOf b row) :
    PollFits openOrders orderOf c row := by
  unfold PollFits FillOnFile
  rw [h.qty]
  exact hfits

variable {a : SubmitAnswers} {intent : ValidatedOrderIntent} {cfg : Settings}

section

variable [Casing]

theorem booked_sync (hb : b.Booked) (h : ∀ row ∈ b.working, SyncFits orderOf b row) :
    (b.syncStatusesFromBroker orderOf now).Booked := by
  refine foldl_booked (fun _ _ => touches_syncRow) (nodup_keys_filter b _) hb
    fun row hrow c hc => ?_
  obtain ⟨_, hworking⟩ := List.mem_filter.mp hrow
  exact bookedAt_syncRow (hc.bookedAt (hb _)) hworking (hc.syncFits (h row hrow))

theorem booked_poll {remotes : Except BrokerFault (List OrderResult)}
    {orderOf : Option (String → Except BrokerFault OrderResult)} (hb : b.Booked)
    (h : ∀ known ∈ remotes.toOption, ∀ row ∈ b.working,
      PollFits (byBrokerId known) orderOf b row) :
    (b.pollAndApply remotes orderOf).Booked := by
  unfold pollAndApply
  cases remotes with
  | error e => exact hb
  | ok known =>
    refine foldl_booked (fun _ _ => touches_pollRow) (nodup_keys_filter b _) hb
      fun row hrow c hc => ?_
    obtain ⟨hmem, hworking⟩ := List.mem_filter.mp hrow
    exact bookedAt_pollRow (hc.bookedAt (hb _)) hworking (hc.row.trans (find_of_mem hmem))
      (hc.pollFits (h known rfl row hrow))

/-! ## Submitting -/

def Replaces (a : SubmitAnswers) (intent : ValidatedOrderIntent) (b : OrderBook) : Prop :=
  isExitIntent intent ∧ ¬ isPartialExit intent ∧ isFlattenIntent intent ∧
    let same := (b.workingSameSide intent.symbol intent.side.value).filter fun r =>
      r.idempotencyKey = intent.idempotencyKey
    same.isEmpty ∨ same.any (isStaleFlatten a.now)

def Reaches (cfg : Settings) (a : SubmitAnswers) (intent : ValidatedOrderIntent)
    (decisionId : Option String) (b : OrderBook) : Prop :=
  ∃ passed ∈ b.passExit a intent, (passed.claimRow cfg a intent decisionId).isSome

/-- What is asked of the answer to a submission, or of the order found after a timeout. -/
def ReplyFits (a : SubmitAnswers) (key : String) (b : OrderBook) :
    Except BrokerFault OrderResult → Prop
  | .ok answer => b.BookingFits key answer
  | .error .timeout => ∀ found ∈ a.clientOrder, ∀ remote? ∈ found.toOption, ∀ remote ∈ remote?,
      remote.status.Ends → b.FillOnFile key remote
  | .error _ => True

def AnswerFits (cfg : Settings) (a : SubmitAnswers) (intent : ValidatedOrderIntent)
    (b : OrderBook) : Prop :=
  ∀ req ∈ (requestOf cfg a intent).toOption, ReplyFits a intent.idempotencyKey b (a.submit req)

def SubmitFits (cfg : Settings) (a : SubmitAnswers) (intent : ValidatedOrderIntent)
    (decisionId : Option String) (b : OrderBook) : Prop :=
  (Replaces a intent b → ∀ row ∈ b.workingSameSide intent.symbol intent.side.value,
    CancelFits a.cancels b row) ∧
  (Reaches cfg a intent decisionId b → AnswerFits cfg a intent b)

theorem booked_cancelWorking {side : String} (hb : b.Booked)
    (h : ∀ row ∈ b.workingSameSide symbol side, CancelFits cancels b row) :
    (b.cancelWorkingForSymbol cancels symbol side).Booked ∧
      (b.cancelWorkingForSymbol cancels symbol side).executions = b.executions := by
  constructor
  · refine foldl_booked (fun _ _ => touches_cancelOrder) (nodup_keys_filter b _) hb
      fun row hrow c hc => bookedAt_cancelOrder (hc.bookedAt (hb _)) fun r hr => ?_
    obtain ⟨hmem, _⟩ := List.mem_filter.mp hrow
    have hfind := hc.row.trans (find_of_mem hmem)
    rw [show r = row from Option.some.inj (hr.symm.trans hfind)]
    exact hc.cancelFits (h row hrow)
  · unfold cancelWorkingForSymbol
    generalize b.workingSameSide symbol side = rows
    clear h hb
    induction rows generalizing b with
    | nil => rfl
    | cons row rows ih => exact ih.trans executions_cancelOrder

theorem booked_passExit {passed : OrderBook} (hb : b.Booked)
    (hpass : b.passExit a intent = some passed)
    (h : Replaces a intent b → ∀ row ∈ b.workingSameSide intent.symbol intent.side.value,
      CancelFits a.cancels b row) : passed.Booked ∧ passed.executions = b.executions := by
  unfold passExit at hpass
  dsimp only at hpass
  split at hpass
  · cases hpass
    exact ⟨hb, rfl⟩
  · rename_i hexit
    split at hpass
    · cases hpass
    · rename_i hpartial
      split at hpass
      · rename_i hflatten
        split at hpass
        · cases hpass
        · rename_i hstale
          cases hpass
          refine booked_cancelWorking hb (h ?_)
          unfold Replaces
          simp only [Bool.and_eq_true, Bool.not_eq_true', not_and, Bool.not_eq_false] at *
          refine ⟨hexit, hpartial hflatten.1, hflatten.2, ?_⟩
          by_cases hempty : ((b.workingSameSide intent.symbol intent.side.value).filter fun r =>
              r.idempotencyKey = intent.idempotencyKey).isEmpty = true
          · exact Or.inl hempty
          · exact Or.inr (hstale (Bool.eq_false_of_not_eq_true hempty))
      · cases hpass
        exact ⟨hb, rfl⟩

theorem claimRow_spec {decisionId : Option String} {claimed : OrderBook}
    (hclaim : b.claimRow cfg a intent decisionId = some claimed) :
    Touches intent.idempotencyKey b claimed ∧ claimed.BookedAt intent.idempotencyKey ∧
      claimed.executions = b.executions := by
  unfold claimRow at hclaim
  cases hfind : b.orders.find? intent.idempotencyKey with
  | some row =>
    rw [hfind] at hclaim
    dsimp only at hclaim
    split at hclaim
    · cases hclaim
    · cases hclaim
      have hset : Touches intent.idempotencyKey b
          (b.setOrder intent.idempotencyKey (resubmitted cfg intent) fun _ => rfl) :=
        touches_setOrder
      refine ⟨fun k hk => ⟨(hset k hk).row, Dict.get?_erase_of_ne _ (Ne.symm hk), rfl⟩, ?_, rfl⟩
      show (({ b with handled := Dict.erase b.handled intent.idempotencyKey } : OrderBook).setOrder
        intent.idempotencyKey (resubmitted cfg intent) fun _ => rfl).BookedAt _
      exact bookedAt_setOrder fun _ _ hended => absurd hended pending_not_ended
  | none =>
    rw [hfind] at hclaim
    cases hclaim
    have hfree := KeyedTable.find?_eq_none_iff.mp hfind
    refine ⟨touches_addOrder (pendingOrder cfg intent decisionId a.now), ?_, rfl⟩
    exact bookedAt_addOrder (pendingOrder cfg intent decisionId a.now) hfree
      fun hended => absurd hended pending_not_ended

end

theorem touches_recordAnswer {reply : Except BrokerFault OrderResult} :
    Touches intent.idempotencyKey b (b.recordAnswer a intent reply) := by
  cases reply with
  | ok answer =>
    exact (touches_handle.trans touches_setOrder).trans (touches_addFills orderKey_fillOf)
  | error e =>
    cases e with
    | timeout =>
      show Touches _ b (b.recoverTimeout a intent.idempotencyKey)
      unfold recoverTimeout
      dsimp only
      split
      · exact (touches_setOrder.trans touches_handle).trans touches_setOrder
      · exact touches_setOrder
    | broker message =>
      show Touches _ b (b.setOrder _ (refusedBy message) fun _ => rfl)
      exact touches_setOrder
    | other message => exact Touches.refl

theorem bookedAt_recordAnswer [Casing] {reply : Except BrokerFault OrderResult}
    (hb : b.BookedAt intent.idempotencyKey) (h : ReplyFits a intent.idempotencyKey b reply) :
    (b.recordAnswer a intent reply).BookedAt intent.idempotencyKey := by
  cases reply with
  | ok answer => exact bookedAt_booking (fun _ => rfl) h
  | error e =>
    cases e with
    | timeout =>
      have hunknown : foldStatus "UNKNOWN" ∉ endedStatuses := by
        rw [ended_written (by decide)]
        decide +kernel
      show (b.recoverTimeout a intent.idempotencyKey).BookedAt _
      unfold recoverTimeout
      dsimp only
      split
      · rename_i remote hfound
        exact bookedAt_answer fun _ _ hended =>
          h (.ok (some remote)) hfound (some remote) rfl remote rfl (ended_internal hended)
      · exact bookedAt_setOrder fun _ _ hended => absurd hended hunknown
    | broker message =>
      show (b.setOrder _ (refusedBy message) fun _ => rfl).BookedAt _
      refine bookedAt_setOrder fun _ _ hended => ?_
      rcases ended_state (S := .rejected) hended with h | h <;> cases h
    | other message => exact hb

theorem requestOf_error [Casing] {e : BrokerFault} (h : requestOf cfg a intent = .error e) :
    ∃ message, e = .broker message := by
  unfold requestOf at h
  dsimp only at h
  generalize (if (usesMarketableLimit (orderVenue cfg intent) && !isRestingStop intent.orderType)
    then a.live else none) = live at h
  by_cases hlimit : ((shapedTerms cfg intent live).1 = "limit" ∨
      (shapedTerms cfg intent live).1 = "stop_limit") ∧ (shapedTerms cfg intent live).2.isNone
  · rw [if_pos hlimit] at h
    exact ⟨_, (Except.error.inj h).symm⟩
  · rw [if_neg hlimit] at h
    cases h

theorem booked_submitOne [Casing] {decisionId : Option String} (hb : b.Booked)
    (h : SubmitFits cfg a intent decisionId b) : (b.submitOne cfg a intent decisionId).Booked := by
  unfold submitOne
  cases hpass : b.passExit a intent with
  | none => exact hb
  | some passed =>
    obtain ⟨hpassed, hfills⟩ := booked_passExit hb hpass h.1
    dsimp only
    cases hclaim : passed.claimRow cfg a intent decisionId with
    | none => exact hpassed
    | some claimed =>
      obtain ⟨htouch, hlaw, hfills'⟩ := claimRow_spec hclaim
      have hqty : claimed.bookedQty intent.idempotencyKey = b.bookedQty intent.idempotencyKey := by
        unfold bookedQty
        rw [hfills', hfills]
      have hfits := h.2 ⟨passed, hpass, Option.isSome_iff_exists.mpr ⟨claimed, hclaim⟩⟩
      dsimp only
      unfold sendOrder
      cases hreq : requestOf cfg a intent with
      | error e =>
        obtain ⟨message, rfl⟩ := requestOf_error hreq
        exact (htouch.trans touches_recordAnswer).booked hpassed
          (bookedAt_recordAnswer hlaw trivial)
      | ok req =>
        have hreply : ReplyFits a intent.idempotencyKey (claimed.send req) (a.submit req) := by
          have hreply := hfits req (by rw [hreq]; rfl)
          unfold ReplyFits BookingFits FillOnFile NothingOnFile at hreply ⊢
          rw [show (claimed.send req).bookedQty intent.idempotencyKey = _ from hqty]
          exact hreply
        exact ((htouch.trans touches_send).trans touches_recordAnswer).booked hpassed
          (bookedAt_recordAnswer (b := claimed.send req) hlaw hreply)

/-! ## Submitting an intent -/

/-- What is asked of the submission of an intent: where the broker's order is taken over, or the
    answer ends the order, there is no fill that is not on file. -/
def IntentFits [Casing] (cfg : Settings) (intent : OrderIntent) (key : String)
    (clientOrder : Option OrderResult) (submit : OrderRequest → Except BrokerFault OrderResult)
    (b : OrderBook) : Prop :=
  ¬ b.orders.HasKey key →
    match clientOrder with
    | some remote => remote.status.Ends → b.FillOnFile key remote
    | none => 0 < orderedQty intent →
        ∀ answer ∈ (submit (intentRequest cfg intent key)).toOption,
          answer.status.Ends → b.FillOnFile key answer

theorem booked_submitIntent [Casing] {intent : OrderIntent} {key : String}
    {clientOrder : Option OrderResult} {submit : OrderRequest → Except BrokerFault OrderResult}
    (hb : b.Booked) (h : IntentFits cfg intent key clientOrder submit b) :
    (b.submitIntent cfg now intent key clientOrder submit).Booked := by
  unfold submitIntent
  by_cases hkey : b.orders.HasKey key
  · rw [if_pos hkey]
    exact hb
  · rw [if_neg hkey]
    have hfits := h hkey
    cases clientOrder with
    | some remote =>
      refine (touches_handle.trans (touches_addOrder
        (recoveredOrder intent key remote now))).booked hb ?_
      refine bookedAt_addOrder (b := b.handle key remote)
        (recoveredOrder intent key remote now) hkey fun hended last hlast => ?_
      have hsome : Dict.get? (b.handle key remote).handled key = some remote :=
        Dict.get?_set_self _ _ _
      have hlast' : last ∈ Dict.get? (b.handle key remote).handled key := hlast
      rw [hsome] at hlast'
      cases hlast'
      exact hfits (ended_value hended)
    | none =>
      dsimp only at hfits ⊢
      split
      · exact hb
      · rename_i hqty
        have hadded : Touches key b ((b.addOrder (submittingOrder cfg intent key now)).send
            (intentRequest cfg intent key)) :=
          (touches_addOrder (submittingOrder cfg intent key now)).trans touches_send
        have hfailed : ∀ S : InternalOrderState, S = .unknown ∨ S = .failed →
            foldStatus S.value ∉ endedStatuses := by
          intro S hS hended
          rcases hS with rfl | rfl <;> rcases ended_state hended with h | h <;> cases h
        cases hanswer : submit (intentRequest cfg intent key) with
        | ok answer =>
          rw [hanswer] at hfits
          refine (hadded.trans (touches_handle.trans touches_setOrder)).booked hb ?_
          exact bookedAt_answer fun _ _ hended =>
            hfits (not_le.mp hqty) answer rfl (ended_value hended)
        | error e =>
          cases e with
          | timeout =>
            refine (hadded.trans touches_setOrder).booked hb ?_
            exact bookedAt_setOrder fun _ _ hended =>
              absurd hended (hfailed .unknown (Or.inl rfl))
          | broker message =>
            refine (hadded.trans touches_setOrder).booked hb ?_
            exact bookedAt_setOrder fun _ _ hended =>
              absurd hended (hfailed .failed (Or.inr rfl))
          | other message =>
            refine (hadded.trans touches_setOrder).booked hb ?_
            exact bookedAt_setOrder fun _ _ hended =>
              absurd hended (hfailed .failed (Or.inr rfl))

end Paths

/-! ## Runs -/

inductive OrderOp
  | submit (cfg : Settings) (a : SubmitAnswers) (intent : ValidatedOrderIntent)
      (decisionId : Option String)
  | intent (cfg : Settings) (now : Int) (intent : OrderIntent) (key : String)
      (clientOrder : Option OrderResult)
      (submit : OrderRequest → Except BrokerFault OrderResult)
  | cancel (cancels : String → Except BrokerFault OrderResult) (key : String)
  | sync (orderOf : String → Except BrokerFault OrderResult) (now : Int)
  | poll (remotes : Except BrokerFault (List OrderResult))
      (orderOf : Option (String → Except BrokerFault OrderResult))

variable [Casing]

/-- What a path makes of the book. -/
def step (b : OrderBook) : OrderOp → OrderBook
  | .submit cfg a intent decisionId => b.submitOne cfg a intent decisionId
  | .intent cfg now intent key clientOrder submit =>
    b.submitIntent cfg now intent key clientOrder submit
  | .cancel cancels key => b.cancelOrder cancels key
  | .sync orderOf now => b.syncStatusesFromBroker orderOf now
  | .poll remotes orderOf => b.pollAndApply remotes orderOf

/-- **The condition on the answers of a step.** -/
def Fits (b : OrderBook) : OrderOp → Prop
  | .submit cfg a intent decisionId => SubmitFits cfg a intent decisionId b
  | .intent cfg _ intent key clientOrder submit => IntentFits cfg intent key clientOrder submit b
  | .cancel cancels key => ∀ row ∈ b.orders.find? key, CancelFits cancels b row
  | .sync orderOf _ => ∀ row ∈ b.working, SyncFits orderOf b row
  | .poll remotes orderOf => ∀ known ∈ remotes.toOption, ∀ row ∈ b.working,
      PollFits (byBrokerId known) orderOf b row

theorem booked_step {b : OrderBook} {op : OrderOp} (hb : b.Booked) (h : b.Fits op) :
    (b.step op).Booked := by
  cases op with
  | submit cfg a intent decisionId => exact booked_submitOne hb h
  | intent cfg now intent key clientOrder submit => exact booked_submitIntent hb h
  | cancel cancels key =>
    exact touches_cancelOrder.booked hb (bookedAt_cancelOrder (hb key) h)
  | sync orderOf now => exact booked_sync hb h
  | poll remotes orderOf => exact booked_poll hb h

/-- **The fills of ended orders are on file**, after any steps whose answers bring no fill on a
    path that does not book it. -/
theorem fills_on_file {b : OrderBook} {ops : List OrderOp} (hb : b.Booked)
    (h : StepsMeet step Fits b ops) : (runFrom step b ops).Booked :=
  run_invariant_of_meets (fun _ _ hb hop => booked_step hb hop) hb h

end Law

/-! ## A fill that is lost -/

section Examples

attribute [local instance] asciiCasing

def emptyBook : OrderBook :=
  { orders := KeyedTable.empty, executions := [], events := [], sent := [], handled := [] }

def tenShares : ValidatedOrderIntent :=
  { symbol := "AAPL", side := .buy, quantity := 10, orderType := "market", limitPrice := none,
    stopPrice := some 95, idempotencyKey := "wf:AAPL:buy:SCALE_IN", decisionId := "d1",
    thesis := "thesis", venue := some "US", conId := none, timeInForce := none,
    attribution := none }

def brokerAnswer (status : OrderStatus) (filledQty : ℚ) : OrderResult :=
  { brokerOrderId := "b1", status, submittedAt := 0, filledQty,
    avgFillPrice := if filledQty = 0 then none else some 100, raw := [] }

def submitted (status : OrderStatus) (filledQty : ℚ) : OrderOp :=
  .submit mockSettings
    { now := 0, cancels := fun _ => .error (.broker "unused"), live := none,
      submit := fun _ => .ok (brokerAnswer status filledQty), clientOrder := none }
    tenShares none

def canceledAfter (filledQty : ℚ) : OrderOp :=
  .cancel (fun _ => .ok (brokerAnswer .canceled filledQty)) "wf:AAPL:buy:SCALE_IN"

theorem booked_empty : emptyBook.Booked := by
  intro key row hrow
  exact absurd hrow (by rintro ⟨⟩)

theorem fills_on_file_filled : (runFrom step emptyBook [submitted .filled 10]).Booked := by
  refine fills_on_file booked_empty ⟨⟨fun hreplaces => ?_, fun _ _ _ _ _ => rfl⟩, trivial⟩
  exact absurd hreplaces.1 (by decide +kernel)

/-- **The fill before a cancellation is not on file.** -/
theorem canceled_fill_lost :
    emptyBook.Booked ∧
    (runFrom step emptyBook [submitted .accepted 0, canceledAfter 3]).executions.length = 0 ∧
    ¬ (runFrom step emptyBook [submitted .accepted 0, canceledAfter 3]).Booked := by
  refine ⟨booked_empty, by decide +kernel, fun hbooked => ?_⟩
  have hlaw := hbooked "wf:AAPL:buy:SCALE_IN"
  revert hlaw
  unfold BookedAt FillOnFile
  decide +kernel

end Examples

end OrderBook

end Investor.Execution
