import Investor.Execution.FillsBooked

/-!
# What each path leaves of a row

The paths of the order manager read and write the order book row by row, and each of them leaves
under a key what it makes of the row that was there: `cancelledRow` for `cancel_order`, `syncedRow`
for the status sync, `claimedRow` and then `repliedRow` for a submission. A path that goes over many
rows meets each as it stood at the start, as no other row has its key.

A submission also returns the orders it made (`ordersMade`), which its callers read.
-/

namespace Investor.Execution

open Lib Schema Market Risk

namespace OrderBook

variable {b : OrderBook} {key k : String} {cancels orderOf : String → Except BrokerFault OrderResult}
  {now : Int}

theorem find_setOrder_same {f : Order → Order} (hf : ∀ r, (f r).idempotencyKey = r.idempotencyKey) :
    (b.setOrder key f hf).orders.find? key = (b.orders.find? key).map f := by
  rw [find_setOrder]
  refine Option.map_congr fun r hr => ?_
  rw [if_pos (KeyedTable.find?_eq_some_iff.mp hr).2]

/-! ## Cancelling -/

/-- The row of an order after `cancel_order`; as it was where the broker refuses. -/
def cancelledRow (cancels : String → Except BrokerFault OrderResult) (row : Order) : Order :=
  match row.brokerId? with
  | none => { row with status := OrderStatus.canceled.value }
  | some oid =>
    match cancels oid with
    | .error _ => row
    | .ok answer => { row with status := answer.status.value }

/-- `cancel_order` raises on the row. -/
def cancelFails (cancels : String → Except BrokerFault OrderResult) (row : Order) : Bool :=
  match row.brokerId? with
  | none => false
  | some oid => !(cancels oid).toBool

theorem find_cancelOrder (b : OrderBook) (key k : String) :
    (b.cancelOrder cancels key).orders.find? k =
      (b.orders.find? k).map fun o => if k = key then cancelledRow cancels o else o := by
  by_cases hk : k = key
  · subst hk
    unfold cancelOrder
    cases hfind : b.orders.find? k with
    | none => simp [hfind]
    | some row =>
      simp only [if_pos, Option.map_some]
      unfold cancelledRow
      cases hoid : row.brokerId? with
      | none => simp [find_setOrder_same, hfind]
      | some oid =>
        cases hanswer : cancels oid with
        | error e => simp [hanswer, hfind]
        | ok answer =>
          have hsame : (b.handle k answer).orders.find? k = some row := hfind
          simp [hanswer, find_setOrder_same, hsame]
  · rw [(touches_cancelOrder k hk).row]
    simp [hk]

theorem cancelledRow_eq (cancels : String → Except BrokerFault OrderResult) (row : Order) :
    ∃ status, cancelledRow cancels row = { row with status := status } := by
  unfold cancelledRow
  split
  · exact ⟨_, rfl⟩
  · split
    · exact ⟨row.status, rfl⟩
    · exact ⟨_, rfl⟩

/-! ## Syncing -/

def syncWrite (orderOf : String → Except BrokerFault OrderResult) (oid : Option String)
    (row : Order) : Order :=
  match oid with
  | none => row
  | some oid =>
    match orderOf oid with
    | .error (.broker message) =>
      if hasPart message "order_not_found" then missingRemote message row else row
    | .error _ => row
    | .ok answer => synced answer row

def syncedRow (orderOf : String → Except BrokerFault OrderResult) [Casing] (row : Order) : Order :=
  if row.isWorking then syncWrite orderOf row.brokerId? row else row

theorem find_syncRow (b : OrderBook) (row : Order) (k : String) :
    (b.syncRow orderOf now row).orders.find? k = (b.orders.find? k).map fun o =>
      if k = row.idempotencyKey then syncWrite orderOf row.brokerId? o else o := by
  by_cases hk : k = row.idempotencyKey
  · subst hk
    unfold syncRow syncWrite
    simp only [if_pos]
    cases row.brokerId? with
    | none => simp
    | some oid =>
      dsimp only
      cases horder : orderOf oid with
      | error e =>
        cases e with
        | timeout => simp
        | other message => simp
        | broker message =>
          dsimp only
          split
          · exact find_setOrder_same _
          · simp
      | ok answer =>
        have hchanged : ((b.handle row.idempotencyKey answer).setOrder row.idempotencyKey
            (synced answer) key_synced).orders.find? row.idempotencyKey =
              (b.orders.find? row.idempotencyKey).map (synced answer) := find_setOrder_same _
        dsimp only
        split
        · exact hchanged
        · exact hchanged
  · rw [(touches_syncRow k hk).row]
    simp [hk]

theorem find_sync [Casing] (b : OrderBook) (k : String) :
    (b.syncStatusesFromBroker orderOf now).orders.find? k =
      (b.orders.find? k).map (syncedRow orderOf) := by
  exact @KeyedTable.find?_foldl_filter _ _ _ _ _ OrderBook.orders (syncRow orderOf now)
    (fun row => syncWrite orderOf row.brokerId?) find_syncRow (fun o => o.isWorking) b k

theorem syncWrite_eq (orderOf : String → Except BrokerFault OrderResult) (oid : Option String)
    (row : Order) : ∃ status payload,
      syncWrite orderOf oid row = { row with status := status, rawPayload := payload } := by
  unfold syncWrite
  cases oid with
  | none => exact ⟨row.status, row.rawPayload, rfl⟩
  | some oid =>
    dsimp only
    cases orderOf oid with
    | ok answer =>
      dsimp only
      unfold synced
      split
      · exact ⟨_, _, rfl⟩
      · exact ⟨row.status, row.rawPayload, rfl⟩
    | error e =>
      cases e with
      | broker message =>
        dsimp only
        split
        · exact ⟨_, _, rfl⟩
        · exact ⟨row.status, row.rawPayload, rfl⟩
      | timeout => exact ⟨row.status, row.rawPayload, rfl⟩
      | other message => exact ⟨row.status, row.rawPayload, rfl⟩

/-! ## Submitting -/

section Submission

variable {cfg : Settings} {a : SubmitAnswers} {intent : ValidatedOrderIntent}
  {decisionId : Option String} {claimed : OrderBook}

section

variable [Casing]

def claimedRow (cfg : Settings) (a : SubmitAnswers) (intent : ValidatedOrderIntent)
    (decisionId : Option String) : Option Order → Order
  | some row => resubmitted cfg intent row
  | none => pendingOrder cfg intent decisionId a.now

def KeyFree (b : OrderBook) (key : String) : Prop :=
  ∀ row, b.orders.find? key = some row → foldStatus row.status ∈ DEAD_ORDER_STATUSES

theorem claimRow_of_taken (h : ¬ KeyFree b intent.idempotencyKey) :
    b.claimRow cfg a intent decisionId = none := by
  unfold KeyFree at h
  push Not at h
  obtain ⟨row, hfind, halive⟩ := h
  simp [claimRow, hfind, halive]

theorem find_claimRow (hclaim : b.claimRow cfg a intent decisionId = some claimed) :
    claimed.orders.find? intent.idempotencyKey =
      some (claimedRow cfg a intent decisionId (b.orders.find? intent.idempotencyKey)) := by
  unfold claimRow at hclaim
  cases hfind : b.orders.find? intent.idempotencyKey with
  | some row =>
    rw [hfind] at hclaim
    dsimp only at hclaim
    split at hclaim
    · cases hclaim
    · cases hclaim
      have hset := @find_setOrder_same b intent.idempotencyKey (resubmitted cfg intent) key_resubmitted
      rw [hfind] at hset
      exact hset
  | none =>
    rw [hfind] at hclaim
    cases hclaim
    have hput := KeyedTable.find?_putNew b.orders (pendingOrder cfg intent decisionId a.now)
      intent.idempotencyKey
    have hkey : (pendingOrder cfg intent decisionId a.now).idempotencyKey = intent.idempotencyKey :=
      rfl
    rw [hfind, Option.none_or, if_pos hkey] at hput
    exact hput

theorem claimRow_of_free (h : KeyFree b intent.idempotencyKey) :
    ∃ claimed, b.claimRow cfg a intent decisionId = some claimed := by
  unfold claimRow
  cases hfind : b.orders.find? intent.idempotencyKey with
  | none => exact ⟨_, rfl⟩
  | some row =>
    dsimp only
    rw [if_neg fun halive => halive (h row hfind)]
    exact ⟨_, rfl⟩

/-- The row after a timeout, and after a look at what the broker has under its key. -/
def repliedTimeout (a : SubmitAnswers) (row : Order) : Order :=
  match a.clientOrder with
  | some (.ok (some remote)) => recovered remote (timedOut row)
  | _ => timedOut row

def repliedRow (a : SubmitAnswers) (reply : Except BrokerFault OrderResult) (row : Order) : Order :=
  match reply with
  | .ok result => answered result row
  | .error .timeout => repliedTimeout a row
  | .error (.broker message) => refusedBy message row
  | .error (.other _) => row

/-- `_submit_one` does not handle the answer: it raises. -/
def replyRaises (a : SubmitAnswers) : Except BrokerFault OrderResult → Bool
  | .ok _ => false
  | .error .timeout =>
    match a.clientOrder with
    | some (.error _) => true
    | _ => false
  | .error (.broker _) => false
  | .error (.other _) => true

def replyOf (cfg : Settings) (a : SubmitAnswers) (intent : ValidatedOrderIntent) :
    Except BrokerFault OrderResult :=
  match requestOf cfg a intent with
  | .error e => .error e
  | .ok req => a.submit req

end

theorem find_recordAnswer {reply : Except BrokerFault OrderResult} :
    (b.recordAnswer a intent reply).orders.find? intent.idempotencyKey =
      (b.orders.find? intent.idempotencyKey).map (repliedRow a reply) := by
  cases reply with
  | ok result => exact find_setOrder_same key_answered
  | error e =>
    cases e with
    | timeout =>
      have hout : (b.setOrder intent.idempotencyKey timedOut key_timedOut).orders.find?
          intent.idempotencyKey = (b.orders.find? intent.idempotencyKey).map timedOut :=
        find_setOrder_same key_timedOut
      show (b.recoverTimeout a intent.idempotencyKey).orders.find? intent.idempotencyKey =
        (b.orders.find? intent.idempotencyKey).map (repliedTimeout a)
      unfold recoverTimeout repliedTimeout
      rcases a.clientOrder with _ | (e | (_ | remote))
      · exact hout
      · exact hout
      · exact hout
      · dsimp only
        rw [find_setOrder_same]
        show ((b.setOrder _ timedOut key_timedOut).orders.find? _).map _ = _
        rw [hout, Option.map_map]
        rfl
    | broker message => exact find_setOrder_same key_refusedBy
    | other message =>
      show b.orders.find? _ = (b.orders.find? _).map fun row => row
      rw [Option.map_id']

variable [Casing]

theorem find_sendOrder : (b.sendOrder cfg a intent).orders.find? intent.idempotencyKey =
    (b.orders.find? intent.idempotencyKey).map (repliedRow a (replyOf cfg a intent)) := by
  unfold sendOrder replyOf
  cases requestOf cfg a intent with
  | error e => exact find_recordAnswer
  | ok req => exact find_recordAnswer (b := b.send req)

theorem touches_sendOrder : Touches intent.idempotencyKey b (b.sendOrder cfg a intent) := by
  unfold sendOrder
  cases requestOf cfg a intent with
  | error e => exact touches_recordAnswer
  | ok req => exact touches_send.trans touches_recordAnswer

/-- The orders `submit_validated_intents` returns of a single intent, `none` where the broker's
    answer raises. -/
def ordersMade (cfg : Settings) (a : SubmitAnswers) (intent : ValidatedOrderIntent)
    (decisionId : Option String) (b : OrderBook) : Option (List Order) :=
  match (b.passExit a intent).bind fun passed => passed.claimRow cfg a intent decisionId with
  | none => some []
  | some claimed =>
    if replyRaises a (replyOf cfg a intent) then none
    else some ((claimed.sendOrder cfg a intent).orders.find? intent.idempotencyKey).toList

theorem passExit_of_not_exit (h : isExitIntent intent = false) : b.passExit a intent = some b := by
  simp [passExit, h]

theorem submitOne_of_taken (hexit : isExitIntent intent = false)
    (h : ¬ KeyFree b intent.idempotencyKey) :
    b.submitOne cfg a intent decisionId = b ∧
      b.ordersMade cfg a intent decisionId = some [] := by
  simp [submitOne, ordersMade, passExit_of_not_exit hexit, claimRow_of_taken h]

theorem submitOne_of_free (hexit : isExitIntent intent = false)
    (h : KeyFree b intent.idempotencyKey) :
    (b.submitOne cfg a intent decisionId).orders.find? intent.idempotencyKey =
        some (repliedRow a (replyOf cfg a intent)
          (claimedRow cfg a intent decisionId (b.orders.find? intent.idempotencyKey))) ∧
      b.ordersMade cfg a intent decisionId =
        if replyRaises a (replyOf cfg a intent) then none
        else some [repliedRow a (replyOf cfg a intent)
          (claimedRow cfg a intent decisionId (b.orders.find? intent.idempotencyKey))] := by
  obtain ⟨claimed, hclaim⟩ : ∃ claimed, b.claimRow cfg a intent decisionId = some claimed :=
    claimRow_of_free h
  have hsent : (claimed.sendOrder cfg a intent).orders.find? intent.idempotencyKey = _ :=
    find_sendOrder
  rw [find_claimRow hclaim] at hsent
  constructor
  · simp only [submitOne, passExit_of_not_exit hexit, hclaim]
    exact hsent
  · simp only [ordersMade, passExit_of_not_exit hexit, Option.bind_some, hclaim]
    rw [hsent]
    rfl

theorem find_submitOne_other (hexit : isExitIntent intent = false)
    (hk : k ≠ intent.idempotencyKey) :
    (b.submitOne cfg a intent decisionId).orders.find? k = b.orders.find? k := by
  by_cases hfree : KeyFree b intent.idempotencyKey
  · obtain ⟨claimed, hclaim⟩ : ∃ claimed, b.claimRow cfg a intent decisionId = some claimed :=
      claimRow_of_free hfree
    have htouch : Touches intent.idempotencyKey b (claimed.sendOrder cfg a intent) :=
      (claimRow_spec hclaim).1.trans touches_sendOrder
    simp only [submitOne, passExit_of_not_exit hexit, hclaim]
    exact (htouch k hk).row
  · rw [(submitOne_of_taken hexit hfree).1]

end Submission

end OrderBook

end Investor.Execution
