import Investor.Execution.OrderUpdates

/-!
# The letter case of a status

Internal states are stored in upper case and the broker's in lower case. `_submit_one`,
`cancel_order` and `sync_statuses_from_broker` fold before they compare, or write the same status
whatever the comparison says: on two books that differ in the letter case of statuses only they
do the same (`AlikeBook`). `apply_remote_status` compares the stored text. On a row written in
lower case it finds neither a terminal status nor an internal state, and takes over whatever the
broker says. The two books stay alike as long as each update of a row whose case differs is one
its state allows, and a terminal row is safe as long as it is written in upper case or the update
is terminal too (`CaseFree`).
-/

namespace Investor.Execution

open Lib Schema Market

/-! ## Spellings of a status -/

def terminalStatuses : List String :=
  ["filled", "cancelled", "canceled", "rejected", "expired", "replaced"]

variable {s s' : String}

section Folding

variable [Casing]

structure AlikeStatus (s s' : String) : Prop where
  left : s ∈ writtenStatuses
  right : s' ∈ writtenStatuses
  folds : foldStatus s = foldStatus s'

theorem AlikeStatus.refl (h : s ∈ writtenStatuses) : AlikeStatus s s := ⟨h, h, rfl⟩

theorem AlikeStatus.eq_or (h : AlikeStatus s s') :
    s = s' ∨ (∃ S : InternalOrderState, s = S.value ∧ InternalOrderState.ofValue? s' = none) ∨
      ∃ S : InternalOrderState, s' = S.value ∧ InternalOrderState.ofValue? s = none := by
  have hpairs : ∀ s ∈ writtenStatuses, ∀ s' ∈ writtenStatuses, asciiLower s = asciiLower s' →
      s = s' ∨ (∃ S ∈ InternalOrderState.all, s = S.value ∧
        InternalOrderState.ofValue? s' = none) ∨
      ∃ S ∈ InternalOrderState.all, s' = S.value ∧ InternalOrderState.ofValue? s = none := by
    decide +kernel
  have hfolds := h.folds
  rw [foldStatus_written h.left, foldStatus_written h.right] at hfolds
  rcases hpairs s h.left s' h.right hfolds with heq | ⟨S, _, hS⟩ | ⟨S, _, hS⟩
  · exact Or.inl heq
  · exact Or.inr (Or.inl ⟨S, hS⟩)
  · exact Or.inr (Or.inr ⟨S, hS⟩)

end Folding

/-! ## The update of a status -/

/-- The status that `apply_remote_status` leaves. -/
def appliedStatus (status : String) (mapped : InternalOrderState) : String :=
  match applyOutcome status mapped with
  | .unchanged | .stale => status
  | .reconciliation => InternalOrderState.reconciliationRequired.value
  | .updated => mapped.value

theorem applied_eq (mapped : InternalOrderState) (row : Order) : ∃ payload,
    applied mapped row =
      { row with status := appliedStatus row.status mapped, rawPayload := payload } := by
  unfold applied appliedStatus
  cases applyOutcome row.status mapped with
  | unchanged => exact ⟨row.rawPayload, rfl⟩
  | stale => exact ⟨row.rawPayload, rfl⟩
  | reconciliation => exact ⟨_, rfl⟩
  | updated => exact ⟨row.rawPayload, rfl⟩

variable {mapped : InternalOrderState}

theorem appliedStatus_written {status : String} (h : status ∈ writtenStatuses) :
    appliedStatus status mapped ∈ writtenStatuses := by
  unfold appliedStatus
  cases applyOutcome status mapped with
  | unchanged => exact h
  | stale => exact h
  | reconciliation => exact value_written _
  | updated => exact value_written _

theorem appliedStatus_foreign {status : String} (h : InternalOrderState.ofValue? status = none) :
    appliedStatus status mapped = mapped.value := by
  have hne : ∀ S : InternalOrderState, status ≠ S.value := by
    intro S heq
    rw [heq, ofValue?_value] at h
    cases h
  have hterminal : status ∉ terminalStates.map (·.value) := by
    intro hmem
    obtain ⟨S, _, heq⟩ := List.mem_map.mp hmem
    exact hne S heq.symm
  unfold appliedStatus applyOutcome
  rw [if_neg (hne mapped), if_neg (fun hstale => hterminal hstale.1), h]

variable {S : InternalOrderState}

theorem terminal_final (h : S ∈ terminalStates) : ALLOWED_ORDER_TRANSITIONS S = [] := by
  revert S
  decide

theorem appliedStatus_allowed (h : mapped = S ∨ mapped ∈ ALLOWED_ORDER_TRANSITIONS S) :
    appliedStatus S.value mapped = mapped.value := by
  unfold appliedStatus applyOutcome
  by_cases heq : S = mapped
  · rw [if_pos (congrArg _ heq), heq]
  · have hallowed := h.resolve_left (Ne.symm heq)
    have hopen : S.value ∉ terminalStates.map (·.value) := by
      intro hmem
      obtain ⟨S', hS', hvalue⟩ := List.mem_map.mp hmem
      rw [← InternalOrderState.value_inj hvalue, terminal_final hS'] at hallowed
      exact absurd hallowed List.not_mem_nil
    rw [if_neg (fun hvalue => heq (InternalOrderState.value_inj hvalue)),
      if_neg (fun hstale => hopen hstale.1), ofValue?_value]
    dsimp only
    rw [if_pos hallowed]

theorem appliedStatus_terminal (mapped : InternalOrderState) (h : S ∈ terminalStates) :
    appliedStatus S.value mapped = S.value ∨
      appliedStatus S.value mapped = InternalOrderState.reconciliationRequired.value := by
  unfold appliedStatus applyOutcome
  by_cases heq : S.value = mapped.value
  · rw [if_pos heq]
    exact Or.inl rfl
  · rw [if_neg heq]
    by_cases hstale : S.value ∈ terminalStates.map (·.value) ∧ mapped ∉ terminalStates
    · rw [if_pos hstale]
      exact Or.inl rfl
    · rw [if_neg hstale, ofValue?_value]
      dsimp only
      rw [terminal_final h, if_neg List.not_mem_nil]
      exact Or.inr rfl

section Alike

variable {o o' : Order}

section

variable [Casing]

/-- The state that the text spells may move as the broker says, or is there already. -/
def MovesTo (status : String) (mapped : InternalOrderState) : Prop :=
  ∀ S ∈ InternalOrderState.all, foldStatus S.value = foldStatus status →
    mapped = S ∨ mapped ∈ ALLOWED_ORDER_TRANSITIONS S

theorem AlikeStatus.applied (h : AlikeStatus s s') (hmoves : s ≠ s' → MovesTo s mapped) :
    AlikeStatus (appliedStatus s mapped) (appliedStatus s' mapped) := by
  by_cases heq : s = s'
  · rw [heq]
    exact AlikeStatus.refl (appliedStatus_written h.right)
  · have hsame : appliedStatus s mapped = mapped.value ∧ appliedStatus s' mapped = mapped.value := by
      rcases h.eq_or with hone | ⟨S, rfl, hforeign⟩ | ⟨S, rfl, hforeign⟩
      · exact absurd hone heq
      · exact ⟨appliedStatus_allowed (hmoves heq S S.mem_all rfl), appliedStatus_foreign hforeign⟩
      · exact ⟨appliedStatus_foreign hforeign,
          appliedStatus_allowed (hmoves heq S S.mem_all h.folds.symm)⟩
    rw [hsame.1, hsame.2]
    exact AlikeStatus.refl (value_written mapped)

/-! ## Books that differ in the case of statuses -/

/-- Two rows that differ in the spelling of the status, and in the payload. -/
def AlikeOrder (o o' : Order) : Prop :=
  ∃ status payload, o' = { o with status, rawPayload := payload } ∧ AlikeStatus o.status status

/-- Two books whose rows are alike, with the same executions and the same orders sent. -/
structure AlikeBook (b b' : OrderBook) : Prop where
  orders : b.orders.Related AlikeOrder b'.orders
  executions : b'.executions = b.executions
  sent : b'.sent = b.sent

theorem AlikeOrder.key (o o' : Order) (h : AlikeOrder o o') :
    o'.idempotencyKey = o.idempotencyKey := by
  obtain ⟨s, p, rfl, _⟩ := h
  rfl

theorem AlikeOrder.brokerId?_eq (h : AlikeOrder o o') : o'.brokerId? = o.brokerId? := by
  obtain ⟨_, _, rfl, _⟩ := h
  rfl

theorem AlikeOrder.isWorking (h : AlikeOrder o o') : o'.isWorking = o.isWorking := by
  obtain ⟨s, p, rfl, hs⟩ := h
  have hfolds := hs.folds
  rw [foldStatus_written hs.left, foldStatus_written hs.right] at hfolds
  unfold Order.isWorking
  rw [lower_written hs.left, lower_written hs.right, hfolds]

theorem AlikeOrder.refl (h : o.status ∈ writtenStatuses) : AlikeOrder o o :=
  ⟨o.status, o.rawPayload, rfl, AlikeStatus.refl h⟩

theorem AlikeOrder.set {o o' : Order} (h : AlikeOrder o o') {f f' : Order → Order} {s : String}
    (hs : s ∈ writtenStatuses)
    (hf : ∀ o : Order, (f o).status = s)
    (hff : ∀ (o : Order) status payload, ∃ payload',
      f' { o with status, rawPayload := payload } = { f o with rawPayload := payload' }) :
    AlikeOrder (f o) (f' o') := by
  obtain ⟨status, payload, rfl, _⟩ := h
  obtain ⟨payload', heq⟩ := hff o status payload
  refine ⟨s, payload', ?_, by rw [hf]; exact AlikeStatus.refl hs⟩
  rw [heq, ← hf o]

end

variable {now : Int}

section Books

variable {b b' : OrderBook}

section

variable [Casing]

theorem AlikeBook.find (h : AlikeBook b b') (key : String) :
    Option.Rel AlikeOrder (b.orders.find? key) (b'.orders.find? key) :=
  h.orders.find AlikeOrder.key key

theorem AlikeBook.setOrder {key : String} {f f' : Order → Order}
    {hf : ∀ r, (f r).idempotencyKey = r.idempotencyKey}
    {hf' : ∀ r, (f' r).idempotencyKey = r.idempotencyKey} (h : AlikeBook b b')
    (hff : ∀ o ∈ b.orders.find? key, ∀ o' ∈ b'.orders.find? key,
      AlikeOrder o o' → AlikeOrder (f o) (f' o')) :
    AlikeBook (b.setOrder key f hf) (b'.setOrder key f' hf') :=
  ⟨h.orders.rewrite AlikeOrder.key hff, h.executions, h.sent⟩

theorem AlikeBook.handle (h : AlikeBook b b') (key : String) (answer : OrderResult) :
    AlikeBook (b.handle key answer) (b'.handle key answer) := ⟨h.orders, h.executions, h.sent⟩

theorem AlikeBook.addFills (h : AlikeBook b b') (fills : List Execution) :
    AlikeBook (b.addFills fills) (b'.addFills fills) :=
  ⟨h.orders, congrArg (· ++ fills) h.executions, h.sent⟩

theorem AlikeBook.send (h : AlikeBook b b') (req : OrderRequest) :
    AlikeBook (b.send req) (b'.send req) := ⟨h.orders, h.executions, congrArg (· ++ [req]) h.sent⟩

theorem AlikeBook.addOrder (h : AlikeBook b b') {row : Order} (hrow : row.status ∈ writtenStatuses) :
    AlikeBook (b.addOrder row) (b'.addOrder row) :=
  ⟨h.orders.insert AlikeOrder.key (AlikeOrder.refl hrow), h.executions, h.sent⟩

theorem AlikeBook.filter (h : AlikeBook b b') {p : Order → Bool}
    (hp : ∀ o o', AlikeOrder o o' → p o' = p o) :
    List.Forall₂ (fun o o' => AlikeOrder o o' ∧ p o) (b.orders.rows.filter p)
      (b'.orders.rows.filter p) := by
  have hrows := List.rel_filter (R := AlikeOrder) (p := p) (q := p)
    (fun o o' ho => by show p o = true ↔ p o' = true; rw [hp o o' ho]) h.orders
  exact (Lib.forall₂_mem hrows).imp fun o o' ho => ⟨ho.1, (List.mem_filter.mp ho.2.1).2⟩

/-! ## The paths that do not mind the case -/

theorem AlikeOrder.setStatus (h : AlikeOrder o o') (hs : s ∈ writtenStatuses) :
    AlikeOrder { o with status := s } { o' with status := s } :=
  @AlikeOrder.set _ o o' h (fun r => { r with status := s }) (fun r => { r with status := s }) s hs
    (fun _ => rfl) fun _ _ payload => ⟨payload, rfl⟩

theorem AlikeBook.cancelOrder (h : AlikeBook b b')
    (cancels : String → Except BrokerFault OrderResult) (key : String) :
    AlikeBook (b.cancelOrder cancels key) (b'.cancelOrder cancels key) := by
  unfold OrderBook.cancelOrder
  have hfind := h.find key
  generalize b.orders.find? key = found at hfind ⊢
  generalize b'.orders.find? key = found' at hfind ⊢
  cases hfind with
  | none => exact h
  | @some o o' ho =>
    dsimp only
    rw [ho.brokerId?_eq]
    cases o.brokerId? with
    | none => exact h.setOrder fun o _ o' _ ho => ho.setStatus (value_written_broker _)
    | some oid =>
      dsimp only
      cases cancels oid with
      | error e => exact h
      | ok answer =>
        exact (h.handle key answer).setOrder fun o _ o' _ ho => ho.setStatus (value_written_broker _)

theorem working_ne_filled (h : o.isWorking) : o.status ≠ InternalOrderState.filled.value := by
  intro heq
  unfold Order.isWorking at h
  rw [heq, lower_written (value_written _)] at h
  revert h
  decide +kernel

end

theorem fillOf_eq_nil {key symbol : String} {qty : ℚ} {answer : OrderResult}
    (h : answer.status ≠ .filled) : fillOf key symbol qty now answer = [] := by
  unfold fillOf
  cases hstatus : answer.status with
  | filled => exact absurd hstatus h
  | _ => rfl

theorem addFills_nil (b : OrderBook) : b.addFills [] = b := by
  unfold OrderBook.addFills
  rw [List.append_nil]

section

variable [Casing]

theorem AlikeOrder.synced (h : AlikeOrder o o') (answer : OrderResult) :
    AlikeOrder (synced answer o) (synced answer o') := by
  have hpayload : ∀ r : Order, ∃ p, Execution.synced answer r =
      { r with status := (internalStatus answer.status).value, rawPayload := p } := by
    intro r
    unfold Execution.synced
    split
    · exact ⟨_, rfl⟩
    · rename_i heq
      exact ⟨r.rawPayload, by rw [← not_not.mp heq]⟩
  obtain ⟨status, payload, rfl, _⟩ := h
  obtain ⟨p, hp⟩ := hpayload o
  obtain ⟨p', hp'⟩ := hpayload { o with status, rawPayload := payload }
  rw [hp, hp']
  exact ⟨_, p', rfl, AlikeStatus.refl (value_written _)⟩

theorem AlikeBook.syncRow (h : AlikeBook b b') (orderOf : String → Except BrokerFault OrderResult)
    (now : Int) (ho : AlikeOrder o o') (hworking : o.isWorking) :
    AlikeBook (b.syncRow orderOf now o) (b'.syncRow orderOf now o') := by
  have hworking' : o'.isWorking := ho.isWorking.trans hworking
  have hid := ho.brokerId?_eq
  obtain ⟨status, payload, rfl, _⟩ := ho
  unfold OrderBook.syncRow
  rw [hid]
  cases o.brokerId? with
  | none => exact h
  | some oid =>
    dsimp only
    cases orderOf oid with
    | error e =>
      cases e with
      | timeout => exact h
      | other message => exact h
      | broker message =>
        dsimp only
        split
        · exact h.setOrder fun o _ o' _ ho => ho.set (value_written .cancelled) (fun _ => rfl)
            fun _ _ _ => ⟨_, rfl⟩
        · exact h
    | ok answer =>
      have hchanged : AlikeBook
          ((b.handle o.idempotencyKey answer).setOrder o.idempotencyKey (synced answer) key_synced)
          ((b'.handle o.idempotencyKey answer).setOrder o.idempotencyKey (synced answer)
            key_synced) :=
        (h.handle o.idempotencyKey answer).setOrder fun _ _ _ _ ho => ho.synced answer
      dsimp only
      by_cases hfilled : answer.status = .filled
      · have hstatus : (internalStatus answer.status).value =
            InternalOrderState.filled.value := by
          rw [hfilled]
          rfl
        rw [if_pos (fun heq => working_ne_filled hworking (heq.trans hstatus)),
          if_pos (fun heq => working_ne_filled hworking' (heq.trans hstatus))]
        exact hchanged.addFills _
      · rw [fillOf_eq_nil hfilled, addFills_nil, addFills_nil, ite_self, ite_self]
        exact hchanged

theorem AlikeBook.sync (h : AlikeBook b b') (orderOf : String → Except BrokerFault OrderResult)
    (now : Int) :
    AlikeBook (b.syncStatusesFromBroker orderOf now) (b'.syncStatusesFromBroker orderOf now) :=
  List.rel_foldl (P := AlikeBook) (R := fun o o' => AlikeOrder o o' ∧ o.isWorking)
    (fun _ _ hb _ _ ho => AlikeBook.syncRow hb orderOf now ho.1 ho.2) h
    (h.filter fun _ _ ho => ho.isWorking)

/-! ## Submitting -/

theorem AlikeBook.workingSameSide (h : AlikeBook b b') (symbol side : String) :
    List.Forall₂ AlikeOrder (b.workingSameSide symbol side) (b'.workingSameSide symbol side) := by
  refine (h.filter (p := fun o => decide (o.symbol = Casing.upper symbol ∧
    o.side = Casing.lower side ∧ o.isWorking)) fun o o' ho => ?_).imp fun _ _ ho => ho.1
  rw [ho.isWorking]
  obtain ⟨status, payload, rfl, _⟩ := ho
  rfl

theorem forall₂_isEmpty {xs ys : List Order} (h : List.Forall₂ AlikeOrder xs ys) :
    ys.isEmpty = xs.isEmpty := by
  cases h <;> rfl

theorem forall₂_stale {xs ys : List Order} (h : List.Forall₂ AlikeOrder xs ys) :
    ys.any (isStaleFlatten now) = xs.any (isStaleFlatten now) := by
  induction h with
  | nil => rfl
  | cons ho _ ih =>
    obtain ⟨status, payload, rfl, _⟩ := ho
    rw [List.any_cons, List.any_cons, ih]
    rfl

theorem AlikeBook.cancelWorking (h : AlikeBook b b')
    (cancels : String → Except BrokerFault OrderResult) (symbol side : String) :
    AlikeBook (b.cancelWorkingForSymbol cancels symbol side)
      (b'.cancelWorkingForSymbol cancels symbol side) :=
  List.rel_foldl (P := AlikeBook) (R := AlikeOrder)
    (fun _ _ hb o o' ho => by
      rw [AlikeOrder.key o o' ho]
      exact AlikeBook.cancelOrder hb cancels _) h
    (h.workingSameSide symbol side)

theorem AlikeBook.passExit (h : AlikeBook b b') (a : OrderBook.SubmitAnswers)
    (intent : ValidatedOrderIntent) :
    Option.Rel AlikeBook (b.passExit a intent) (b'.passExit a intent) := by
  have hworking := h.workingSameSide intent.symbol intent.side.value
  have hsame : List.Forall₂ AlikeOrder
      ((b.workingSameSide intent.symbol intent.side.value).filter fun r =>
        r.idempotencyKey = intent.idempotencyKey)
      ((b'.workingSameSide intent.symbol intent.side.value).filter fun r =>
        r.idempotencyKey = intent.idempotencyKey) :=
    List.rel_filter (fun o o' ho => by
      show decide _ = true ↔ decide _ = true
      rw [AlikeOrder.key o o' ho]) hworking
  unfold OrderBook.passExit
  dsimp only
  rw [forall₂_isEmpty hworking, forall₂_isEmpty hsame, forall₂_stale hsame]
  split
  · exact Option.Rel.some h
  · split
    · exact Option.Rel.none
    · split
      · split
        · exact Option.Rel.none
        · exact Option.Rel.some (h.cancelWorking a.cancels _ _)
      · exact Option.Rel.some h

theorem AlikeBook.claimRow (h : AlikeBook b b') (cfg : Settings) (a : OrderBook.SubmitAnswers)
    (intent : ValidatedOrderIntent) (decisionId : Option String) :
    Option.Rel AlikeBook (b.claimRow cfg a intent decisionId)
      (b'.claimRow cfg a intent decisionId) := by
  have hpending : "pending_submit" ∈ writtenStatuses := by decide
  have hfind := h.find intent.idempotencyKey
  have hclaimed : AlikeBook
      (b.setOrder intent.idempotencyKey (resubmitted cfg intent) fun _ => rfl)
      (b'.setOrder intent.idempotencyKey (resubmitted cfg intent) fun _ => rfl) :=
    h.setOrder fun o _ o' _ ho => ho.set hpending (fun _ => rfl) fun _ _ _ => ⟨_, rfl⟩
  unfold OrderBook.claimRow
  generalize b.orders.find? intent.idempotencyKey = found at hfind ⊢
  generalize b'.orders.find? intent.idempotencyKey = found' at hfind ⊢
  cases hfind with
  | none => exact Option.Rel.some (h.addOrder hpending)
  | @some o o' ho =>
    obtain ⟨status, payload, rfl, hstatus⟩ := ho
    dsimp only
    rw [hstatus.folds]
    split
    · exact Option.Rel.none
    · exact Option.Rel.some ⟨hclaimed.orders, hclaimed.executions, hclaimed.sent⟩

theorem AlikeBook.recordAnswer (h : AlikeBook b b') (a : OrderBook.SubmitAnswers)
    (intent : ValidatedOrderIntent) (answer : Except BrokerFault OrderResult) :
    AlikeBook (b.recordAnswer a intent answer) (b'.recordAnswer a intent answer) := by
  cases answer with
  | ok result =>
    unfold OrderBook.recordAnswer
    refine AlikeBook.addFills ?_ _
    exact (h.handle _ result).setOrder fun o _ o' _ ho =>
      ho.set (value_written (internalStatus result.status)) (fun _ => rfl) fun _ _ _ => ⟨_, rfl⟩
  | error e =>
    cases e with
    | timeout =>
      have htimed : AlikeBook (b.setOrder intent.idempotencyKey timedOut fun _ => rfl)
          (b'.setOrder intent.idempotencyKey timedOut fun _ => rfl) :=
        h.setOrder fun o _ o' _ ho =>
          ho.set (value_written .unknown) (fun _ => rfl) fun _ _ _ => ⟨_, rfl⟩
      show AlikeBook (b.recoverTimeout a _) (b'.recoverTimeout a _)
      unfold OrderBook.recoverTimeout
      dsimp only
      split
      · rename_i remote _
        exact (htimed.handle _ remote).setOrder fun o _ o' _ ho =>
          @AlikeOrder.set _ o o' ho (recovered remote) (recovered remote) _
            (value_written (internalStatus remote.status)) (fun _ => rfl)
            fun _ _ payload => ⟨payload, rfl⟩
      · exact htimed
    | broker message =>
      show AlikeBook (b.setOrder _ (refusedBy message) fun _ => rfl)
        (b'.setOrder _ (refusedBy message) fun _ => rfl)
      exact h.setOrder fun o _ o' _ ho =>
        ho.set (value_written .rejected) (fun _ => rfl) fun _ _ _ => ⟨_, rfl⟩
    | other message => exact h

theorem AlikeBook.submitOne (h : AlikeBook b b') (cfg : Settings) (a : OrderBook.SubmitAnswers)
    (intent : ValidatedOrderIntent) (decisionId : Option String) :
    AlikeBook (b.submitOne cfg a intent decisionId) (b'.submitOne cfg a intent decisionId) := by
  have hpass := h.passExit a intent
  unfold OrderBook.submitOne
  generalize b.passExit a intent = passed at hpass ⊢
  generalize b'.passExit a intent = passed' at hpass ⊢
  cases hpass with
  | none => exact h
  | @some p p' hp =>
    have hclaim := hp.claimRow cfg a intent decisionId
    dsimp only
    generalize p.claimRow cfg a intent decisionId = claimed at hclaim ⊢
    generalize p'.claimRow cfg a intent decisionId = claimed' at hclaim ⊢
    cases hclaim with
    | none => exact hp
    | some hc =>
      dsimp only
      unfold OrderBook.sendOrder
      cases OrderBook.requestOf cfg a intent with
      | error e => exact hc.recordAnswer a intent _
      | ok req => exact (hc.send req).recordAnswer a intent _

theorem AlikeOrder.applied (h : AlikeOrder o o')
    (hmoves : o.status ≠ o'.status → MovesTo o.status mapped) :
    AlikeOrder (applied mapped o) (applied mapped o') := by
  obtain ⟨status, payload, rfl, hs⟩ := h
  obtain ⟨p, hp⟩ := applied_eq mapped o
  obtain ⟨p', hp'⟩ := applied_eq mapped { o with status, rawPayload := payload }
  rw [hp, hp']
  exact ⟨_, p', rfl, hs.applied hmoves⟩

theorem AlikeBook.applyRemoteStatus (h : AlikeBook b b') {key rawStatus : String}
    (remote : OrderResult)
    (hmoves : ∀ o ∈ b.orders.find? key, ∀ o' ∈ b'.orders.find? key,
      o.status ≠ o'.status → MovesTo o.status (OrderBook.mappedState rawStatus)) :
    AlikeBook (b.applyRemoteStatus key rawStatus remote)
      (b'.applyRemoteStatus key rawStatus remote) := by
  have hwritten : AlikeBook
      ((b.handle key remote).setOrder key (applied (OrderBook.mappedState rawStatus)) key_applied)
      ((b'.handle key remote).setOrder key (applied (OrderBook.mappedState rawStatus))
        key_applied) :=
    (h.handle key remote).setOrder fun o ho o' ho' hoo =>
      hoo.applied fun hne => hmoves o ho o' ho' hne
  have hfind := h.find key
  unfold OrderBook.applyRemoteStatus
  generalize b.orders.find? key = found at hfind ⊢
  generalize b'.orders.find? key = found' at hfind ⊢
  cases hfind with
  | none => exact h
  | some _ => exact ⟨hwritten.orders, hwritten.executions, hwritten.sent⟩

end

end Books

/-! ## Terminal rows -/

section

variable [Casing]

/-- A terminal row is safe from an update where it is written in upper case, or the update is
    not to a working state. -/
def StaysEnded (status : String) (mapped : InternalOrderState) : Prop :=
  foldStatus status ∈ terminalStatuses →
    status ∈ terminalStates.map (·.value) ∨
      Casing.lower mapped.value ∉ WORKING_ORDER_STATUSES

theorem terminal_not_working (h : foldStatus s ∈ terminalStatuses) (hs : s ∈ writtenStatuses) :
    Casing.lower s ∉ WORKING_ORDER_STATUSES := by
  rw [foldStatus_written hs] at h
  rw [lower_written hs]
  revert h
  generalize asciiLower s = folded
  revert folded
  decide

theorem lower_state (S : InternalOrderState) : Casing.lower S.value = asciiLower S.value :=
  lower_written (value_written S)

theorem appliedStatus_not_working (hs : s ∈ writtenStatuses)
    (hterminal : foldStatus s ∈ terminalStatuses) (h : StaysEnded s mapped) :
    Casing.lower (appliedStatus s mapped) ∉ WORKING_ORDER_STATUSES := by
  have hstays := terminal_not_working hterminal hs
  have hrecon : Casing.lower InternalOrderState.reconciliationRequired.value ∉
      WORKING_ORDER_STATUSES := by
    rw [lower_state]
    decide +kernel
  rcases h hterminal with hupper | hopen
  · obtain ⟨S, hS, rfl⟩ := List.mem_map.mp hupper
    rcases appliedStatus_terminal mapped hS with hkept | hmoved
    · rw [hkept]
      exact hstays
    · rw [hmoved]
      exact hrecon
  · unfold appliedStatus
    cases applyOutcome s mapped with
    | unchanged => exact hstays
    | stale => exact hstays
    | reconciliation => exact hrecon
    | updated => exact hopen

def WrittenBook (b : OrderBook) : Prop := ∀ row ∈ b.orders.rows, row.status ∈ writtenStatuses

/-- No row that was terminal in `b` is working in `b'`. -/
def KeepsEnded (b b' : OrderBook) : Prop :=
  ∀ row ∈ b.orders.rows, foldStatus row.status ∈ terminalStatuses →
    ∀ row' ∈ b'.orders.find? row.idempotencyKey, ¬ row'.isWorking

theorem AlikeBook.written {b b' : OrderBook} (h : AlikeBook b b') :
    WrittenBook b ∧ WrittenBook b' := by
  have hleft := (List.forall₂_and_left (p := fun o : Order => o.status ∈ writtenStatuses) _ _).mp
    (h.orders.imp fun o o' ho => ⟨by obtain ⟨_, _, _, hs⟩ := ho; exact hs.left, ho⟩)
  have hright := (List.forall₂_and_left (p := fun o : Order => o.status ∈ writtenStatuses) _ _).mp
    (h.orders.flip.imp fun o' o ho =>
      ⟨by obtain ⟨_, _, rfl, hs⟩ := ho; exact hs.right, ho⟩)
  exact ⟨hleft.1, hright.1⟩

theorem KeepsEnded.apply {b : OrderBook} (hb : WrittenBook b) {key rawStatus : String}
    {remote : OrderResult}
    (hsafe : ∀ o ∈ b.orders.find? key, StaysEnded o.status (OrderBook.mappedState rawStatus)) :
    KeepsEnded b (b.applyRemoteStatus key rawStatus remote) := by
  intro row hrow hterminal row' hrow'
  have hfind := KeyedTable.find?_eq_some_iff.mpr ⟨hrow, rfl⟩
  have hkept : ¬ row.isWorking := by
    unfold Order.isWorking
    rw [List.contains_iff_mem]
    exact terminal_not_working hterminal (hb row hrow)
  unfold OrderBook.applyRemoteStatus at hrow'
  cases hkey : b.orders.find? key with
  | none =>
    rw [hkey] at hrow'
    rw [show row' = row from Option.some.inj (hrow'.symm.trans hfind)]
    exact hkept
  | some o =>
    rw [hkey] at hrow'
    have hwritten : row' ∈ ((b.handle key remote).setOrder key
        (applied (OrderBook.mappedState rawStatus)) key_applied).orders.find?
          row.idempotencyKey := hrow'
    rw [OrderBook.find_setOrder, show (b.handle key remote).orders = b.orders from rfl, hfind,
      Option.map_some] at hwritten
    cases hwritten
    split
    · rename_i heq
      rw [heq] at hfind
      obtain ⟨payload, happlied⟩ := applied_eq (OrderBook.mappedState rawStatus) row
      unfold Order.isWorking
      rw [happlied, List.contains_iff_mem]
      exact appliedStatus_not_working (hb row hrow) hterminal (hsafe row hfind)
    · exact hkept

end

theorem find_syncRow_other {b : OrderBook} {orderOf : String → Except BrokerFault OrderResult}
    {k : String} (h : k ≠ o.idempotencyKey) :
    (b.syncRow orderOf now o).orders.find? k = b.orders.find? k := by
  unfold OrderBook.syncRow
  cases o.brokerId? with
  | none => rfl
  | some oid =>
    dsimp only
    cases orderOf oid with
    | error e =>
      cases e with
      | timeout => rfl
      | other message => rfl
      | broker message =>
        dsimp only
        split
        · exact OrderBook.find_setOrder_other h
        · rfl
    | ok answer =>
      have hchanged : ((b.handle o.idempotencyKey answer).setOrder o.idempotencyKey
          (synced answer) key_synced).orders.find? k = b.orders.find? k :=
        OrderBook.find_setOrder_other h
      dsimp only
      split
      · exact hchanged
      · exact hchanged

variable [Casing]

theorem KeepsEnded.sync {b : OrderBook} (hb : WrittenBook b)
    {orderOf : String → Except BrokerFault OrderResult} :
    KeepsEnded b (b.syncStatusesFromBroker orderOf now) := by
  intro row hrow hterminal row' hrow'
  have hkept : ¬ row.isWorking := by
    unfold Order.isWorking
    rw [List.contains_iff_mem]
    exact terminal_not_working hterminal (hb row hrow)
  have hother : ∀ (rows : List Order) (c : OrderBook),
      (∀ o ∈ rows, row.idempotencyKey ≠ o.idempotencyKey) →
      (rows.foldl (OrderBook.syncRow orderOf now) c).orders.find? row.idempotencyKey =
        c.orders.find? row.idempotencyKey := by
    intro rows
    induction rows with
    | nil => intro c _; rfl
    | cons o rows ih =>
      intro c hrows
      rw [List.foldl_cons, ih _ fun o' ho' => hrows o' (List.mem_cons_of_mem _ ho')]
      exact find_syncRow_other (hrows o (List.mem_cons_self ..))
  have hsame := hother b.working b fun o ho heq => by
    obtain ⟨homem, howorking⟩ := List.mem_filter.mp ho
    rw [KeyedTable.eq_of_key_eq hrow homem heq] at hkept
    exact hkept howorking
  have hfind := KeyedTable.find?_eq_some_iff.mpr ⟨hrow, rfl⟩
  rw [show row' = row from Option.some.inj (hrow'.symm.trans (hsame.trans hfind))]
  exact hkept

/-! ## Runs -/

/-- The four writers of a status, with what they are given and answered. -/
inductive StatusOp
  | submit (cfg : Settings) (a : OrderBook.SubmitAnswers) (intent : ValidatedOrderIntent)
      (decisionId : Option String)
  | cancel (cancels : String → Except BrokerFault OrderResult) (key : String)
  | sync (orderOf : String → Except BrokerFault OrderResult) (now : Int)
  | apply (key rawStatus : String) (remote : OrderResult)

def OrderBook.write (b : OrderBook) : StatusOp → OrderBook
  | .submit cfg a intent decisionId => b.submitOne cfg a intent decisionId
  | .cancel cancels key => b.cancelOrder cancels key
  | .sync orderOf now => b.syncStatusesFromBroker orderOf now
  | .apply key rawStatus remote => b.applyRemoteStatus key rawStatus remote

def pairWrite (p : OrderBook × OrderBook) (op : StatusOp) : OrderBook × OrderBook :=
  (p.1.write op, p.2.write op)

/-- The broker's news of an order leave a terminal row terminal: those that are polled and those
    that are synced. -/
def EndsStay (b : OrderBook) : StatusOp → Prop
  | .sync orderOf now => KeepsEnded b (b.write (.sync orderOf now))
  | .apply key rawStatus remote => KeepsEnded b (b.write (.apply key rawStatus remote))
  | _ => True

/-- **The condition on an update.** If the two copies of its row are in different spellings, the
    state they spell may move to the mapped one. If a copy is terminal, it is in upper case or the
    mapped state is not a working one. -/
def CaseFree (p : OrderBook × OrderBook) : StatusOp → Prop
  | .apply key rawStatus _ =>
    (∀ row ∈ p.1.orders.find? key, ∀ row' ∈ p.2.orders.find? key, row.status ≠ row'.status →
      MovesTo row.status (OrderBook.mappedState rawStatus)) ∧
    (∀ row ∈ p.1.orders.find? key,
      StaysEnded row.status (OrderBook.mappedState rawStatus)) ∧
    ∀ row ∈ p.2.orders.find? key, StaysEnded row.status (OrderBook.mappedState rawStatus)
  | _ => True

theorem AlikeBook.write {p : OrderBook × OrderBook} (h : AlikeBook p.1 p.2) {op : StatusOp}
    (hfree : CaseFree p op) :
    AlikeBook (pairWrite p op).1 (pairWrite p op).2 ∧ EndsStay p.1 op ∧ EndsStay p.2 op := by
  obtain ⟨hleft, hright⟩ := h.written
  cases op with
  | submit cfg a intent decisionId => exact ⟨h.submitOne cfg a intent decisionId, trivial, trivial⟩
  | cancel cancels key => exact ⟨h.cancelOrder cancels key, trivial, trivial⟩
  | sync orderOf now =>
    exact ⟨h.sync orderOf now, KeepsEnded.sync hleft, KeepsEnded.sync hright⟩
  | apply key rawStatus remote =>
    obtain ⟨hmoves, hsafe, hsafe'⟩ := hfree
    exact ⟨h.applyRemoteStatus remote hmoves, KeepsEnded.apply hleft hsafe,
      KeepsEnded.apply hright hsafe'⟩

/-- **The letter case does not show.** Two copies of a book that differ in the case of statuses go
    through the same writers: they stay alike, with the same executions and the same orders sent,
    and no news of the broker make a terminal row working, as long as each update meets the
    condition. -/
theorem casing_blind {b b' : OrderBook} {ops : List StatusOp} (h : AlikeBook b b')
    (hfree : StepsMeet pairWrite CaseFree (b, b') ops) :
    AlikeBook (runFrom pairWrite (b, b') ops).1 (runFrom pairWrite (b, b') ops).2 ∧
      StepsMeet pairWrite (fun p op => EndsStay p.1 op ∧ EndsStay p.2 op) (b, b') ops := by
  have keeps : ∀ (p : OrderBook × OrderBook) (op : StatusOp), AlikeBook p.1 p.2 →
      CaseFree p op → AlikeBook (pairWrite p op).1 (pairWrite p op).2 ∧
        (EndsStay p.1 op ∧ EndsStay p.2 op) := fun p op hp hop => AlikeBook.write hp hop
  exact ⟨run_invariant_of_meets (fun p op hp hop => (keeps p op hp hop).1) h hfree,
    StepsMeet.gives keeps h hfree⟩

end Alike

/-! ## A filled order that is working again -/

section Examples

attribute [local instance] asciiCasing

/-- An order to buy 10 of AAPL, under the broker's id `b1`. -/
def orderIn (status : String) : Order :=
  { brokerOrderId := some "b1", idempotencyKey := "k", symbol := "AAPL", side := "buy", qty := 10,
    orderType := "market", limitPrice := none, stopPrice := none, status, decisionId := none,
    submittedAt := some 0, rawPayload := [], createdAt := 0 }

def bookIn (status : String) : OrderBook :=
  { orders := ⟨[orderIn status], List.nodup_singleton _⟩, executions := [], events := [], sent := [],
    handled := [] }

def newsOf (status : OrderStatus) (filledQty : ℚ) (avgFillPrice : Option ℚ) : OrderResult :=
  { brokerOrderId := "b1", status, filledQty, avgFillPrice, submittedAt := 1, raw := [] }

def filledNews : StatusOp := .apply "k" "filled" (newsOf .filled 10 (some 100))

def staleNews : StatusOp := .apply "k" "new" (newsOf .new 0 none)

theorem alike_spellings (h : AlikeStatus s s') : AlikeBook (bookIn s) (bookIn s') :=
  ⟨List.Forall₂.cons ⟨s', [], rfl, h⟩ List.Forall₂.nil, rfl, rfl⟩

theorem alike_filled : AlikeBook (bookIn "FILLED") (bookIn "filled") :=
  alike_spellings ⟨by decide, by decide, by decide +kernel⟩

theorem casing_blind_filled :
    AlikeBook (runFrom pairWrite (bookIn "FILLED", bookIn "filled") [filledNews]).1
        (runFrom pairWrite (bookIn "FILLED", bookIn "filled") [filledNews]).2 ∧
      StepsMeet pairWrite (fun p op => EndsStay p.1 op ∧ EndsStay p.2 op)
        (bookIn "FILLED", bookIn "filled") [filledNews] := by
  refine casing_blind alike_filled ⟨⟨?_, ?_, ?_⟩, trivial⟩
  · unfold MovesTo
    decide +kernel
  · unfold StaysEnded
    decide +kernel
  · unfold StaysEnded
    decide +kernel

/-- **A stale update tells the spellings apart**: the row in upper case stays filled, the one in
    lower case is working again. -/
theorem stale_update_reopens :
    AlikeBook (bookIn "FILLED") (bookIn "filled") ∧
    ((bookIn "FILLED").write staleNews).orders.rows.map (foldStatus ·.status) = ["filled"] ∧
    ((bookIn "filled").write staleNews).orders.rows.map (foldStatus ·.status) = ["accepted"] ∧
    ((bookIn "filled").write staleNews).orders.rows.all (·.isWorking) := by
  refine ⟨alike_filled, ?_⟩
  decide +kernel

end Examples

end Investor.Execution
