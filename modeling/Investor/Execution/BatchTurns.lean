import Investor.Execution.RowUpdates

/-!
# The turns of a batch

`submit_validated_intents` takes the intents of a batch one after another; what one turn leaves in
the order book is what the next one meets. A turn may touch any order: an exit first cancels the
working orders of its symbol and side (`passedRow`), under whatever keys they are, and only then
goes on with the row of its own key.

So a row of a key is left by a whole batch as the last turn that made an order under the key left
it, if none cancelled it after that (`standsFor_iff`).
-/

namespace Investor.Execution

open Lib Schema Market Risk OrderBook

section Batches

def Order.stands [Casing] (o : Order) : Bool := o.isWorking || decide (Casing.lower o.status = "filled")

/-! ## The loop -/

structure Batch where
  orders : OrderBook
  /-- The orders that were made, each as it was returned. -/
  made : List Order
  /-- An exception ended the loop. -/
  raised : Bool

abbrev BatchTurn := SubmitAnswers × ValidatedOrderIntent

def submitTurn [Casing] (cfg : Settings) (s : Batch) (turn : BatchTurn) : Batch :=
  if s.raised then s
  else
    let orders := s.orders.submitOne cfg turn.1 turn.2 none
    match s.orders.ordersMade cfg turn.1 turn.2 none with
    | none => { s with orders, raised := true }
    | some made => { orders, made := s.made ++ made, raised := false }

/-- The loop of `submit_validated_intents`. -/
def submitBatch [Casing] (cfg : Settings) (b : OrderBook) (turns : List BatchTurn) : Batch :=
  runFrom (submitTurn cfg) ⟨b, [], false⟩ turns

def batchSteps [Casing] (cfg : Settings) (b : OrderBook) (turns : List BatchTurn) :
    List (Batch × BatchTurn) :=
  stepsOf (submitTurn cfg) ⟨b, [], false⟩ turns

/-- The submission goes as far as the broker, and its answer is not handled. -/
def TurnRaises [Casing] (cfg : Settings) (s : Batch) (turn : BatchTurn) : Prop :=
  s.orders.Reaches cfg turn.1 turn.2 none ∧
    OrderBook.replyRaises turn.1 (OrderBook.replyOf cfg turn.1 turn.2) = true

namespace OrderBook

variable {cfg : Settings} {a : SubmitAnswers} {intent : ValidatedOrderIntent}
  {decisionId : Option String} {b passed : OrderBook} {k : String} {row : Order}

/-! ## The exit checks -/

section

variable [Casing]

/-- A full exit cancels the order, if it gets past the exit checks. -/
def displaces (intent : ValidatedOrderIntent) (row : Order) : Bool :=
  isFlattenIntent intent && decide (row.symbol = Casing.upper intent.symbol ∧
    row.side = Casing.lower intent.side.value ∧ row.isWorking)

def passedRow (a : SubmitAnswers) (intent : ValidatedOrderIntent) (row : Order) : Order :=
  if displaces intent row then cancelledRow a.cancels row else row

theorem isExitIntent_of_flatten (h : isFlattenIntent intent) : isExitIntent intent := by
  unfold isFlattenIntent at h
  unfold isExitIntent
  rw [List.any_append]
  grind

theorem isFlatten_or_partial (h : isExitIntent intent) :
    isFlattenIntent intent ∨ isPartialExit intent := by
  unfold isExitIntent at h
  unfold isFlattenIntent isPartialExit
  rw [List.any_append] at h
  grind

theorem find_cancelWorking (cancels : String → Except BrokerFault OrderResult)
    (symbol side : String) (b : OrderBook) (k : String) :
    (b.cancelWorkingForSymbol cancels symbol side).orders.find? k =
      (b.orders.find? k).map fun row =>
        if row.symbol = Casing.upper symbol ∧ row.side = Casing.lower side ∧ row.isWorking
        then cancelledRow cancels row else row := by
  have h := @KeyedTable.find?_foldl_filter _ _ _ _ _ OrderBook.orders
    (fun b row => b.cancelOrder cancels row.idempotencyKey) (fun _ => cancelledRow cancels)
    (fun b row k => find_cancelOrder b _ k) (fun row => decide (row.symbol = Casing.upper symbol ∧
      row.side = Casing.lower side ∧ row.isWorking)) b k
  simp only [decide_eq_true_eq] at h
  exact h

theorem find_passExit (h : b.passExit a intent = some passed) (k : String) :
    passed.orders.find? k = (b.orders.find? k).map (passedRow a intent) := by
  have hkept : (∀ row ∈ b.orders.rows, displaces intent row = false) →
      b.orders.find? k = (b.orders.find? k).map (passedRow a intent) := by
    intro hnone
    cases hfind : b.orders.find? k with
    | none => rfl
    | some row =>
      have hrow := hnone row (KeyedTable.find?_eq_some_iff.mp hfind).1
      rw [Option.map_some, passedRow, hrow, if_neg Bool.false_ne_true]
  have hidle : (b.workingSameSide intent.symbol intent.side.value).isEmpty = true →
      ∀ row ∈ b.orders.rows, displaces intent row = false := by
    intro hempty row hrow
    have hnot := List.filter_eq_nil_iff.mp (List.isEmpty_iff.mp hempty) row hrow
    rw [decide_eq_true_eq] at hnot
    rw [displaces, decide_eq_false hnot, Bool.and_false]
  unfold passExit at h
  dsimp only at h
  split at h
  · -- no exit at all
    rename_i hexit
    cases h
    refine hkept fun row _ => ?_
    have hflatten : isFlattenIntent intent = false := by
      by_contra hflatten
      rw [isExitIntent_of_flatten (by simpa using hflatten)] at hexit
      cases hexit
    rw [displaces, hflatten, Bool.false_and]
  · rename_i hexit
    split at h
    · cases h
    · rename_i hpartial
      split at h
      · rename_i hflatten
        split at h
        · cases h
        · cases h
          rw [find_cancelWorking]
          refine Option.map_congr fun row _ => ?_
          simp [passedRow, displaces, (Bool.and_eq_true_iff.mp hflatten).2]
      · rename_i hflatten
        cases h
        refine hkept (hidle ?_)
        rcases isFlatten_or_partial (by simpa using hexit) with hkind | hkind
        · simpa [hkind] using hflatten
        · simpa [hkind] using hpartial

/-! ## One turn -/

/-- The row under the key of an intent, once the intent has gone as far as the broker. -/
def turnRow (cfg : Settings) (a : SubmitAnswers) (intent : ValidatedOrderIntent)
    (b : OrderBook) : Order :=
  repliedRow a (replyOf cfg a intent) (claimedRow cfg a intent none
    ((b.orders.find? intent.idempotencyKey).map (passedRow a intent)))

theorem submitOne_of_reaches (h : b.Reaches cfg a intent none) :
    (b.submitOne cfg a intent none).orders.find? intent.idempotencyKey =
        some (turnRow cfg a intent b) ∧
      (∀ k, k ≠ intent.idempotencyKey → (b.submitOne cfg a intent none).orders.find? k =
        (b.orders.find? k).map (passedRow a intent)) ∧
      b.ordersMade cfg a intent none = if replyRaises a (replyOf cfg a intent) then none
        else some [turnRow cfg a intent b] := by
  obtain ⟨passed, hpass, hclaims⟩ := h
  rw [Option.mem_def] at hpass
  obtain ⟨claimed, hclaim⟩ := Option.isSome_iff_exists.mp hclaims
  have hsent : (claimed.sendOrder cfg a intent).orders.find? intent.idempotencyKey =
      some (turnRow cfg a intent b) := by
    rw [find_sendOrder, find_claimRow hclaim, find_passExit hpass]
    rfl
  refine ⟨?_, fun k hk => ?_, ?_⟩
  · simp only [submitOne, hpass, hclaim]
    exact hsent
  · have htouch : Touches intent.idempotencyKey passed (claimed.sendOrder cfg a intent) :=
      (claimRow_spec hclaim).1.trans touches_sendOrder
    simp only [submitOne, hpass, hclaim]
    rw [(htouch k hk).row, find_passExit hpass]
  · simp only [ordersMade, hpass, Option.bind_some, hclaim]
    rw [hsent]
    rfl

theorem submitOne_of_not_reaches (h : ¬ b.Reaches cfg a intent none) :
    (∀ k, (b.submitOne cfg a intent none).orders.find? k =
        if (b.passExit a intent).isSome then (b.orders.find? k).map (passedRow a intent)
        else b.orders.find? k) ∧
      b.ordersMade cfg a intent none = some [] := by
  cases hpass : b.passExit a intent with
  | none => simp [submitOne, ordersMade, hpass]
  | some passed =>
    have hclaim : passed.claimRow cfg a intent none = none := by
      by_contra hclaim
      exact h ⟨passed, hpass, Option.isSome_iff_ne_none.mpr hclaim⟩
    refine ⟨fun k => ?_, ?_⟩
    · simp only [submitOne, hpass, hclaim]
      exact find_passExit hpass k
    · simp [ordersMade, hpass, hclaim]

end

theorem repliedRow_kept (reply : Except BrokerFault OrderResult) (row : Order) :
    (repliedRow a reply row).idempotencyKey = row.idempotencyKey ∧
      (repliedRow a reply row).qty = row.qty ∧ (repliedRow a reply row).side = row.side := by
  unfold repliedRow repliedTimeout
  split
  · exact ⟨rfl, rfl, rfl⟩
  · split <;> exact ⟨rfl, rfl, rfl⟩
  · exact ⟨rfl, rfl, rfl⟩
  · exact ⟨rfl, rfl, rfl⟩

theorem passedRow_kept [Casing] (row : Order) :
    (passedRow a intent row).idempotencyKey = row.idempotencyKey ∧
      (passedRow a intent row).qty = row.qty ∧ (passedRow a intent row).side = row.side := by
  unfold passedRow
  split
  · obtain ⟨status, hrow⟩ := cancelledRow_eq a.cancels row
    rw [hrow]
    exact ⟨rfl, rfl, rfl⟩
  · exact ⟨rfl, rfl, rfl⟩

theorem turnRow_kept [Casing] (cfg : Settings) (a : SubmitAnswers) (intent : ValidatedOrderIntent)
    (b : OrderBook) :
    (turnRow cfg a intent b).idempotencyKey = intent.idempotencyKey ∧
      (turnRow cfg a intent b).qty = intent.quantity ∧
      (turnRow cfg a intent b).side =
        ((b.orders.find? intent.idempotencyKey).map (·.side)).getD intent.side.value := by
  have hkept := repliedRow_kept (a := a) (replyOf cfg a intent) (claimedRow cfg a intent none
    ((b.orders.find? intent.idempotencyKey).map (passedRow a intent)))
  unfold turnRow
  rw [hkept.1, hkept.2.1, hkept.2.2]
  cases hfind : b.orders.find? intent.idempotencyKey with
  | none => exact ⟨rfl, rfl, rfl⟩
  | some row =>
    have hpassed := @passedRow_kept a intent _ row
    exact ⟨hpassed.1.trans (KeyedTable.find?_eq_some_iff.mp hfind).2, rfl, hpassed.2.2⟩

/-! ## Orders that stand -/

def takesStatus : OrderStatus → Bool
  | .canceled | .rejected => false
  | .new | .accepted | .filled | .partiallyFilled => true

/-- The broker takes an order, as it answers or as it is found to have it after a timeout. -/
def replyTakes (a : SubmitAnswers) : Except BrokerFault OrderResult → Bool
  | .ok result => takesStatus result.status
  | .error .timeout =>
    match a.clientOrder with
    | some (.ok (some remote)) => takesStatus remote.status
    | _ => false
  | .error _ => false

theorem stands_eq [Casing] {o : Order} {status : String} (h : o.status = status)
    (hwritten : status ∈ writtenStatuses) : o.stands =
      (WORKING_ORDER_STATUSES.contains (asciiLower status) ||
        decide (asciiLower status = "filled")) := by
  unfold Order.stands Order.isWorking
  rw [h, lower_written hwritten]

theorem stands_internal [Casing] {o : Order} {s : OrderStatus} (h : o.status = (internalStatus s).value) :
    o.stands = takesStatus s := by
  rw [stands_eq h (value_written _)]
  cases s <;> decide +kernel

theorem stands_repliedRow [Casing] {reply : Except BrokerFault OrderResult} (row : Order)
    (h : replyRaises a reply = false) : (repliedRow a reply row).stands = replyTakes a reply := by
  cases reply with
  | ok result => exact stands_internal rfl
  | error e =>
    cases e with
    | timeout =>
      have hunknown : (timedOut row).stands = false := by
        have hstatus : (timedOut row).status = "UNKNOWN" := rfl
        rw [stands_eq hstatus (by decide)]
        decide +kernel
      show (repliedTimeout a row).stands = _
      rcases hclient : a.clientOrder with _ | (e | (_ | remote))
      · simpa only [repliedTimeout, replyTakes, hclient] using hunknown
      · simp [replyRaises, hclient] at h
      · simpa only [repliedTimeout, replyTakes, hclient] using hunknown
      · simp only [repliedTimeout, replyTakes, hclient]
        exact stands_internal rfl
    | broker message =>
      have hstatus : (refusedBy message row).status = InternalOrderState.rejected.value := rfl
      show (refusedBy message row).stands = false
      rw [stands_eq hstatus (value_written _)]
      decide +kernel
    | other message => cases h

end OrderBook

/-! ## A whole batch -/

variable [Casing]

section Runs

variable {cfg : Settings} {b : OrderBook} {s : Batch} {turn : BatchTurn} {turns : List BatchTurn}

theorem submitTurn_of_raised (h : s.raised = true) : submitTurn cfg s turn = s := by
  unfold submitTurn
  rw [h, if_pos rfl]

theorem submitTurn_of_reaches (hraised : s.raised = false)
    (h : s.orders.Reaches cfg turn.1 turn.2 none) :
    submitTurn cfg s turn = { s with
      orders := s.orders.submitOne cfg turn.1 turn.2 none
      made := s.made ++ if replyRaises turn.1 (replyOf cfg turn.1 turn.2) then []
        else [turnRow cfg turn.1 turn.2 s.orders]
      raised := replyRaises turn.1 (replyOf cfg turn.1 turn.2) } := by
  unfold submitTurn
  rw [hraised, if_neg Bool.false_ne_true, (submitOne_of_reaches h).2.2]
  cases replyRaises turn.1 (replyOf cfg turn.1 turn.2) <;> simp

theorem submitTurn_of_not_reaches (hraised : s.raised = false)
    (h : ¬ s.orders.Reaches cfg turn.1 turn.2 none) :
    submitTurn cfg s turn = { s with orders := s.orders.submitOne cfg turn.1 turn.2 none } := by
  unfold submitTurn
  rw [hraised, if_neg Bool.false_ne_true, (submitOne_of_not_reaches h).2]
  simp

theorem raised_submitTurn_iff :
    (submitTurn cfg s turn).raised = true ↔ s.raised = true ∨ TurnRaises cfg s turn := by
  cases hraised : s.raised with
  | true => simp [submitTurn_of_raised hraised, hraised]
  | false =>
    unfold TurnRaises
    by_cases h : s.orders.Reaches cfg turn.1 turn.2 none
    · simp [submitTurn_of_reaches hraised h, h]
    · simp [submitTurn_of_not_reaches hraised h, hraised, h]

theorem raised_submitBatch_iff : (submitBatch cfg b turns).raised = true ↔
    ∃ x ∈ batchSteps cfg b turns, TurnRaises cfg x.1 x.2 := by
  have hrun := @run_gathers_iff _ _ (submitTurn cfg) (fun s => s.raised = true) (TurnRaises cfg)
    (fun s turn => raised_submitTurn_iff) ⟨b, [], false⟩ turns
  refine hrun.trans ?_
  rw [or_iff_right Bool.false_ne_true]
  rfl

theorem unraised_steps (h : (submitBatch cfg b turns).raised = false) {x : Batch × BatchTurn}
    (hx : x ∈ batchSteps cfg b turns) : x.1.raised = false := by
  by_contra hraised
  have hend : (submitBatch cfg b turns).raised = true :=
    run_of_stepsOf (P := fun s : Batch => s.raised = true)
      (fun s turn hs => raised_submitTurn_iff.mpr (.inl hs)) hx (by simpa using hraised)
  rw [h] at hend
  cases hend

theorem mem_made_iff (h : (submitBatch cfg b turns).raised = false) {o : Order} :
    o ∈ (submitBatch cfg b turns).made ↔ ∃ x ∈ batchSteps cfg b turns,
      x.1.orders.Reaches cfg x.2.1 x.2.2 none ∧ o = turnRow cfg x.2.1 x.2.2 x.1.orders := by
  have hstep : ∀ (s : Batch) turn, o ∈ (submitTurn cfg s turn).made ↔ o ∈ s.made ∨
      (s.raised = false ∧ s.orders.Reaches cfg turn.1 turn.2 none ∧
        replyRaises turn.1 (replyOf cfg turn.1 turn.2) = false ∧
        o = turnRow cfg turn.1 turn.2 s.orders) := by
    intro s turn
    cases hraised : s.raised with
    | true => simp [submitTurn_of_raised hraised]
    | false =>
      by_cases hreaches : s.orders.Reaches cfg turn.1 turn.2 none
      · rw [submitTurn_of_reaches hraised hreaches]
        cases replyRaises turn.1 (replyOf cfg turn.1 turn.2) <;> simp [hreaches]
      · simp [submitTurn_of_not_reaches hraised hreaches, hreaches]
  have hrun := @run_gathers_iff _ _ (submitTurn cfg) (fun s => o ∈ s.made) _ hstep ⟨b, [], false⟩ turns
  refine hrun.trans ?_
  rw [or_iff_right List.not_mem_nil]
  -- the batch went to its end, so no turn of it raised or came after one that did
  refine exists_congr fun x => and_congr_right fun hx => ?_
  constructor
  · rintro ⟨-, hreaches, -, ho⟩
    exact ⟨hreaches, ho⟩
  · rintro ⟨hreaches, ho⟩
    refine ⟨unraised_steps h hx, hreaches, ?_, ho⟩
    by_contra hreply
    have hend := raised_submitBatch_iff.mpr ⟨x, hx, hreaches, by simpa using hreply⟩
    rw [h] at hend
    cases hend

/-! ## The order of a key -/

/-- An order stands under the key, on the side, and for the quantity: what it was for, less what was
    filled of it before the batch. -/
def StandsFor (key side : String) (filled quantity : ℚ) (s : Batch) : Prop :=
  ∃ o, s.orders.orders.find? key = some o ∧ o.stands = true ∧ o.side = side ∧
    o.qty - (if key ∈ s.made.map (·.idempotencyKey) then 0 else filled) = quantity

/-- The turn makes an order under the key, whatever becomes of it. -/
def Makes (cfg : Settings) (key : String) (s : Batch) (turn : BatchTurn) : Prop :=
  turn.2.idempotencyKey = key ∧ s.orders.Reaches cfg turn.1 turn.2 none

/-- The turn makes an order under the key that stands, on the side and for the quantity. A dead
    order that is taken up again is on the side it was on. -/
structure MakesFor (cfg : Settings) (key side : String) (quantity : ℚ) (s : Batch)
    (turn : BatchTurn) : Prop where
  makes : Makes cfg key s turn
  taken : replyTakes turn.1 (replyOf cfg turn.1 turn.2) = true
  side : ((s.orders.orders.find? key).map (·.side)).getD turn.2.side.value = side
  quantity : turn.2.quantity = quantity

/-- The turn cancels the order of the key, so that it does not stand any more. -/
def Withdraws (key : String) (s : Batch) (turn : BatchTurn) : Prop :=
  (s.orders.passExit turn.1 turn.2).isSome ∧ ∃ o, s.orders.orders.find? key = some o ∧
    (passedRow turn.1 turn.2 o).stands = false

def Disturbs (cfg : Settings) (key : String) (s : Batch) (turn : BatchTurn) : Prop :=
  Makes cfg key s turn ∨ Withdraws key s turn

variable {key side : String} {filled quantity : ℚ}

theorem stands_of_passedRow {a : SubmitAnswers} {intent : ValidatedOrderIntent} {o : Order}
    (h : (passedRow a intent o).stands = true) : o.stands = true := by
  unfold passedRow at h
  split at h
  · rename_i hdisplaced
    have hworking : o.isWorking = true := by
      simp only [displaces, Bool.and_eq_true, decide_eq_true_eq] at hdisplaced
      exact hdisplaced.2.2.2
    rw [Order.stands, hworking, Bool.true_or]
  · exact h

theorem standsFor_of_makes (hraised : (submitTurn cfg s turn).raised = false)
    (h : Makes cfg key s turn) :
    StandsFor key side filled quantity (submitTurn cfg s turn) ↔
      MakesFor cfg key side quantity s turn := by
  obtain ⟨rfl, hreaches⟩ := h
  have hbefore : s.raised = false := by
    by_contra hs
    rw [submitTurn_of_raised (by simpa using hs)] at hraised
    exact hs hraised
  have hreply : replyRaises turn.1 (replyOf cfg turn.1 turn.2) = false := by
    rw [submitTurn_of_reaches hbefore hreaches] at hraised
    exact hraised
  have hrow := turnRow_kept cfg turn.1 turn.2 s.orders
  have hstands : (turnRow cfg turn.1 turn.2 s.orders).stands =
      replyTakes turn.1 (replyOf cfg turn.1 turn.2) := stands_repliedRow _ hreply
  unfold StandsFor
  rw [submitTurn_of_reaches hbefore hreaches, hreply, (submitOne_of_reaches hreaches).1]
  simp only [Option.some.injEq, exists_eq_left', hstands, hrow.2.1, hrow.2.2, Bool.false_eq_true,
    if_false, List.map_append, List.map_cons, hrow.1, List.map_nil, List.mem_append,
    List.mem_singleton, or_true, if_true, sub_zero]
  constructor
  · rintro ⟨htaken, hside, hquantity⟩
    exact ⟨⟨rfl, hreaches⟩, htaken, hside, hquantity⟩
  · rintro ⟨-, htaken, hside, hquantity⟩
    exact ⟨htaken, hside, hquantity⟩

theorem standsFor_of_not_makes (hraised : s.raised = false) (h : ¬ Makes cfg key s turn) :
    StandsFor key side filled quantity (submitTurn cfg s turn) ↔
      StandsFor key side filled quantity s ∧ ¬ Withdraws key s turn := by
  -- the order of the key is cancelled, or is left
  have hfind : (submitTurn cfg s turn).orders.orders.find? key =
      if (s.orders.passExit turn.1 turn.2).isSome
      then (s.orders.orders.find? key).map (passedRow turn.1 turn.2)
      else s.orders.orders.find? key := by
    by_cases hreaches : s.orders.Reaches cfg turn.1 turn.2 none
    · obtain ⟨passed, hpass, -⟩ := id hreaches
      rw [submitTurn_of_reaches hraised hreaches, Option.mem_def.mp hpass, Option.isSome_some,
        if_pos rfl]
      exact (submitOne_of_reaches hreaches).2.1 key fun hkey => h ⟨hkey.symm, hreaches⟩
    · rw [submitTurn_of_not_reaches hraised hreaches]
      exact (submitOne_of_not_reaches hreaches).1 key
  have hmade : key ∈ (submitTurn cfg s turn).made.map (·.idempotencyKey) ↔
      key ∈ s.made.map (·.idempotencyKey) := by
    by_cases hreaches : s.orders.Reaches cfg turn.1 turn.2 none
    · have hkey : key ≠ turn.2.idempotencyKey := fun hkey => h ⟨hkey.symm, hreaches⟩
      rw [submitTurn_of_reaches hraised hreaches]
      split
      · simp
      · simp [(turnRow_kept cfg turn.1 turn.2 s.orders).1, hkey]
    · rw [submitTurn_of_not_reaches hraised hreaches]
  unfold StandsFor Withdraws
  rw [hfind]
  simp only [hmade]
  cases hpass : (s.orders.passExit turn.1 turn.2).isSome with
  | false => simp
  | true =>
    simp only [if_true, true_and]
    cases s.orders.orders.find? key with
    | none => simp
    | some o =>
      obtain ⟨-, hqty, hside⟩ := @passedRow_kept turn.1 turn.2 _ o
      simp only [Option.map_some, Option.some.injEq, exists_eq_left', hqty, hside,
        Bool.not_eq_false]
      constructor
      · rintro ⟨hstands, hrest⟩
        exact ⟨⟨stands_of_passedRow hstands, hrest⟩, hstands⟩
      · rintro ⟨⟨-, hrest⟩, hstands⟩
        exact ⟨hstands, hrest⟩

theorem standsFor_iff (h : (submitBatch cfg b turns).raised = false) :
    StandsFor key side filled quantity (submitBatch cfg b turns) ↔
      (∃ done x rest, batchSteps cfg b turns = done ++ x :: rest ∧
        MakesFor cfg key side quantity x.1 x.2 ∧ ∀ y ∈ rest, ¬ Disturbs cfg key y.1 y.2) ∨
      StandsFor key side filled quantity ⟨b, [], false⟩ ∧
        ∀ y ∈ batchSteps cfg b turns, ¬ Disturbs cfg key y.1 y.2 := by
  refine run_holds_iff fun x hx => ?_
  have hbefore : x.1.raised = false := unraised_steps h hx
  by_cases hmakes : Makes cfg key x.1 x.2
  · have hafter : (submitTurn cfg x.1 x.2).raised = false := by
      by_contra hraised
      rcases raised_submitTurn_iff.mp (by simpa using hraised) with hs | hturn
      · rw [hbefore] at hs
        cases hs
      · have hend := raised_submitBatch_iff.mpr ⟨x, hx, hturn⟩
        rw [h] at hend
        cases hend
    rw [standsFor_of_makes hafter hmakes]
    -- a turn that makes the order anew leaves nothing of how it stood
    exact (or_iff_left fun hstands => hstands.2 (.inl hmakes)).symm
  · rw [standsFor_of_not_makes hbefore hmakes]
    rw [or_iff_right fun hfor : MakesFor cfg key side quantity x.1 x.2 => hmakes hfor.makes]
    exact and_congr_right fun _ => not_congr (or_iff_right hmakes).symm

end Runs

end Batches
end Investor.Execution
