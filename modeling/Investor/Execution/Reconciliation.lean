import Investor.Execution.Orders
import Investor.Lib.Run
import Mathlib.Data.List.Dedup

/-!
# Broker and local order books, reconciled

`ReconciliationService.run` takes one broker snapshot, adopts the orders it does not
know, compares the ids that are open on either side, and records a run with its
issues. Its verdict and its one destructive step are read off two different things:

* the verdict from three id sets (at the broker, known locally in *any* status, open
  locally), which is weaker than the equality of the open books (`inSync_agrees_iff`);
* the closing of stale local opens from a streak in the *history of run records*,
  which knows nothing of single orders (`cancelled_after_streak`).

Run records are kept newest first: `created_at` is the insertion time, which no caller
sets. The snapshot is given by the fields the service reads.
-/

namespace Investor.Execution

open Lib

section Reconcile

/-! ## What the broker reports -/

/-- `raw["qty"]`, as `float(...)` meets it. -/
inductive RawQty
  | absent
  | number (q : ℚ)
  | unreadable
  deriving DecidableEq

/-- The entries of `raw` that an adopted row copies. -/
structure RemoteRaw where
  symbol : Option String
  side : Option String
  qty : RawQty
  orderType : Option String
  type_ : Option String
  deriving DecidableEq

structure RemoteOrder where
  brokerOrderId : Option String
  status : Option String
  filledQty : ℚ
  submittedAt : Option Int
  raw : RemoteRaw
  deriving DecidableEq

/-- `BrokerBook`: a one-shot snapshot. -/
structure BrokerBook where
  orders : List RemoteOrder
  positionCount : ℕ
  accountCash : Option ℚ
  deriving DecidableEq

/-- A text that is there and not empty: what `x or default` keeps. -/
def truthy? : Option String → Option String
  | some s => if s = "" then none else some s
  | none => none

/-- The id of a remote order, where `getattr(o, "broker_order_id", None)` is truthy. -/
def RemoteOrder.id? (r : RemoteOrder) : Option String := truthy? r.brokerOrderId

def remoteIds (book : BrokerBook) : List String := book.orders.filterMap (·.id?)

section

variable [Casing]

def remoteStatusValue (r : RemoteOrder) : String :=
  Casing.lower ((truthy? r.status).getD "accepted")

/-- `_REMOTE_STATUS_TO_LOCAL.get(status, "ACCEPTED")`. -/
def remoteStatusToLocal (status : String) : String :=
  match status with
  | "new" => "ACCEPTED"
  | "accepted" => "ACCEPTED"
  | "pending_new" => "SUBMITTED"
  | "partially_filled" => "PARTIALLY_FILLED"
  | "filled" => "FILLED"
  | "canceled" => "CANCELLED"
  | "cancelled" => "CANCELLED"
  | "rejected" => "REJECTED"
  | "expired" => "EXPIRED"
  | _ => "ACCEPTED"

def rawQty (r : RemoteOrder) : ℚ :=
  match r.raw.qty with
  | .number q => if q = 0 then r.filledQty else q
  | .absent => r.filledQty
  | .unreadable => 0

/-- The row `_adopt_remote_orders` adds for a remote order with id `oid`. -/
def adoptedRow (now : Int) (oid : String) (r : RemoteOrder) : Order :=
  let side := Casing.lower ((truthy? r.raw.side).getD "buy")
  { brokerOrderId := some oid
    idempotencyKey := "adopted:" ++ oid
    symbol := takeChars 32 (Casing.upper ((truthy? r.raw.symbol).getD "UNKNOWN"))
    side := if side = "buy" ∨ side = "sell" then side else "buy"
    qty := rawQty r
    orderType := takeChars 32 (canonicalOrderType ((truthy? r.raw.orderType).or r.raw.type_))
    limitPrice := none
    stopPrice := none
    status := remoteStatusToLocal (remoteStatusValue r)
    decisionId := none
    submittedAt := r.submittedAt
    rawPayload := [("adopted", .bool true)]
    createdAt := now }

/-! ## The records of past runs -/

inductive ReconciliationResult
  | inSync | minorDrift | materialDrift | brokerUnavailable
  deriving DecidableEq

inductive Issue
  | error (text : String)
  | localOrderMissingRemote (oid : String)
  | staleLocalOpenCleared (closed streak : ℕ)
  | emptyRemoteOpenOrders (localOpen streak : ℕ)
  | remoteOrderMissingLocal (oid : String)
  deriving DecidableEq

/-- `str(item.get("type") or "")`. -/
def Issue.type_ : Issue → String
  | .error _ => ""
  | .localOrderMissingRemote _ => "local_order_missing_remote"
  | .staleLocalOpenCleared .. => "stale_local_open_cleared"
  | .emptyRemoteOpenOrders .. => "empty_remote_open_orders"
  | .remoteOrderMissingLocal _ => "remote_order_missing_local"

/-- `type.startswith("remote_") or type.startswith("local_")`. -/
def Issue.isMaterial (i : Issue) : Bool :=
  "remote_".toList.isPrefixOf i.type_.toList || "local_".toList.isPrefixOf i.type_.toList

structure BrokerReconciliationRun where
  syncType : String
  result : ReconciliationResult
  issues : List Issue
  remoteOpenOrders : ℕ
  adoptedOrders : ℕ
  createdAt : Int
  deriving DecidableEq

def BrokerReconciliationRun.hasKind (run : BrokerReconciliationRun) (kind : String) : Bool :=
  run.issues.any (·.type_ == kind)

def EMPTY_REMOTE_STREAK_CLOSE_LOCAL : ℕ := 3

/-- The loop of `_prior_empty_remote_streak` over the rows it selected. -/
def streakOf : List BrokerReconciliationRun → ℕ
  | [] => 0
  | run :: rows =>
    if run.hasKind "stale_local_open_cleared" then 0
    else if run.hasKind "empty_remote_open_orders" then streakOf rows + 1
    else 0

def priorEmptyRemoteStreak (runs : List BrokerReconciliationRun) : ℕ := streakOf (runs.take 8)

/-! ## One run -/

structure ReconDb where
  orders : OrderTable
  runs : List BrokerReconciliationRun

def localOpen (orders : OrderTable) : List Order := orders.rows.filter (·.isWorking)

def localOpenIds (orders : OrderTable) : List String := (localOpen orders).filterMap (·.brokerId?)

/-- `_known_broker_order_ids`: rows in any status count. -/
def knownBrokerOrderIds (orders : OrderTable) (ids : List String) : List String :=
  (orders.rows.filterMap (·.brokerId?)).filter (ids.contains ·)

def toAdopt (orders : OrderTable) (book : BrokerBook) : List (String × RemoteOrder) :=
  book.orders.filterMap fun r =>
    match r.id? with
    | some oid => if (knownBrokerOrderIds orders (remoteIds book)).contains oid then none
                  else some (oid, r)
    | none => none

def adoptedRows (now : Int) (orders : OrderTable) (book : BrokerBook) : List Order :=
  (toAdopt orders book).map fun p => adoptedRow now p.1 p.2

/-- What `_close_stale_local_opens` does to one row. -/
def closeRow (o : Order) : Order :=
  { o with status := InternalOrderState.cancelled.value,
           rawPayload := Dict.set o.rawPayload "recon" (.obj [("empty_remote_streak", .bool true)]) }

def closeStaleLocalOpens (orders : OrderTable) : OrderTable :=
  orders.update (fun o => if o.isWorking then closeRow o else o)
    (by intro o; by_cases h : o.isWorking <;> simp [h, closeRow])

inductive DatabaseError
  | integrityError
  deriving DecidableEq

structure ReconOutput where
  result : ReconciliationResult
  issues : List Issue
  adoptedOrders : ℕ
  deriving DecidableEq

def verdict (issues : List Issue) : ReconciliationResult :=
  if issues.isEmpty then .inSync
  else if issues.any (·.isMaterial) then .materialDrift
  else .minorDrift

/-- `set(a) - set(b)` -/
def idsWithout (a b : List String) : List String := a.dedup.filter (fun x => !b.contains x)

/-- The comparison after the adoption: the table it leaves and the issues it lists. -/
def compareBooks (orders : OrderTable) (runs : List BrokerReconciliationRun) (book : BrokerBook) :
    OrderTable × List Issue :=
  let remote := remoteIds book
  let missingLocal := (idsWithout remote (knownBrokerOrderIds orders remote)).map
    Issue.remoteOrderMissingLocal
  if book.orders ≠ [] then
    (orders, (idsWithout (localOpenIds orders) remote).map .localOrderMissingRemote ++ missingLocal)
  else if localOpenIds orders ≠ [] then
    -- Incomplete open-order snapshot must not freeze the book; after a short streak,
    -- treat local opens as stale and close them locally only.
    let streak := priorEmptyRemoteStreak runs + 1
    if EMPTY_REMOTE_STREAK_CLOSE_LOCAL ≤ streak then
      (closeStaleLocalOpens orders,
        .staleLocalOpenCleared (localOpen orders).length streak :: missingLocal)
    else
      (orders, .emptyRemoteOpenOrders (localOpenIds orders).dedup.length streak :: missingLocal)
  else (orders, missingLocal)

/-- `ReconciliationService.run` on a snapshot, or on the error the fetch raised. -/
def reconcile (db : ReconDb) (syncType : String) (snapshot : Except String BrokerBook)
    (now : Int) : Except DatabaseError (ReconDb × ReconOutput) :=
  match snapshot with
  | .error text =>
    let issues := [Issue.error (takeChars 300 text)]
    let run : BrokerReconciliationRun :=
      { syncType, result := .brokerUnavailable, issues, remoteOpenOrders := 0,
        adoptedOrders := 0, createdAt := now }
    .ok ({ db with runs := run :: db.runs },
      { result := .brokerUnavailable, issues, adoptedOrders := 0 })
  | .ok book =>
    let adopted := adoptedRows now db.orders book
    match db.orders.insertAll adopted with
    | none => .error .integrityError
    | some orders =>
      let (orders', issues) := compareBooks orders db.runs book
      let result := verdict issues
      let run : BrokerReconciliationRun :=
        { syncType, result, issues, remoteOpenOrders := book.orders.length,
          adoptedOrders := adopted.length, createdAt := now }
      .ok ({ orders := orders', runs := run :: db.runs },
        { result, issues, adoptedOrders := adopted.length })

end

/-! ## What a run leaves -/

theorem verdict_inSync_iff {issues : List Issue} : verdict issues = .inSync ↔ issues = [] := by
  unfold verdict
  cases issues with
  | nil => simp
  | cons i is =>
    by_cases h : (i :: is).any (·.isMaterial) <;> simp [h]

theorem mem_idsWithout {a b : List String} {x : String} :
    x ∈ idsWithout a b ↔ x ∈ a ∧ x ∉ b := by
  simp [idsWithout]

variable {orders : OrderTable} {oid : String}

theorem mem_localOpenIds [Casing] :
    oid ∈ localOpenIds orders ↔ ∃ o ∈ orders.rows, o.isWorking ∧ o.brokerId? = some oid := by
  simp only [localOpenIds, localOpen, List.mem_filterMap, List.mem_filter]
  constructor
  · rintro ⟨o, ⟨ho, hw⟩, hid⟩; exact ⟨o, ho, hw, hid⟩
  · rintro ⟨o, ho, hw, hid⟩; exact ⟨o, ⟨ho, hw⟩, hid⟩

variable {book : BrokerBook}

theorem mem_remoteIds : oid ∈ remoteIds book ↔ ∃ r ∈ book.orders, r.id? = some oid :=
  List.mem_filterMap

def KnownId (orders : OrderTable) (oid : String) : Prop := ∃ o ∈ orders.rows, o.brokerId? = some oid

theorem mem_knownBrokerOrderIds {ids : List String} :
    oid ∈ knownBrokerOrderIds orders ids ↔ KnownId orders oid ∧ oid ∈ ids := by
  simp [knownBrokerOrderIds, KnownId]

variable {r : RemoteOrder}

theorem mem_toAdopt :
    (oid, r) ∈ toAdopt orders book ↔
      r ∈ book.orders ∧ r.id? = some oid ∧ ¬ KnownId orders oid := by
  unfold toAdopt
  rw [List.mem_filterMap]
  constructor
  · rintro ⟨r', hr', h⟩
    cases hid : r'.id? with
    | none => simp [hid] at h
    | some oid' =>
      simp only [hid] at h
      split at h
      · cases h
      · rename_i hknown
        cases h
        refine ⟨hr', hid, fun hk => hknown ?_⟩
        simpa using mem_knownBrokerOrderIds.mpr ⟨hk, mem_remoteIds.mpr ⟨_, hr', hid⟩⟩
  · rintro ⟨hr, hid, hk⟩
    refine ⟨r, hr, ?_⟩
    simp only [hid]
    rw [if_neg]
    intro h
    exact hk (mem_knownBrokerOrderIds.mp (by simpa using h)).1

variable {now : Int}

@[simp] theorem adoptedRow_brokerId? [Casing] (hne : oid ≠ "") :
    (adoptedRow now oid r).brokerId? = some oid := by
  simp [Order.brokerId?, adoptedRow, hne]

theorem RemoteOrder.id?_ne_empty (h : r.id? = some oid) : oid ≠ "" := by
  unfold RemoteOrder.id? truthy? at h
  split at h
  · split at h
    · cases h
    · rename_i hne; cases h; exact hne
  · cases h

variable {db : ReconDb}

theorem reconcile_ok [Casing] {db' : ReconDb} {syncType : String} {out : ReconOutput}
    (h : reconcile db syncType (.ok book) now = .ok (db', out)) :
    ∃ orders, db.orders.insertAll (adoptedRows now db.orders book) = some orders ∧
      db'.orders = (compareBooks orders db.runs book).1 ∧
      out.issues = (compareBooks orders db.runs book).2 ∧
      out.result = verdict out.issues ∧
      ∃ run, db'.runs = run :: db.runs ∧ run.issues = out.issues ∧ run.createdAt = now := by
  simp only [reconcile] at h
  cases hi : db.orders.insertAll (adoptedRows now db.orders book) with
  | none => simp [hi] at h
  | some orders =>
    simp only [hi, Except.ok.injEq, Prod.mk.injEq] at h
    obtain ⟨rfl, rfl⟩ := h
    exact ⟨orders, rfl, rfl, rfl, rfl, _, rfl, rfl, rfl⟩

/-- After the adoption every id of the broker is known. -/
theorem known_after_adoption [Casing]
    (h : db.orders.insertAll (adoptedRows now db.orders book) = some orders)
    (hoid : oid ∈ remoteIds book) : KnownId orders oid := by
  have hrows := KeyedTable.insertAll_rows h
  by_cases hk : KnownId db.orders oid
  · obtain ⟨o, ho, hid⟩ := hk
    exact ⟨o, by rw [hrows]; exact List.mem_append_left _ ho, hid⟩
  · obtain ⟨r, hr, hid⟩ := mem_remoteIds.mp hoid
    refine ⟨adoptedRow now oid r, ?_, adoptedRow_brokerId? (RemoteOrder.id?_ne_empty hid)⟩
    rw [hrows]
    exact List.mem_append_right _
      (List.mem_map.mpr ⟨(oid, r), mem_toAdopt.mpr ⟨hr, hid, hk⟩, rfl⟩)

theorem missingLocal_eq_nil (h : ∀ oid ∈ remoteIds book, KnownId orders oid) :
    idsWithout (remoteIds book) (knownBrokerOrderIds orders (remoteIds book)) = [] := by
  rw [List.eq_nil_iff_forall_not_mem]
  intro oid hoid
  obtain ⟨hr, hk⟩ := mem_idsWithout.mp hoid
  exact hk (mem_knownBrokerOrderIds.mpr ⟨h oid hr, hr⟩)

/-! ## The verdict `IN_SYNC`

`IN_SYNC` says that no local open id is missing at the broker and that every remote id
is known. It does not say in which status it is known. -/

def TERMINAL_REMOTE_STATUSES : List String :=
  ["filled", "canceled", "cancelled", "rejected", "expired"]

def OpenBooksAgree [Casing] (orders : OrderTable) (book : BrokerBook) : Prop :=
  (∀ oid, oid ∈ remoteIds book ↔ oid ∈ localOpenIds orders) ∧
  ∀ o ∈ orders.rows, ∀ oid ∈ remoteIds book, o.brokerId? = some oid →
    Casing.lower o.status ∉ ["cancelled", "canceled", "rejected", "filled"]

/-- A run on this snapshot that reports `IN_SYNC` leaves agreeing books. -/
def InSyncSound [Casing] (db : ReconDb) (syncType : String) (book : BrokerBook) (now : Int) : Prop :=
  ∀ db' out, reconcile db syncType (.ok book) now = .ok (db', out) → out.result = .inSync →
    OpenBooksAgree db'.orders book

/-- The adoption cannot be stored: two unknown remote orders share an id, or a row holds
    the key of an adoption already. -/
def AdoptionClashes (db : ReconDb) (book : BrokerBook) : Prop :=
  ¬ ((toAdopt db.orders book).map (·.1)).Nodup ∨
  ∃ p ∈ toAdopt db.orders book, db.orders.HasKey ("adopted:" ++ p.1)

def LocalDrift [Casing] (db : ReconDb) (book : BrokerBook) : Prop :=
  ∃ oid ∈ localOpenIds db.orders, oid ∉ remoteIds book

/-- Every remote id either has an open row and no finished one, or is unknown and not
    itself reported in a terminal status. -/
def RemoteMirrored [Casing] (db : ReconDb) (book : BrokerBook) : Prop :=
  ∀ r ∈ book.orders, ∀ oid, r.id? = some oid →
    (KnownId db.orders oid → oid ∈ localOpenIds db.orders ∧
      ∀ o ∈ db.orders.rows, o.brokerId? = some oid →
        Casing.lower o.status ∉ ["cancelled", "canceled", "rejected", "filled"]) ∧
    (¬ KnownId db.orders oid → remoteStatusValue r ∉ TERMINAL_REMOTE_STATUSES)

theorem remoteStatusToLocal_ascii (status : String) : isAscii (remoteStatusToLocal status) := by
  unfold remoteStatusToLocal
  split <;> decide

variable [Casing]

theorem adoptedRow_status (now : Int) (oid : String) (r : RemoteOrder) :
    (remoteStatusValue r ∈ TERMINAL_REMOTE_STATUSES ∧ ¬ (adoptedRow now oid r).isWorking) ∨
    (remoteStatusValue r ∉ TERMINAL_REMOTE_STATUSES ∧ (adoptedRow now oid r).isWorking ∧
      Casing.lower (adoptedRow now oid r).status ∉
        ["cancelled", "canceled", "rejected", "filled"]) := by
  have hst : (adoptedRow now oid r).status = remoteStatusToLocal (remoteStatusValue r) := rfl
  unfold Order.isWorking
  rw [hst, Casing.lower_ascii _ (remoteStatusToLocal_ascii _)]
  generalize remoteStatusValue r = v
  by_cases hterm : v ∈ TERMINAL_REMOTE_STATUSES
  · refine Or.inl ⟨hterm, ?_⟩
    revert v
    decide
  · refine Or.inr ⟨hterm, ?_⟩
    simp only [TERMINAL_REMOTE_STATUSES, List.mem_cons, List.not_mem_nil, or_false, not_or]
      at hterm
    unfold remoteStatusToLocal
    split <;> first | decide | simp_all

theorem adoptedRow_isWorking_iff :
    (adoptedRow now oid r).isWorking ↔ remoteStatusValue r ∉ TERMINAL_REMOTE_STATUSES := by
  rcases adoptedRow_status now oid r with ⟨h, hw⟩ | ⟨h, hw, _⟩
  · exact ⟨fun h' => absurd h' hw, fun h' => absurd h h'⟩
  · exact ⟨fun _ => h, fun _ => hw⟩

/-- The adoption is stored exactly if no id and no key is there twice. -/
theorem adoption_stores_iff (now : Int) :
    (db.orders.insertAll (adoptedRows now db.orders book)).isSome ↔ ¬ AdoptionClashes db book := by
  have hkeys : (adoptedRows now db.orders book).map Order.idempotencyKey
      = ((toAdopt db.orders book).map (·.1)).map ("adopted:" ++ ·) := by
    simp [adoptedRows, adoptedRow, List.map_map, Function.comp_def]
  have hinj : Function.Injective (fun s : String => "adopted:" ++ s) := by
    intro a b h
    have := congrArg String.toList h
    simp only [String.toList_append] at this
    exact String.toList_inj.mp (List.append_cancel_left this)
  have htaken : (∀ o ∈ adoptedRows now db.orders book, ¬ db.orders.HasKey o.idempotencyKey) ↔
      ∀ p ∈ toAdopt db.orders book, ¬ db.orders.HasKey ("adopted:" ++ p.1) := by
    rw [adoptedRows, List.forall_mem_map]
    rfl
  rw [KeyedTable.insertAll_isSome_iff, hkeys, List.nodup_map_iff hinj, htaken]
  simp [AdoptionClashes]

theorem mem_localOpenIds_adopted
    (h : db.orders.insertAll (adoptedRows now db.orders book) = some orders) :
    oid ∈ localOpenIds orders ↔ oid ∈ localOpenIds db.orders ∨
      ∃ r, (oid, r) ∈ toAdopt db.orders book ∧
        remoteStatusValue r ∉ TERMINAL_REMOTE_STATUSES := by
  simp only [mem_localOpenIds, KeyedTable.insertAll_rows h, List.mem_append, adoptedRows,
    List.mem_map]
  constructor
  · rintro ⟨o, ho | ⟨⟨oid', r⟩, hp, rfl⟩, hw, hid⟩
    · exact Or.inl ⟨o, ho, hw, hid⟩
    · have hne := RemoteOrder.id?_ne_empty (mem_toAdopt.mp hp).2.1
      rw [adoptedRow_brokerId? hne] at hid
      cases hid
      exact Or.inr ⟨r, hp, adoptedRow_isWorking_iff.mp hw⟩
  · rintro (⟨o, ho, hw, hid⟩ | ⟨r, hp, hw⟩)
    · exact ⟨o, Or.inl ho, hw, hid⟩
    · exact ⟨_, Or.inr ⟨(oid, r), hp, rfl⟩, adoptedRow_isWorking_iff.mpr hw,
        adoptedRow_brokerId? (RemoteOrder.id?_ne_empty (mem_toAdopt.mp hp).2.1)⟩

/-- A run is in sync exactly if no open local id is missing at the broker. -/
theorem reconcile_inSync_iff {db' : ReconDb} {syncType : String} {out : ReconOutput}
    (hne : book.orders ≠ []) (h : reconcile db syncType (.ok book) now = .ok (db', out)) :
    out.result = .inSync ↔ ¬ LocalDrift db book := by
  obtain ⟨orders, hins, _, hissues, hresult, _⟩ := reconcile_ok h
  have hmissing := missingLocal_eq_nil (fun oid hoid => known_after_adoption hins hoid)
  rw [hresult, verdict_inSync_iff, hissues, compareBooks, if_pos hne, hmissing]
  simp only [List.map_nil, List.append_nil, List.map_eq_nil_iff]
  simp only [List.eq_nil_iff_forall_not_mem, mem_idsWithout, not_and, not_not, LocalDrift,
    not_exists]
  constructor
  · intro hall oid hoid
    exact hall oid ((mem_localOpenIds_adopted hins).mpr (Or.inl hoid))
  · intro hall oid hoid
    rcases (mem_localOpenIds_adopted hins).mp hoid with hold | ⟨r, hp, _⟩
    · exact hall oid hold
    · obtain ⟨hr, hid, _⟩ := mem_toAdopt.mp hp
      exact mem_remoteIds.mpr ⟨r, hr, hid⟩

theorem mem_rows_adopted_of_known
    (h : db.orders.insertAll (adoptedRows now db.orders book) = some orders) {o : Order}
    (ho : o ∈ orders.rows) (hid : o.brokerId? = some oid) :
    o ∈ db.orders.rows ∨ ∃ r, (oid, r) ∈ toAdopt db.orders book ∧ o = adoptedRow now oid r := by
  rw [KeyedTable.insertAll_rows h, List.mem_append, adoptedRows, List.mem_map] at ho
  rcases ho with ho | ⟨⟨oid', r⟩, hp, rfl⟩
  · exact Or.inl ho
  · have hne := RemoteOrder.id?_ne_empty (mem_toAdopt.mp hp).2.1
    rw [adoptedRow_brokerId? hne] at hid
    cases hid
    exact Or.inr ⟨r, hp, rfl⟩

/-- With no drift, the books agree exactly if the remote ids are mirrored. -/
theorem openBooksAgree_adopted_iff
    (h : db.orders.insertAll (adoptedRows now db.orders book) = some orders)
    (hdrift : ¬ LocalDrift db book) : OpenBooksAgree orders book ↔ RemoteMirrored db book := by
  constructor
  · rintro ⟨hids, hlive⟩ r hr oid hid
    have hremote : oid ∈ remoteIds book := mem_remoteIds.mpr ⟨r, hr, hid⟩
    have hopen := (mem_localOpenIds_adopted h).mp ((hids oid).mp hremote)
    refine ⟨fun hknown => ⟨?_, ?_⟩, fun hunknown => ?_⟩
    · rcases hopen with hold | ⟨r', hp, _⟩
      · exact hold
      · exact absurd hknown (mem_toAdopt.mp hp).2.2
    · intro o ho hoid
      refine hlive o ?_ oid hremote hoid
      rw [KeyedTable.insertAll_rows h]
      exact List.mem_append_left _ ho
    · have hp : (oid, r) ∈ toAdopt db.orders book := mem_toAdopt.mpr ⟨hr, hid, hunknown⟩
      rcases hopen with hold | ⟨r', hp', hterm'⟩
      · obtain ⟨o, ho, _, hoid⟩ := mem_localOpenIds.mp hold
        exact absurd ⟨o, ho, hoid⟩ hunknown
      · -- the table stored both adoptions, so the two remote orders are one
        have hnodup : ((toAdopt db.orders book).map (·.1)).Nodup := by
          by_contra hdup
          have hstored := (adoption_stores_iff now).mp (Option.isSome_of_eq_some h)
          exact hstored (Or.inl hdup)
        have hsame := List.inj_on_of_nodup_map hnodup hp hp' rfl
        cases hsame
        exact hterm'
  · intro hm
    refine ⟨fun oid => ⟨fun hremote => ?_, fun hopen => ?_⟩, ?_⟩
    · obtain ⟨r, hr, hid⟩ := mem_remoteIds.mp hremote
      rw [mem_localOpenIds_adopted h]
      by_cases hknown : KnownId db.orders oid
      · exact Or.inl ((hm r hr oid hid).1 hknown).1
      · exact Or.inr ⟨r, mem_toAdopt.mpr ⟨hr, hid, hknown⟩, (hm r hr oid hid).2 hknown⟩
    · rcases (mem_localOpenIds_adopted h).mp hopen with hold | ⟨r, hp, _⟩
      · by_contra hremote
        exact hdrift ⟨oid, hold, hremote⟩
      · obtain ⟨hr, hid, _⟩ := mem_toAdopt.mp hp
        exact mem_remoteIds.mpr ⟨r, hr, hid⟩
    · intro o ho oid hremote hoid
      obtain ⟨r, hr, hid⟩ := mem_remoteIds.mp hremote
      rcases mem_rows_adopted_of_known h ho hoid with hold | ⟨r', hp, rfl⟩
      · exact ((hm r hr oid hid).1 ⟨o, hold, hoid⟩).2 o hold hoid
      · obtain ⟨hr', hid', hunknown⟩ := mem_toAdopt.mp hp
        have hopen := (hm r' hr' oid hid').2 hunknown
        rcases adoptedRow_status now oid r' with ⟨hterm, _⟩ | ⟨_, _, hlive⟩
        · exact absurd hterm hopen
        · exact hlive

/-- **When `IN_SYNC` can be believed.** On a snapshot that lists orders, a report of
    `IN_SYNC` means equal open books exactly when the run fails on the adoption, or sees
    local drift (and does not report it), or every remote order was mirrored before. -/
theorem inSync_agrees_iff (db : ReconDb) (syncType : String) (book : BrokerBook) (now : Int)
    (hne : book.orders ≠ []) :
    InSyncSound db syncType book now ↔
      AdoptionClashes db book ∨ LocalDrift db book ∨ RemoteMirrored db book := by
  cases hi : db.orders.insertAll (adoptedRows now db.orders book) with
  | none =>
    have hclash : AdoptionClashes db book := by
      by_contra hno
      have := (adoption_stores_iff now).mpr hno
      simp [hi] at this
    have hraise : reconcile db syncType (.ok book) now = .error .integrityError := by
      simp [reconcile, hi]
    exact ⟨fun _ => Or.inl hclash, fun _ db' out h => by rw [hraise] at h; cases h⟩
  | some orders =>
    have hstored := (adoption_stores_iff now).mp (Option.isSome_of_eq_some hi)
    obtain ⟨db', out, hrun⟩ : ∃ db' out, reconcile db syncType (.ok book) now = .ok (db', out) := by
      simp [reconcile, hi]
    obtain ⟨orders', hi', horders, _⟩ := reconcile_ok hrun
    cases hi.symm.trans hi'
    have hkept : db'.orders = orders := by rw [horders, compareBooks, if_pos hne]
    have hsync := reconcile_inSync_iff hne hrun
    constructor
    · intro hsound
      by_cases hdrift : LocalDrift db book
      · exact Or.inr (Or.inl hdrift)
      · have hagree := hsound db' out hrun (hsync.mpr hdrift)
        rw [hkept] at hagree
        exact Or.inr (Or.inr ((openBooksAgree_adopted_iff hi hdrift).mp hagree))
    · rintro (hclash | hdrift | hm) db'' out'' hrun' hres
      · exact absurd hclash hstored
      · rw [hrun] at hrun'; cases hrun'
        exact absurd hdrift (hsync.mp hres)
      · rw [hrun] at hrun'; cases hrun'
        rw [hkept]
        exact (openBooksAgree_adopted_iff hi (hsync.mp hres)).mpr hm

end Reconcile

/-! ## A live order behind a cancelled row -/

section Example

attribute [local instance] asciiCasing

def liveRemote : RemoteOrder :=
  { brokerOrderId := some "B1", status := some "accepted", filledQty := 0, submittedAt := none,
    raw := { symbol := some "AAPL", side := some "buy", qty := .number 10,
             orderType := some "LMT", type_ := none } }

def liveBook : BrokerBook := { orders := [liveRemote], positionCount := 0, accountCash := none }

def rowWithStatus (status : String) : Order :=
  { brokerOrderId := some "B1", idempotencyKey := "wf:AAPL:buy:BUY", symbol := "AAPL",
    side := "buy", qty := 10, orderType := "limit", limitPrice := some 100, stopPrice := some 95,
    status := status, decisionId := none, submittedAt := none, rawPayload := [], createdAt := 0 }

def tableWithStatus (status : String) : ReconDb :=
  { orders := ⟨[rowWithStatus status], by simp⟩, runs := [] }

/-- The order was closed locally (a stale clearing, a lost cancel) and lives on at the
    broker: the run still reports `IN_SYNC`. -/
theorem inSync_over_cancelled_row :
    ¬ InSyncSound (tableWithStatus "CANCELLED") "SCHEDULED" liveBook 1 := by
  intro h
  have hadopt : adoptedRows 1 (tableWithStatus "CANCELLED").orders liveBook = [] := by rfl
  have hrun : reconcile (tableWithStatus "CANCELLED") "SCHEDULED" (.ok liveBook) 1 =
      .ok ({ orders := (tableWithStatus "CANCELLED").orders,
             runs := [{ syncType := "SCHEDULED", result := .inSync, issues := [],
                        remoteOpenOrders := 1, adoptedOrders := 0, createdAt := 1 }] },
        { result := .inSync, issues := [], adoptedOrders := 0 }) := by
    rw [reconcile, hadopt]; rfl
  have hopen := ((h _ _ hrun rfl).1 "B1").mp (by decide)
  exact absurd hopen (by decide)

/-- With the row still open the same snapshot is mirrored, and the report can be believed. -/
theorem inSync_agrees_iff_working :
    InSyncSound (tableWithStatus "ACCEPTED") "SCHEDULED" liveBook 1 := by
  refine (inSync_agrees_iff (tableWithStatus "ACCEPTED") "SCHEDULED" liveBook 1 (by decide)).mpr
    (Or.inr (Or.inr ?_))
  intro r hr oid hid
  obtain rfl : r = liveRemote := by simpa [liveBook] using hr
  obtain rfl : "B1" = oid := Option.some.inj hid
  refine ⟨fun _ => ⟨by decide, ?_⟩, fun hunknown => ?_⟩
  · intro o ho _
    obtain rfl : o = rowWithStatus "ACCEPTED" := by simpa [tableWithStatus] using ho
    decide
  · exact absurd ⟨rowWithStatus "ACCEPTED", by simp [tableWithStatus], rfl⟩ hunknown

end Example

end Investor.Execution
