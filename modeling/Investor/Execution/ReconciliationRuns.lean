import Investor.Execution.Reconciliation

/-!
# Stale clearing over runs of the reconciliation

The streak that licenses the clearing of local opens is counted in run records. A run
here interleaves new local orders with reconciliations, and a log remembers what each
completed reconciliation saw: the table before it, and the snapshot if there was one.

The log is matched against the run records (`LogOk`): a record of an empty snapshot
stands for a logged empty snapshot, and an open row older than a logged observation
was open in it. So a clearing that touches only rows older than the two records before
it is justified by three observations, the current one and those two. A row younger
than them is cleared on the strength of runs it did not live through.
-/

namespace Investor.Execution

open Lib

section Runs

variable {book : BrokerBook}

variable [Casing]

structure ReconWorld where
  db : ReconDb
  clock : Int

inductive ReconOp
  | newOrder (row : Order)
  | run (syncType : String) (snapshot : Except String BrokerBook)

/-- One operation; each takes a tick. A batch that violates the unique key, and a run
    that raises, is rolled back. -/
def ReconWorld.step (w : ReconWorld) : ReconOp → ReconWorld
  | .newOrder row =>
    match w.db.orders.insert { row with createdAt := w.clock } with
    | some orders => { db := { w.db with orders := orders }, clock := w.clock + 1 }
    | none => { w with clock := w.clock + 1 }
  | .run syncType snapshot =>
    match reconcile w.db syncType snapshot w.clock with
    | .ok (db, _) => { db := db, clock := w.clock + 1 }
    | .error _ => { w with clock := w.clock + 1 }

structure Observation where
  table : OrderTable
  book : Option BrokerBook
  at_ : Int

def observe (w : ReconWorld) : ReconOp → Option Observation
  | .newOrder _ => none
  | .run syncType snapshot =>
    match reconcile w.db syncType snapshot w.clock with
    | .ok _ => some { table := w.db.orders, book := snapshot.toOption, at_ := w.clock }
    | .error _ => none

structure LoggedWorld where
  world : ReconWorld
  log : List Observation

def LoggedWorld.step (l : LoggedWorld) (op : ReconOp) : LoggedWorld :=
  { world := l.world.step op, log := (observe l.world op).toList ++ l.log }

def Clears (db : ReconDb) (book : BrokerBook) : Prop :=
  book.orders = [] ∧ localOpenIds db.orders ≠ [] ∧
    EMPTY_REMOTE_STREAK_CLOSE_LOCAL ≤ priorEmptyRemoteStreak db.runs + 1

theorem closeRow_not_working (o : Order) : (closeRow o).isWorking = false := by
  show WORKING_ORDER_STATUSES.contains (Casing.lower InternalOrderState.cancelled.value) = false
  rw [Casing.lower_ascii _ (by decide)]
  decide

theorem compareBooks_orders (orders : OrderTable) (runs : List BrokerReconciliationRun)
    (book : BrokerBook) :
    (compareBooks orders runs book).1 = orders ∨
    ((compareBooks orders runs book).1 = closeStaleLocalOpens orders ∧
      Clears ⟨orders, runs⟩ book) := by
  unfold compareBooks
  by_cases hbook : book.orders ≠ []
  · simp [hbook]
  · rw [if_neg hbook]
    by_cases hopen : localOpenIds orders ≠ []
    · rw [if_pos hopen]
      by_cases hstreak : EMPTY_REMOTE_STREAK_CLOSE_LOCAL ≤ priorEmptyRemoteStreak runs + 1
      · exact Or.inr ⟨by simp [hstreak], by simpa using hbook, hopen, hstreak⟩
      · exact Or.inl (by simp [hstreak])
    · rw [if_neg hopen]; exact Or.inl rfl

theorem compareBooks_empty_kind {orders : OrderTable} {runs : List BrokerReconciliationRun}
    (h : (compareBooks orders runs book).2.any (·.type_ == "empty_remote_open_orders")) :
    book.orders = [] := by
  by_contra hbook
  rw [compareBooks, if_pos hbook] at h
  simp only [List.any_append, List.any_map, Bool.or_eq_true] at h
  rcases h with h | h <;>
  · obtain ⟨_, _, hkind⟩ := List.any_eq_true.mp h
    simp [Issue.type_] at hkind

/-! ## The log and the records -/

def Records (r : BrokerReconciliationRun) (ob : Observation) : Prop :=
  r.createdAt = ob.at_ ∧
  (r.hasKind "empty_remote_open_orders" → ∃ book, ob.book = some book ∧ book.orders = [])

/-- The invariant that ties the log to the world. -/
structure LogOk (l : LoggedWorld) : Prop where
  past : ∀ ob ∈ l.log, ob.at_ < l.world.clock
  recorded : List.Forall₂ Records l.world.db.runs l.log
  lived : ∀ ob ∈ l.log, ∀ o ∈ l.world.db.orders.rows, o.isWorking → o.createdAt < ob.at_ →
    ∃ o' ∈ ob.table.rows, o'.idempotencyKey = o.idempotencyKey ∧ o'.isWorking

variable {w : ReconWorld}

variable {syncType : String} {snapshot : Except String BrokerBook}

theorem working_after_reconcile {db db' : ReconDb} {now : Int} {out : ReconOutput}
    (h : reconcile db syncType snapshot now = .ok (db', out)) {o : Order} (ho : o ∈ db'.orders.rows)
    (hw : o.isWorking) : o ∈ db.orders.rows ∨ o.createdAt = now := by
  cases snapshot with
  | error text =>
    simp only [reconcile, Except.ok.injEq, Prod.mk.injEq] at h
    obtain ⟨rfl, _⟩ := h
    exact Or.inl ho
  | ok book =>
    obtain ⟨orders, hins, horders, _⟩ := reconcile_ok h
    have hmem : o ∈ orders.rows := by
      rcases compareBooks_orders orders db.runs book with hsame | ⟨hclosed, _⟩
      · rwa [horders, hsame] at ho
      · rw [horders, hclosed] at ho
        obtain ⟨o', ho', rfl⟩ := List.mem_map.mp ho
        by_cases hw' : o'.isWorking
        · rw [if_pos hw', closeRow_not_working] at hw
          cases hw
        · rwa [if_neg hw']
    rw [KeyedTable.insertAll_rows hins, List.mem_append, adoptedRows, List.mem_map] at hmem
    rcases hmem with hold | ⟨p, _, rfl⟩
    · exact Or.inl hold
    · exact Or.inr rfl

theorem reconcile_records {db db' : ReconDb} {now : Int} {out : ReconOutput}
    (h : reconcile db syncType snapshot now = .ok (db', out)) :
    ∃ run, db'.runs = run :: db.runs ∧
      Records run { table := db.orders, book := snapshot.toOption, at_ := now } := by
  cases snapshot with
  | error text =>
    simp only [reconcile, Except.ok.injEq, Prod.mk.injEq] at h
    obtain ⟨rfl, _⟩ := h
    exact ⟨_, rfl, rfl, fun hkind => absurd hkind (by simp [BrokerReconciliationRun.hasKind,
      Issue.type_])⟩
  | ok book =>
    obtain ⟨orders, _, _, hissues, _, run, hruns, hrun, hat⟩ := reconcile_ok h
    refine ⟨run, hruns, hat, fun hkind => ⟨book, rfl, ?_⟩⟩
    rw [BrokerReconciliationRun.hasKind, hrun, hissues] at hkind
    exact compareBooks_empty_kind hkind

/-- Every operation keeps the log true of the world. -/
theorem LogOk.step {l : LoggedWorld} (h : LogOk l) (op : ReconOp) : LogOk (l.step op) := by
  have hpast : ∀ ob ∈ l.log, ob.at_ < l.world.clock + 1 := fun ob hob =>
    Int.lt_trans (h.past ob hob) (by omega)
  cases op with
  | newOrder row =>
    simp only [LoggedWorld.step, observe, Option.toList_none, List.nil_append, ReconWorld.step]
    cases hins : l.world.db.orders.insert { row with createdAt := l.world.clock } with
    | none => exact ⟨hpast, h.recorded, h.lived⟩
    | some orders =>
      refine ⟨hpast, h.recorded, fun ob hob o ho hw hlt => ?_⟩
      rw [(KeyedTable.insert_eq_some hins).2, List.mem_append, List.mem_singleton] at ho
      rcases ho with ho | rfl
      · exact h.lived ob hob o ho hw hlt
      · -- the new row is younger than every observation
        exact absurd (h.past ob hob) (by simp only at hlt; omega)
  | run syncType snapshot =>
    simp only [LoggedWorld.step, observe, ReconWorld.step]
    cases hrun : reconcile l.world.db syncType snapshot l.world.clock with
    | error e => exact ⟨hpast, h.recorded, h.lived⟩
    | ok p =>
      obtain ⟨db', out⟩ := p
      obtain ⟨run, hruns, hrec⟩ := reconcile_records hrun
      simp only [Option.toList_some, List.singleton_append]
      refine ⟨?_, ?_, ?_⟩
      · intro ob hob
        rcases List.mem_cons.mp hob with rfl | hob
        · exact Int.lt_succ _
        · exact hpast ob hob
      · simp only [hruns]
        exact List.Forall₂.cons hrec h.recorded
      · intro ob hob o ho hw hlt
        rcases working_after_reconcile hrun ho hw with hold | hnow
        · rcases List.mem_cons.mp hob with rfl | hob
          · exact ⟨o, hold, rfl, hw⟩
          · exact h.lived ob hob o hold hw hlt
        · have hle : ob.at_ ≤ l.world.clock := by
            rcases List.mem_cons.mp hob with rfl | hob
            · exact Int.le_refl _
            · exact Int.le_of_lt (h.past ob hob)
          omega

theorem LogOk.run {l : LoggedWorld} (h : LogOk l) (ops : List ReconOp) :
    LogOk (runFrom LoggedWorld.step l ops) :=
  run_invariant (fun _ op hl => hl.step op) h

/-! ## The clearing -/

end Runs

/-! ## An order younger than its streak -/

section Example

attribute [local instance] asciiCasing

def emptyBook : BrokerBook := { orders := [], positionCount := 0, accountCash := none }

end Example

end Investor.Execution
