import Investor.Lib.Effect
import Investor.Lib.Session
import Investor.Execution.Orders
import Investor.Execution.Pretrade
import Investor.Workflow.States
import Investor.Workflow.Lease

/-!
# The runtime of the services

A service is a coroutine over one database session and one broker. Its state is the
`World`; its programs are computations that may raise (`Eff`). What the outside does is
a function of the number of awaits so far, collected in `Env`: the clock, whether a
cancellation is delivered there, whether a flush fails, and the answers of the broker.

A cancellation is delivered at an await, and only inside `wait_for`, which turns it
into a `TimeoutError`. A broker call has two awaits: the broker may have accepted the
order and the answer still be lost. What it accepted is not part of the session: no
rollback takes it back.
-/

namespace Investor.Core

open Lib Execution

/-- What a coroutine may raise. `CancelledError` is the one that `except Exception` lets
    through. -/
inductive Fault
  | cancelled
  | timeout
  | broker (message : String)
  | workflow (message : String)
  | other (message : String)
  deriving DecidableEq

def Fault.isException : Fault → Bool
  | .cancelled => false
  | _ => true

/-- `str(exc)`. -/
def Fault.text : Fault → String
  | .cancelled => ""
  | .timeout => ""
  | .broker message => message
  | .workflow message => message
  | .other message => message

/-- `ScheduledJobRecord`, the columns the dispatcher writes. -/
structure ScheduledJob where
  id : Nat
  jobKey : String
  status : String
  error : Option String
  plannedAt : Int
  startedAt : Option Int
  completedAt : Option Int

/-- `PretradeRiskCheck`: the check of an intent, as it was stored. -/
structure PretradeRiskCheck where
  intentId : Nat
  decisionId : Option String
  result : Pretrade.PretradeCheckResult

structure Tables where
  orders : OrderTable
  intents : IntentTable
  approvals : List OrderApproval
  jobs : List ScheduledJob
  runs : Workflow.RunTable := KeyedTable.empty
  /-- `workflow_leases`, by their keys. -/
  leases : Dict Workflow.LeaseRow := []
  /-- `pretrade_risk_checks`, oldest first. -/
  checks : List PretradeRiskCheck := []

structure AcceptedOrder where
  request : OrderRequest
  plan : String

structure World where
  db : Session Tables
  /-- What the broker accepted, oldest first. -/
  accepted : List AcceptedOrder
  ticks : Nat
  timed : Bool
  /-- What the broker was handed, accepted or not. -/
  sent : List AcceptedOrder := []

/-- The broker's reaction to a submission: whether it takes the order, and what the caller
    hears. -/
structure SubmitAnswer where
  accepts : Bool
  reply : Except Fault OrderResult

structure Env where
  now : Nat → Int
  cut : Nat → Bool
  flushFails : Nat → Bool
  submitAnswer : Nat → OrderRequest → SubmitAnswer
  cancelAnswer : Nat → String → Except Fault OrderStatus
  /-- `get_order_by_client_id`, where the adapter has it. -/
  clientOrders : Option (Nat → String → Except Fault (Option OrderResult))
  livePrice : Nat → String → Option ℚ

abbrev Prog (α : Type) := Eff World Fault α

def World.tick (w : World) : World := { w with ticks := w.ticks + 1 }

@[simp] theorem World.db_tick (w : World) : w.tick.db = w.db := rfl

@[simp] theorem World.accepted_tick (w : World) : w.tick.accepted = w.accepted := rfl

@[simp] theorem World.sent_tick (w : World) : w.tick.sent = w.sent := rfl

@[simp] theorem World.ticks_tick (w : World) : w.tick.ticks = w.ticks + 1 := rfl

@[simp] theorem World.timed_tick (w : World) : w.tick.timed = w.timed := rfl

def acceptedSince (w₀ w : World) : List AcceptedOrder := w.accepted.drop w₀.accepted.length

def sentSince (w₀ w : World) : List AcceptedOrder := w.sent.drop w₀.sent.length

/-- A log that has only grown, by what meets `P`. -/
structure Grown (P : AcceptedOrder → Prop) (log₀ log : List AcceptedOrder) : Prop where
  grows : log₀ <+: log
  new : ∀ o ∈ log.drop log₀.length, P o

/-- At most one order was added to a log: for the plan, under the key. -/
def OneMore (k plan : String) (log₀ log : List AcceptedOrder) : Prop :=
  log = log₀ ∨ ∃ req, req.idempotencyKey = k ∧ log = log₀ ++ [{ request := req, plan }]

section Grown

variable {P Q : AcceptedOrder → Prop} {log₀ log log' : List AcceptedOrder}

theorem Grown.refl : Grown P log log := ⟨List.prefix_refl _, fun o ho => by simp at ho⟩

theorem Grown.imp (h : Grown P log₀ log) (hP : ∀ o, P o → Q o) : Grown Q log₀ log :=
  ⟨h.grows, fun o ho => hP o (h.new o ho)⟩

theorem Grown.oneMore {k plan : String} (h : Grown P log₀ log) (hmore : OneMore k plan log log')
    (hnew : log' ≠ log → ∀ req, req.idempotencyKey = k → P { request := req, plan }) :
    Grown P log₀ log' := by
  rcases hmore with rfl | ⟨req, hreq, rfl⟩
  · exact h
  · refine ⟨h.grows.trans (List.prefix_append _ _), fun o ho => ?_⟩
    rw [List.drop_append_of_le_length h.grows.length_le] at ho
    rcases List.mem_append.mp ho with ho | ho
    · exact h.new o ho
    · obtain rfl := List.mem_singleton.mp ho
      exact hnew (by simp) req hreq

end Grown

section Programs

variable (env : Env)

def suspend : Prog Unit := fun w =>
  if w.timed && env.cut w.ticks then (.error .cancelled, w.tick) else (.ok (), w.tick)

def query {α : Type} (f : Tables → α) : Prog α := do
  suspend env
  let w ← Eff.read
  if w.db.broken then throw (.other "PendingRollbackError") else return f w.db.working

def write (f : Tables → Tables) : Prog Unit := Eff.edit fun w => { w with db := w.db.write f }

def abort : Prog Unit := Eff.edit fun w => { w with db := w.db.abort }

/-- `session.flush()`. -/
def flush : Prog Unit := do
  suspend env
  let w ← Eff.read
  if w.db.broken then throw (.other "PendingRollbackError")
  else if env.flushFails w.ticks then do
    abort
    throw (.other "flush failed")
  else return ()

/-- `session.commit()`. -/
def commit : Prog Unit := do
  flush env
  let w ← Eff.read
  match w.db.commit with
  | none => throw (.other "PendingRollbackError")
  | some db => Eff.edit fun w => { w with db }

def rollback : Prog Unit := Eff.edit fun w => { w with db := w.db.rollback }

/-- `asyncio.wait_for`: cancellations are delivered inside, and come out as a timeout. -/
def waitFor {α : Type} (p : Prog α) : Prog α := do
  Eff.edit fun w => { w with timed := true }
  let ended ← Eff.attempt p
  Eff.edit fun w => { w with timed := false }
  match ended with
  | .ok a => return a
  | .error .cancelled => throw .timeout
  | .error e => throw e

/-- `broker.submit_order`, for the plan of the given key. -/
def brokerSubmit (plan : String) (req : OrderRequest) : Prog OrderResult := do
  suspend env
  let w ← Eff.read
  let answer := env.submitAnswer w.ticks req
  Eff.edit fun w => { w with sent := w.sent ++ [{ request := req, plan }] }
  Eff.edit fun w =>
    if answer.accepts then { w with accepted := w.accepted ++ [{ request := req, plan }] } else w
  suspend env
  match answer.reply with
  | .ok result => return result
  | .error e => throw e

/-- `broker.cancel_order`. -/
def brokerCancel (oid : String) : Prog OrderStatus := do
  suspend env
  let w ← Eff.read
  match env.cancelAnswer w.ticks oid with
  | .ok status => return status
  | .error e => throw e

end Programs

theorem query_goes {env : Env} {α : Type} {f : Tables → α} {w : World}
    (husable : w.db.broken = false) (huncut : (w.timed && env.cut w.ticks) = false) :
    query env f w = (.ok (f w.db.working), w.tick) := by
  have hawait : suspend env w = (.ok (), w.tick) := by simp [suspend, huncut]
  simp [query, bind, hawait, Eff.read, husable, pure]

/-! ## What leaves the tables alone -/

/-- An assertion that an await and a failed flush keep. -/
structure Calm (I : World → Prop) : Prop where
  tick : ∀ w, I w → I w.tick
  abort : ∀ w, I w → I { w with db := w.db.abort }

section Calm

variable {env : Env} {I : World → Prop}

theorem suspend_spec (hI : Calm I) :
    Eff.Spec I (suspend env) (fun _ => I) (fun e w => e = .cancelled ∧ I w) := by
  intro w hw
  unfold suspend
  by_cases hcut : w.timed && env.cut w.ticks
  · rw [if_pos hcut]
    exact ⟨rfl, hI.tick w hw⟩
  · rw [if_neg hcut]
    exact hI.tick w hw

theorem keeps_suspend (hI : Calm I) : Eff.Keeps I (suspend env) :=
  (suspend_spec hI).weaken (fun _ h => h) (fun _ _ h => h) fun _ _ h => h.2

theorem keeps_abort (hI : Calm I) : Eff.Keeps I abort := Eff.keeps_edit hI.abort

theorem query_spec {α : Type} {f : Tables → α} (hI : Calm I) :
    Eff.Spec I (query env f)
      (fun a w => I w ∧ w.db.broken = false ∧ a = f w.db.working) (fun _ => I) := by
  refine Eff.Spec.bind (keeps_suspend hI) fun _ => ?_
  refine Eff.Spec.bind (M := fun w₁ w => I w ∧ w₁ = w)
    (Eff.Spec.read fun w hw => ⟨hw, rfl⟩) fun w₁ => ?_
  refine Eff.Spec.ite (fun _ => Eff.Spec.throw fun w hw => hw.1) fun h => Eff.Spec.pure ?_
  rintro w ⟨hw, rfl⟩
  exact ⟨hw, by simpa using h, rfl⟩

theorem keeps_query {α : Type} {f : Tables → α} (hI : Calm I) : Eff.Keeps I (query env f) :=
  (query_spec hI).weaken (fun _ h => h) (fun _ _ h => h.1) fun _ _ h => h

theorem flush_stops (hI : Calm I) :
    Eff.Spec I (flush env) (fun _ w => I w ∧ w.db.broken = false)
      (fun e w => I w ∧ (e = .cancelled ∨ w.db.broken = true)) := by
  refine Eff.Spec.bind ((suspend_spec hI).weaken (fun _ hw => hw) (fun _ _ hw => hw)
    fun _ _ hw => ⟨hw.2, Or.inl hw.1⟩) fun _ => ?_
  refine Eff.Spec.bind (M := fun w₁ w => I w ∧ w₁ = w)
    (Eff.Spec.read fun w hw => ⟨hw, rfl⟩) fun w₁ => ?_
  refine Eff.Spec.ite (fun h => Eff.Spec.throw ?_) fun h => ?_
  · rintro w ⟨hw, rfl⟩
    exact ⟨hw, Or.inr h⟩
  refine Eff.Spec.ite (fun _ => ?_) fun _ => Eff.Spec.pure ?_
  · refine Eff.Spec.bind (M := fun _ w => I w ∧ w.db.broken = true) (Eff.Spec.edit ?_) fun _ =>
      Eff.Spec.throw fun w hw => ⟨hw.1, Or.inr hw.2⟩
    exact fun w hw => ⟨hI.abort w hw.1, rfl⟩
  · rintro w ⟨hw, rfl⟩
    exact ⟨hw, by simpa using h⟩

theorem flush_spec (hI : Calm I) :
    Eff.Spec I (flush env) (fun _ w => I w ∧ w.db.broken = false) (fun _ => I) :=
  (flush_stops hI).weaken (fun _ hw => hw) (fun _ _ hw => hw) fun _ _ hw => hw.1

theorem keeps_flush (hI : Calm I) : Eff.Keeps I (flush env) :=
  (flush_spec hI).weaken (fun _ h => h) (fun _ _ h => h.1) fun _ _ h => h

theorem commit_spec (env : Env) (hI : Calm I) :
    Eff.Spec I (commit env)
      (fun _ w' => ∃ w, I w ∧ w.db.broken = false ∧
        w' = { w with db := Session.fresh w.db.working })
      (fun _ => I) := by
  refine Eff.Spec.bind (flush_spec hI) fun _ => ?_
  refine Eff.Spec.bind (M := fun w₁ w => I w ∧ w.db.broken = false ∧ w₁ = w)
    (Eff.Spec.read fun w hw => ⟨hw.1, hw.2, rfl⟩) fun w₁ => ?_
  cases hcommit : w₁.db.commit with
  | none => exact Eff.Spec.throw fun w hw => hw.1
  | some db =>
    refine Eff.Spec.edit fun w hw => ⟨w, hw.1, hw.2.1, ?_⟩
    obtain ⟨_, rfl⟩ := Session.commit_eq_some_iff.mp hcommit
    rw [hw.2.2]

/-- Outside `wait_for` a commit goes through unless the session is broken or its flush
    fails. -/
def CommitsAt (env : Env) (w : World) : Prop :=
  w.db.broken = false ∧ env.flushFails (w.ticks + 1) = false

theorem commit_ok_iff {w : World} (htimed : w.timed = false) :
    (commit env w).1 = .ok () ↔ CommitsAt env w := by
  obtain ⟨⟨c, t, broken⟩, accepted, ticks, timed, sent⟩ := w
  subst htimed
  cases broken <;> cases hf : env.flushFails (ticks + 1) <;>
    simp [commit, flush, suspend, bind, Eff.read, pure, throw, throwThe, MonadExceptOf.throw,
      World.tick, abort, Eff.edit, hf, CommitsAt, Session.commit, Session.abort]

theorem keeps_brokerCancel {oid : String} (hI : Calm I) : Eff.Keeps I (brokerCancel env oid) := by
  refine Eff.Keeps.bind (keeps_suspend hI) fun _ => Eff.Keeps.bind Eff.keeps_read fun w => ?_
  cases env.cancelAnswer w.ticks oid with
  | ok status => exact Eff.keeps_pure
  | error e => exact Eff.keeps_throw

end Calm

/-! ## A mock world -/

/-- No rows, nothing accepted, outside any `wait_for`. -/
def emptyWorld : World :=
  { db := Session.fresh { orders := KeyedTable.empty, intents := KeyedTable.empty,
                          approvals := [], jobs := [] }
    accepted := [], ticks := 0, timed := false }

/-- A broker that accepts every order, and a cancellation at the given awaits. -/
def acceptingEnv (cut : Nat → Bool) : Env :=
  { now := fun _ => 0, cut, flushFails := fun _ => false
    submitAnswer := fun _ req =>
      { accepts := true
        reply := .ok { brokerOrderId := "mock-" ++ req.idempotencyKey, status := .accepted,
                       submittedAt := 0, filledQty := 0, avgFillPrice := none, raw := [] } }
    cancelAnswer := fun _ _ => .ok .canceled, clientOrders := none,
    livePrice := fun _ _ => none }

end Investor.Core
