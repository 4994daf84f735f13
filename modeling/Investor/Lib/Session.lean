import Mathlib.Data.List.Basic

/-!
# Database sessions

A session holds what was committed and what it works on. Reads and writes see the
working tables; `commit` publishes them, `rollback` drops them. A failed flush rolls the
transaction back and leaves the session broken: nothing can be committed until it is
rolled back.
-/

namespace Investor.Lib

/-- A transaction over tables `τ`. -/
structure Session (τ : Type) where
  committed : τ
  working : τ
  broken : Bool

namespace Session

variable {τ : Type}

/-- A fresh transaction over committed tables. -/
def fresh (t : τ) : Session τ := { committed := t, working := t, broken := false }

def write (s : Session τ) (f : τ → τ) : Session τ := { s with working := f s.working }

def rollback (s : Session τ) : Session τ := fresh s.committed

def abort (s : Session τ) : Session τ := { s.rollback with broken := true }

def commit (s : Session τ) : Option (Session τ) :=
  if s.broken then none else some (fresh s.working)

@[simp] theorem committed_write (s : Session τ) (f : τ → τ) :
    (s.write f).committed = s.committed := rfl

@[simp] theorem working_write (s : Session τ) (f : τ → τ) :
    (s.write f).working = f s.working := rfl

@[simp] theorem broken_write (s : Session τ) (f : τ → τ) : (s.write f).broken = s.broken := rfl

@[simp] theorem committed_rollback (s : Session τ) : s.rollback.committed = s.committed := rfl

@[simp] theorem working_rollback (s : Session τ) : s.rollback.working = s.committed := rfl

@[simp] theorem broken_rollback (s : Session τ) : s.rollback.broken = false := rfl

@[simp] theorem committed_abort (s : Session τ) : s.abort.committed = s.committed := rfl

@[simp] theorem broken_abort (s : Session τ) : s.abort.broken = true := rfl

theorem commit_eq_some_iff {s s' : Session τ} :
    s.commit = some s' ↔ s.broken = false ∧ s' = fresh s.working := by
  unfold commit
  cases s.broken <;> simp [eq_comm]

end Session

end Investor.Lib
