import Investor.Core.Runtime

/-!
# Calls of other services

A service the modelled code calls and whose own work is not modelled, such as the data
collection or the agent committee, is an await that answers or raises. A flush may have failed
in it, which leaves the session broken. What it answers is a function of the number of awaits
so far, as all of the outside is.
-/

namespace Investor.Core

open Lib

structure ServiceAnswer (α : Type) where
  reply : Except Fault α
  /-- A flush failed in it. -/
  breaks : Bool

def answers {α : Type} (a : α) : ServiceAnswer α := { reply := .ok a, breaks := false }

/-- A call that raises and leaves the session usable. -/
def raises {α : Type} (e : Fault) : ServiceAnswer α := { reply := .error e, breaks := false }

/-- `except Exception`: everything but a cancellation is caught. -/
def exceptException {α : Type} (p : Prog α) (handler : Fault → Prog α) : Prog α :=
  tryCatch p fun e => if e.isException then handler e else throw e

section Handled

variable {α : Type} {p : Prog α} {handler : Fault → Prog α} {e : Fault} {w w' : World}

theorem exceptException_of_ok {a : α} (h : p w = (.ok a, w')) :
    exceptException p handler w = (.ok a, w') :=
  Eff.tryCatch_of_ok h

theorem exceptException_of_exception (h : p w = (.error e, w')) (he : e.isException = true) :
    exceptException p handler w = handler e w' := by
  have hcaught : exceptException p handler w = _ := Eff.tryCatch_of_error h
  rw [hcaught, if_pos he]

theorem exceptException_of_cancelled (h : p w = (.error .cancelled, w')) :
    exceptException p handler w = (.error .cancelled, w') :=
  Eff.tryCatch_of_error h

end Handled

section Services

variable (env : Env) {α : Type}

def abortIf (breaks : Bool) : Prog Unit := if breaks then abort else pure ()

def callService (answer : Nat → ServiceAnswer α) : Prog α := do
  suspend env
  let w ← Eff.read
  abortIf (answer w.ticks).breaks
  match (answer w.ticks).reply with
  | .ok x => return x
  | .error e => throw e

theorem callService_eq {answer : Nat → ServiceAnswer α} {w : World} :
    callService env answer w =
      if w.timed && env.cut w.ticks then (.error .cancelled, w.tick)
      else ((answer (w.ticks + 1)).reply,
        if (answer (w.ticks + 1)).breaks then { w.tick with db := w.db.abort } else w.tick) := by
  by_cases hcut : w.timed && env.cut w.ticks
  · have hawait : suspend env w = (.error .cancelled, w.tick) := by simp [suspend, hcut]
    rw [if_pos hcut]
    exact Eff.bind_of_error hawait
  · have hawait : suspend env w = (.ok (), w.tick) := by simp [suspend, hcut]
    have hread : (Eff.read : Prog World) w.tick = (.ok w.tick, w.tick) := rfl
    have habort : abortIf (answer w.tick.ticks).breaks w.tick =
        (.ok (), if (answer (w.ticks + 1)).breaks then { w.tick with db := w.db.abort }
          else w.tick) := by
      unfold abortIf
      rw [World.ticks_tick]
      split <;> rfl
    rw [if_neg hcut]
    unfold callService
    rw [Eff.bind_of_ok hawait, Eff.bind_of_ok hread, Eff.bind_of_ok habort]
    show (match (answer (w.ticks + 1)).reply with
      | .ok x => (pure x : Prog α)
      | .error e => throw e) _ = _
    cases (answer (w.ticks + 1)).reply <;> rfl

end Services

/-- What a world is after a call that answered: the session is as it was, or it is broken. -/
structure Answered {α : Type} (answer : Nat → ServiceAnswer α) (w₀ : World) (x : α) (w : World) :
    Prop where
  accepted : w.accepted = w₀.accepted
  ticks : w.ticks = w₀.ticks + 1
  usable : w.db.broken = false → w.db = w₀.db ∧ answer (w₀.ticks + 1) = answers x

theorem callService_answered {env : Env} {α : Type} {answer : Nat → ServiceAnswer α}
    {w₀ : World} : Eff.Spec (· = w₀) (callService env answer) (Answered answer w₀)
      (fun _ w => w.accepted = w₀.accepted) := by
  rintro w rfl
  rw [callService_eq]
  by_cases hcut : w.timed && env.cut w.ticks
  · rw [if_pos hcut]
    rfl
  · rw [if_neg hcut]
    cases hreply : (answer (w.ticks + 1)).reply with
    | error e =>
      dsimp only
      split <;> rfl
    | ok x =>
      dsimp only
      by_cases hbreaks : (answer (w.ticks + 1)).breaks = true
      · rw [if_pos hbreaks]
        exact ⟨rfl, rfl, fun hb => absurd hb (by simp)⟩
      · rw [if_neg hbreaks]
        refine ⟨rfl, rfl, fun _ => ⟨rfl, ?_⟩⟩
        cases h : answer (w.ticks + 1) with
        | mk reply breaks =>
          rw [h] at hreply hbreaks
          cases hreply
          simp only [Bool.not_eq_true] at hbreaks
          subst hbreaks
          rfl

theorem callService_goes {env : Env} {α : Type} {answer : Nat → ServiceAnswer α} {w : World}
    {x : α} (huncut : (w.timed && env.cut w.ticks) = false)
    (hanswer : answer (w.ticks + 1) = answers x) :
    callService env answer w = (.ok x, w.tick) := by
  rw [callService_eq, if_neg (by rw [huncut]; exact Bool.false_ne_true), hanswer]
  rfl

section Keeps

variable {env : Env} {I : World → Prop} {α : Type}

theorem callService_spec {answer : Nat → ServiceAnswer α} (hI : Calm I) :
    Eff.Spec I (callService env answer) (fun x w => I w ∧ ∃ n, (answer n).reply = .ok x)
      (fun _ => I) := by
  refine Eff.Spec.bind (keeps_suspend hI) fun _ => Eff.Spec.bind Eff.keeps_read fun w => ?_
  refine Eff.Spec.bind (M := fun _ => I) ?_ fun _ => ?_
  · exact Eff.Keeps.ite (keeps_abort hI) Eff.keeps_pure
  · cases hreply : (answer w.ticks).reply with
    | ok x => exact Eff.Spec.pure fun w' hw => ⟨hw, w.ticks, hreply⟩
    | error e => exact Eff.Spec.throw fun w' hw => hw

theorem keeps_callService {answer : Nat → ServiceAnswer α} (hI : Calm I) :
    Eff.Keeps I (callService env answer) :=
  (callService_spec hI).weaken (fun _ h => h) (fun _ _ h => h.1) fun _ _ h => h

theorem Keeps.exceptException {p : Prog α} {handler : Fault → Prog α} (hp : Eff.Keeps I p)
    (hh : ∀ e, Eff.Keeps I (handler e)) : Eff.Keeps I (exceptException p handler) :=
  Eff.Keeps.tryCatch hp fun e => Eff.Keeps.ite (hh e) Eff.keeps_throw

end Keeps

end Investor.Core
