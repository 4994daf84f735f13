import Mathlib.Data.List.Basic

/-!
# Computations that may raise, over a state that outlives them

`Eff σ ε α` is a computation over a state `σ` that ends in a value or in an exception of
type `ε`. The state is kept on both ways out, as the memory of a program is kept when an
exception is raised. Statements about such computations are triples with two
postconditions (`Spec P p Q E`): from a state in `P` the computation ends with a value in
`Q` or with an exception in `E`. There is one rule for each way of building a
computation, and `Keeps I p` is the case where one assertion holds throughout.

Nothing here is about any one program.
-/

namespace Investor.Lib

/-- A computation over a state, ending in a value or an exception. -/
def Eff (σ ε α : Type) := σ → Except ε α × σ

namespace Eff

variable {σ ε α β : Type}

instance : Monad (Eff σ ε) where
  pure a := fun s => (.ok a, s)
  bind p f := fun s =>
    match p s with
    | (.ok a, s') => f a s'
    | (.error e, s') => (.error e, s')

instance : MonadExceptOf ε (Eff σ ε) where
  throw e := fun s => (.error e, s)
  tryCatch p handler := fun s =>
    match p s with
    | (.ok a, s') => (.ok a, s')
    | (.error e, s') => handler e s'

/-- The state. -/
def read : Eff σ ε σ := fun s => (.ok s, s)

/-- Rewrites the state. -/
def edit (f : σ → σ) : Eff σ ε Unit := fun s => (.ok (), f s)

def attempt (p : Eff σ ε α) : Eff σ ε (Except ε α) := fun s =>
  match p s with
  | (r, s') => (.ok r, s')

def forEach {ι : Type} (f : ι → Eff σ ε Unit) : List ι → Eff σ ε Unit
  | [] => pure ()
  | x :: xs => do
    f x
    forEach f xs

/-! ## How a computation goes on -/

theorem bind_of_ok {p : Eff σ ε α} {f : α → Eff σ ε β} {s s' : σ} {a : α}
    (h : p s = (.ok a, s')) : (p >>= f) s = f a s' := by
  show (match p s with
    | (.ok a, s') => f a s'
    | (.error e, s') => (.error e, s')) = f a s'
  rw [h]

theorem bind_of_error {p : Eff σ ε α} {f : α → Eff σ ε β} {s s' : σ} {e : ε}
    (h : p s = (.error e, s')) : (p >>= f) s = (.error e, s') := by
  show (match p s with
    | (.ok a, s') => f a s'
    | (.error e, s') => (.error e, s')) = (.error e, s')
  rw [h]

theorem bind_of_eq {p q : Eff σ ε α} {f : α → Eff σ ε β} {s s' : σ} (h : p s = q s') :
    (p >>= f) s = (q >>= f) s' := by
  show (match p s with
    | (.ok a, s') => f a s'
    | (.error e, s') => (.error e, s')) = (q >>= f) s'
  rw [h]
  rfl

theorem bind_bind {γ : Type} (p : Eff σ ε α) (f : α → Eff σ ε β) (g : β → Eff σ ε γ) :
    p >>= f >>= g = p >>= fun a => f a >>= g := by
  funext s
  cases h : p s with
  | mk r s' =>
    cases r with
    | ok a =>
      show (match (p >>= f) s with
        | (.ok b, s'') => g b s''
        | (.error e, s'') => (.error e, s'')) = (p >>= fun a => f a >>= g) s
      rw [bind_of_ok h, bind_of_ok h]
      rfl
    | error e => rw [bind_of_error (bind_of_error h), bind_of_error h]

theorem tryCatch_of_ok {p : Eff σ ε α} {handler : ε → Eff σ ε α} {s s' : σ} {a : α}
    (h : p s = (.ok a, s')) : (tryCatch p handler : Eff σ ε α) s = (.ok a, s') := by
  show (match p s with
    | (.ok a, s') => (.ok a, s')
    | (.error e, s') => handler e s') = (Except.ok a, s')
  rw [h]

theorem tryCatch_of_error {p : Eff σ ε α} {handler : ε → Eff σ ε α} {s s' : σ} {e : ε}
    (h : p s = (.error e, s')) : (tryCatch p handler : Eff σ ε α) s = handler e s' := by
  show (match p s with
    | (.ok a, s') => (.ok a, s')
    | (.error e, s') => handler e s') = handler e s'
  rw [h]

/-! ## Triples -/

/-- From a state in `P` the computation ends with a value in `Q` or an exception in `E`. -/
def Spec (P : σ → Prop) (p : Eff σ ε α) (Q : α → σ → Prop) (E : ε → σ → Prop) : Prop :=
  ∀ s, P s →
    match p s with
    | (.ok a, s') => Q a s'
    | (.error e, s') => E e s'

/-- From a state in `P` the computation ends with a value in `Q`. -/
abbrev Goes (P : σ → Prop) (p : Eff σ ε α) (Q : α → σ → Prop) : Prop :=
  Spec P p Q fun _ _ => False

/-- The assertion holds before, and after, however the computation ends. -/
def Keeps (I : σ → Prop) (p : Eff σ ε α) : Prop := Spec I p (fun _ => I) (fun _ => I)

variable {P P' : σ → Prop} {Q Q' : α → σ → Prop} {E E' : ε → σ → Prop} {I : σ → Prop}
  {p : Eff σ ε α}

theorem Spec.weaken (h : Spec P' p Q' E') (hP : ∀ s, P s → P' s) (hQ : ∀ a s, Q' a s → Q a s)
    (hE : ∀ e s, E' e s → E e s) : Spec P p Q E := by
  intro s hs
  have hend := h s (hP s hs)
  cases hp : p s with
  | mk r s' =>
    rw [hp] at hend
    cases r with
    | ok a => exact hQ a s' hend
    | error e => exact hE e s' hend

theorem Spec.pre (h : Spec P' p Q E) (hP : ∀ s, P s → P' s) : Spec P p Q E :=
  h.weaken hP (fun _ _ hq => hq) fun _ _ he => he

theorem Spec.pure {a : α} (h : ∀ s, P s → Q a s) : Spec P (pure a : Eff σ ε α) Q E :=
  fun s hs => h s hs

theorem Spec.throw {e : ε} (h : ∀ s, P s → E e s) : Spec P (throw e : Eff σ ε α) Q E :=
  fun s hs => h s hs

theorem Spec.read {Q : σ → σ → Prop} (h : ∀ s, P s → Q s s) :
    Spec P (Eff.read : Eff σ ε σ) Q E :=
  fun s hs => h s hs

theorem Spec.edit {f : σ → σ} {Q : Unit → σ → Prop} (h : ∀ s, P s → Q () (f s)) :
    Spec P (Eff.edit f : Eff σ ε Unit) Q E :=
  fun s hs => h s hs

theorem Spec.bind {f : α → Eff σ ε β} {M : α → σ → Prop} {R : β → σ → Prop}
    (hp : Spec P p M E) (hf : ∀ a, Spec (M a) (f a) R E) : Spec P (p >>= f) R E := by
  intro s hs
  have hmid := hp s hs
  show match (match p s with
    | (.ok a, s') => f a s'
    | (.error e, s') => (.error e, s')) with
    | (.ok b, s') => R b s'
    | (.error e, s') => E e s'
  cases h : p s with
  | mk r s' =>
    rw [h] at hmid
    cases r with
    | ok a => exact hf a s' hmid
    | error e => exact hmid

theorem Spec.map {f : α → β} {R : β → σ → Prop} (hp : Spec P p (fun a => R (f a)) E) :
    Spec P (f <$> p) R E :=
  Spec.bind hp fun _ => Spec.pure fun _ hs => hs

theorem Spec.tryCatch {handler : ε → Eff σ ε α} {X : ε → σ → Prop} (hp : Spec P p Q X)
    (hh : ∀ e, Spec (X e) (handler e) Q E) : Spec P (tryCatch p handler) Q E := by
  intro s hs
  have hmid := hp s hs
  show match (match p s with
    | (.ok a, s') => (Except.ok a, s')
    | (.error e, s') => handler e s') with
    | (.ok a, s') => Q a s'
    | (.error e, s') => E e s'
  cases h : p s with
  | mk r s' =>
    rw [h] at hmid
    cases r with
    | ok a => exact hmid
    | error e => exact hh e s' hmid

theorem Spec.ite {c : Prop} [Decidable c] {q : Eff σ ε α} (ht : c → Spec P p Q E)
    (hf : ¬ c → Spec P q Q E) : Spec P (if c then p else q) Q E := by
  split
  · rename_i h; exact ht h
  · rename_i h; exact hf h

theorem Spec.any : Spec P p (fun _ _ => True) (fun _ _ => True) := by
  intro s _
  cases p s with
  | mk r s' => cases r <;> trivial

theorem Spec.assume {c : Prop} (h : c → Spec P p Q E) : Spec (fun s => P s ∧ c) p Q E :=
  fun s hs => h hs.2 s hs.1

theorem Spec.and (h : Spec P p Q E) (h' : Spec P' p Q' E') :
    Spec (fun s => P s ∧ P' s) p (fun a s => Q a s ∧ Q' a s) (fun e s => E e s ∧ E' e s) := by
  intro s hs
  have hend := h s hs.1
  have hend' := h' s hs.2
  cases hp : p s with
  | mk r s' =>
    rw [hp] at hend hend'
    cases r with
    | ok a => exact ⟨hend, hend'⟩
    | error e => exact ⟨hend, hend'⟩

theorem Goes.ends (h : Goes P p Q) {s : σ} (hs : P s) :
    ∃ a s', p s = (.ok a, s') ∧ Q a s' := by
  have hend := h s hs
  cases hp : p s with
  | mk r s' =>
    rw [hp] at hend
    cases r with
    | ok a => exact ⟨a, s', rfl, hend⟩
    | error e => exact absurd hend id

theorem Spec.attempt {R : Except ε α → σ → Prop}
    (hp : Spec P p (fun a => R (Except.ok a)) (fun e => R (Except.error e))) :
    Spec P (attempt p) R E := by
  intro s hs
  have hend := hp s hs
  unfold Eff.attempt
  cases h : p s with
  | mk r s' =>
    rw [h] at hend
    cases r with
    | ok a => exact hend
    | error e => exact hend

/-! ## One assertion throughout -/

theorem keeps_pure {a : α} : Keeps I (pure a : Eff σ ε α) := Spec.pure fun _ hs => hs

theorem keeps_throw {e : ε} : Keeps I (throw e : Eff σ ε α) := Spec.throw fun _ hs => hs

theorem keeps_read : Keeps I (read : Eff σ ε σ) := Spec.read fun _ hs => hs

theorem keeps_edit {f : σ → σ} (h : ∀ s, I s → I (f s)) : Keeps I (edit f : Eff σ ε Unit) :=
  Spec.edit h

theorem Keeps.bind {f : α → Eff σ ε β} (hp : Keeps I p) (hf : ∀ a, Keeps I (f a)) :
    Keeps I (p >>= f) :=
  Spec.bind hp hf

theorem Keeps.ite {c : Prop} [Decidable c] {q : Eff σ ε α} (hp : Keeps I p) (hq : Keeps I q) :
    Keeps I (if c then p else q) :=
  Spec.ite (fun _ => hp) fun _ => hq

theorem Keeps.tryCatch {handler : ε → Eff σ ε α} (hp : Keeps I p) (hh : ∀ e, Keeps I (handler e)) :
    Keeps I (tryCatch p handler) :=
  Spec.tryCatch hp hh

theorem Keeps.attempt (hp : Keeps I p) : Keeps I (attempt p : Eff σ ε (Except ε α)) :=
  Spec.attempt hp

theorem keeps_forEach {ι : Type} {f : ι → Eff σ ε Unit} {xs : List ι} (h : ∀ x, Keeps I (f x)) :
    Keeps I (forEach f xs) := by
  induction xs with
  | nil => exact keeps_pure
  | cons x xs ih => exact Keeps.bind (h x) fun _ => ih

theorem keeps_of_step {R : σ → σ → Prop}
    (h : ∀ s, Spec (· = s) p (fun _ => R s) (fun _ => R s)) (hI : ∀ s s', I s → R s s' → I s') :
    Keeps I p :=
  fun s hs => (h s).weaken (fun _ h => h) (fun _ s' hr => hI s s' hs hr)
    (fun _ s' hr => hI s s' hs hr) s rfl

theorem Spec.at_end {R : σ → Prop} (h : Spec P p (fun _ => R) (fun _ => R)) {s : σ} (hs : P s) :
    R (p s).2 := by
  have hend := h s hs
  cases hp : p s with
  | mk r s' =>
    rw [hp] at hend
    cases r with
    | ok a => exact hend
    | error e => exact hend

theorem Spec.of_ok (h : Spec P p Q E) {s s' : σ} {a : α} (hs : P s) (hp : p s = (.ok a, s')) :
    Q a s' := by
  have hend := h s hs
  rw [hp] at hend
  exact hend

theorem Spec.of_end {R : σ → Prop} (h : Spec P p (fun _ => R) (fun _ => R)) {r : Except ε α}
    {s s' : σ} (hs : P s) (hp : p s = (r, s')) : R s' := by
  have hend := h.at_end hs
  rw [hp] at hend
  exact hend

theorem Keeps.at_end (h : Keeps I p) {s : σ} (hs : I s) : I (p s).2 := Spec.at_end h hs

end Eff

end Investor.Lib
