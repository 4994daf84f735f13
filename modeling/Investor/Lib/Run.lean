import Mathlib.Data.List.Basic

/-!
# Runs of a labelled step function

A component that answers calls one after another is a step function
`step : σ → α → σ` on a state `σ` and an operation `α`; a run is the fold of `step`
over a list of operations. Three ways of proving something about every state a run
reaches live here.

* `run_invariant`: the invariant holds first and every step keeps it.
* `run_invariant_of_meets`: every step keeps it *provided* the step meets a
  condition, and every step of the run does. The condition may look at the state
  the step is taken in, so it is a predicate on the run (`StepsMeet`), not on the
  list of operations.
* `all_reached_iff`: where a step keeps the invariant exactly if it meets the condition, so
  does a run.

What grows by one in each step that meets a condition counts these steps (`measure_run`). What
steps give and take is left as the last of them left it (`run_holds_iff`).

Nothing here is about any one program: `σ`, `α` and `step` are parameters.
-/

namespace Investor.Lib

variable {σ α : Type*}

/-- The state after a list of operations. -/
def runFrom (step : σ → α → σ) (s : σ) (ops : List α) : σ := ops.foldl step s

@[simp] theorem runFrom_nil (step : σ → α → σ) (s : σ) : runFrom step s [] = s := rfl

@[simp] theorem runFrom_cons (step : σ → α → σ) (s : σ) (a : α) (ops : List α) :
    runFrom step s (a :: ops) = runFrom step (step s a) ops := rfl

theorem runFrom_append (step : σ → α → σ) (s : σ) (xs ys : List α) :
    runFrom step s (xs ++ ys) = runFrom step (runFrom step s xs) ys :=
  List.foldl_append

theorem runFrom_concat (step : σ → α → σ) (s : σ) (ops : List α) (a : α) :
    runFrom step s (ops ++ [a]) = step (runFrom step s ops) a :=
  runFrom_append step s ops [a]

/-- Every step of the run meets `meets` in the state it is taken in. -/
def StepsMeet (step : σ → α → σ) (meets : σ → α → Prop) : σ → List α → Prop
  | _, [] => True
  | s, a :: ops => meets s a ∧ StepsMeet step meets (step s a) ops

instance decidableStepsMeet (step : σ → α → σ) (meets : σ → α → Prop)
    [∀ s a, Decidable (meets s a)] : (s : σ) → (ops : List α) → Decidable (StepsMeet step meets s ops)
  | _, [] => .isTrue trivial
  | s, a :: ops =>
    have := decidableStepsMeet step meets (step s a) ops
    inferInstanceAs (Decidable (meets s a ∧ StepsMeet step meets (step s a) ops))

/-- How many steps of the run meet `meets` in the state they are taken in. -/
def timesMet (step : σ → α → σ) (meets : σ → α → Bool) : σ → List α → ℕ
  | _, [] => 0
  | s, a :: ops => (if meets s a then 1 else 0) + timesMet step meets (step s a) ops

/-- The steps of a run, each with the state it is taken in. -/
def stepsOf (step : σ → α → σ) : σ → List α → List (σ × α)
  | _, [] => []
  | s, a :: ops => (s, a) :: stepsOf step (step s a) ops

section Runs

variable {step : σ → α → σ} {meets : σ → α → Prop} {Inv : σ → Prop}

@[simp] theorem StepsMeet.nil (s : σ) : StepsMeet step meets s [] := trivial

theorem StepsMeet.cons_iff {s : σ} {a : α} {ops : List α} :
    StepsMeet step meets s (a :: ops) ↔ meets s a ∧ StepsMeet step meets (step s a) ops :=
  Iff.rfl

theorem StepsMeet.append_iff {s : σ} {xs ys : List α} :
    StepsMeet step meets s (xs ++ ys) ↔
      StepsMeet step meets s xs ∧ StepsMeet step meets (runFrom step s xs) ys := by
  induction xs generalizing s with
  | nil => simp
  | cons a xs ih => simp only [List.cons_append, StepsMeet.cons_iff, runFrom_cons, ih, and_assoc]

theorem StepsMeet.of_prefix {s : σ} {xs ys : List α} (h : StepsMeet step meets s ys)
    (hp : xs <+: ys) : StepsMeet step meets s xs := by
  obtain ⟨zs, rfl⟩ := hp
  exact (StepsMeet.append_iff.mp h).1

theorem run_invariant_of_meets (keeps : ∀ s a, Inv s → meets s a → Inv (step s a)) {s : σ}
    {ops : List α} (hinv : Inv s) (h : StepsMeet step meets s ops) :
    Inv (runFrom step s ops) := by
  induction ops generalizing s with
  | nil => exact hinv
  | cons a ops ih => exact ih (keeps s a hinv h.1) h.2

theorem all_reached_iff (hstep : ∀ s a, Inv s → (Inv (step s a) ↔ meets s a)) {s : σ}
    {ops : List α} (hinv : Inv s) :
    (∀ done, done <+: ops → Inv (runFrom step s done)) ↔ StepsMeet step meets s ops := by
  induction ops generalizing s with
  | nil =>
    refine iff_of_true (fun done hdone => ?_) (StepsMeet.nil s)
    rw [List.prefix_nil.mp hdone]
    exact hinv
  | cons a ops ih =>
    rw [StepsMeet.cons_iff]
    constructor
    · intro h
      have hnext : Inv (step s a) := h [a] ((List.prefix_cons_inj a).mpr List.nil_prefix)
      refine ⟨(hstep s a hinv).mp hnext, (ih hnext).mp fun done hdone => ?_⟩
      exact h (a :: done) ((List.prefix_cons_inj a).mpr hdone)
    · rintro ⟨hmeets, hrest⟩ done hdone
      cases done with
      | nil => exact hinv
      | cons b done =>
        obtain ⟨rfl, hshort⟩ := List.cons_prefix_cons.mp hdone
        exact (ih ((hstep s b hinv).mpr hmeets)).mpr hrest done hshort

theorem StepsMeet.gives {gives : σ → α → Prop}
    (keeps : ∀ s a, Inv s → meets s a → Inv (step s a) ∧ gives s a) {s : σ} {ops : List α}
    (hinv : Inv s) (h : StepsMeet step meets s ops) : StepsMeet step gives s ops := by
  induction ops generalizing s with
  | nil => exact trivial
  | cons a ops ih =>
    obtain ⟨hnext, hgives⟩ := keeps s a hinv h.1
    exact ⟨hgives, ih hnext h.2⟩

theorem measure_run {meets : σ → α → Bool} {measure : σ → ℕ}
    (hstep : ∀ s a, measure (step s a) = measure s + if meets s a then 1 else 0) (s : σ)
    (ops : List α) :
    measure (runFrom step s ops) = measure s + timesMet step meets s ops := by
  induction ops generalizing s with
  | nil => rfl
  | cons a ops ih => rw [runFrom_cons, ih, hstep, timesMet, Nat.add_assoc]

theorem run_invariant (keeps : ∀ s a, Inv s → Inv (step s a)) {s : σ} {ops : List α}
    (hinv : Inv s) : Inv (runFrom step s ops) := by
  induction ops generalizing s with
  | nil => exact hinv
  | cons a ops ih => exact ih (keeps s a hinv)

theorem mem_of_stepsOf {s : σ} {ops : List α} {x : σ × α} (hx : x ∈ stepsOf step s ops) :
    x.2 ∈ ops := by
  induction ops generalizing s with
  | nil => cases hx
  | cons a ops ih =>
    rcases List.mem_cons.mp hx with rfl | hx
    · exact List.mem_cons_self
    · exact List.mem_cons_of_mem _ (ih hx)

theorem run_gathers_iff {P : σ → Prop} {gives : σ → α → Prop}
    (hstep : ∀ s a, P (step s a) ↔ P s ∨ gives s a) (s : σ) (ops : List α) :
    P (runFrom step s ops) ↔ P s ∨ ∃ x ∈ stepsOf step s ops, gives x.1 x.2 := by
  induction ops generalizing s with
  | nil => simp [stepsOf]
  | cons a ops ih => rw [runFrom_cons, ih, hstep, stepsOf, List.exists_mem_cons_iff, or_assoc]

theorem run_of_stepsOf {P : σ → Prop} (keeps : ∀ s a, P s → P (step s a)) {s : σ} {ops : List α}
    {x : σ × α} (hx : x ∈ stepsOf step s ops) (hP : P x.1) : P (runFrom step s ops) := by
  induction ops generalizing s with
  | nil => cases hx
  | cons a ops ih =>
    rcases List.mem_cons.mp hx with rfl | hx
    · exact run_invariant keeps hP
    · exact ih hx

theorem run_holds_iff {P : σ → Prop} {gives takes : σ → α → Prop} {s : σ} {ops : List α}
    (hstep : ∀ x ∈ stepsOf step s ops,
      (P (step x.1 x.2) ↔ gives x.1 x.2 ∨ P x.1 ∧ ¬ takes x.1 x.2)) :
    P (runFrom step s ops) ↔
      (∃ done x rest, stepsOf step s ops = done ++ x :: rest ∧ gives x.1 x.2 ∧
        ∀ y ∈ rest, ¬ takes y.1 y.2) ∨
      P s ∧ ∀ y ∈ stepsOf step s ops, ¬ takes y.1 y.2 := by
  induction ops generalizing s with
  | nil => simp [stepsOf]
  | cons a ops ih =>
    have hfirst : P (step s a) ↔ gives s a ∨ P s ∧ ¬ takes s a := hstep (s, a) List.mem_cons_self
    rw [runFrom_cons, ih fun x hx => hstep x (List.mem_cons_of_mem _ hx), hfirst]
    simp only [stepsOf, List.forall_mem_cons]
    constructor
    · rintro (⟨done, x, rest, hsplit, hgives, hrest⟩ | ⟨hgives | ⟨hP, hfirst⟩, hrest⟩)
      · exact .inl ⟨(s, a) :: done, x, rest, by rw [hsplit]; rfl, hgives, hrest⟩
      · exact .inl ⟨[], (s, a), _, rfl, hgives, hrest⟩
      · exact .inr ⟨hP, hfirst, hrest⟩
    -- what gives it is the first step, or comes after it
    · rintro (⟨done, x, rest, hsplit, hgives, hrest⟩ | ⟨hP, hfirst, hrest⟩)
      · cases done with
        | nil =>
          obtain ⟨rfl, rfl⟩ := List.cons.inj hsplit
          exact .inr ⟨.inl hgives, hrest⟩
        | cons y done => exact .inl ⟨done, x, rest, (List.cons.inj hsplit).2, hgives, hrest⟩
      · exact .inr ⟨.inr ⟨hP, hfirst⟩, hrest⟩

end Runs

end Investor.Lib
