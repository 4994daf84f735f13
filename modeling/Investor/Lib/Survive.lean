import Mathlib.Data.List.Forall2

/-!
# What survives the rewriting of a list

A pass over a list maps its items, drops some, appends others. `Survives R keep xs ys`
says that each item of `xs` in `keep` has an item of `ys` in `keep` that it is related to,
one for each and in their order: none is lost and no two become one. There is one rule
for each way of writing a pass, and the rules compose.

Nothing here is about any one program.
-/

namespace Investor.Lib

variable {α σ β : Type} {R : α → α → Prop} {keep keep' : α → Bool} {xs ys zs : List α}

theorem sublistForall₂_filter_map {f : α → α}
    (h : ∀ x ∈ xs, keep x → keep' (f x) ∧ R x (f x)) :
    List.SublistForall₂ R (xs.filter keep) ((xs.map f).filter keep') := by
  induction xs with
  | nil => exact List.SublistForall₂.nil
  | cons x xs ih =>
    have htail := ih fun y hy => h y (List.mem_cons_of_mem _ hy)
    by_cases hx : keep x
    · obtain ⟨hkeep, hrel⟩ := h x (List.mem_cons_self ..) hx
      rw [List.filter_cons_of_pos hx, List.map_cons, List.filter_cons_of_pos hkeep]
      exact List.SublistForall₂.cons hrel htail
    · rw [List.filter_cons_of_neg hx, List.map_cons]
      by_cases hy : keep' (f x)
      · rw [List.filter_cons_of_pos hy]
        exact List.SublistForall₂.cons_right htail
      · rw [List.filter_cons_of_neg hy]
        exact htail

theorem sublistForall₂_of_filter {q : α → Bool} (h : List.SublistForall₂ R xs (ys.filter q)) :
    List.SublistForall₂ (fun x y => R x y ∧ q y) xs ys := by
  obtain ⟨l, hrel, hsub⟩ := List.sublistForall₂_iff.mp h
  refine List.sublistForall₂_iff.mpr ⟨l, ?_, hsub.trans List.filter_sublist⟩
  have hq : ∀ y ∈ l, q y := fun y hy => (List.mem_filter.mp (hsub.subset hy)).2
  clear hsub h
  induction hrel with
  | nil => exact List.Forall₂.nil
  | cons hxy _ ih =>
    exact List.Forall₂.cons ⟨hxy, hq _ (List.mem_cons_self ..)⟩
      (ih fun y hy => hq y (List.mem_cons_of_mem _ hy))

/-- Each item of the first list in `keep` is carried to an item of the second in `keep`. -/
def Survives (R : α → α → Prop) (keep : α → Bool) (xs ys : List α) : Prop :=
  List.SublistForall₂ R (xs.filter keep) (ys.filter keep)

theorem Survives.of_eq [Std.Refl R] (h : ys.filter keep = xs.filter keep) :
    Survives R keep xs ys := by
  unfold Survives
  rw [h]
  exact refl_of (List.SublistForall₂ R) _

theorem Survives.refl [Std.Refl R] : Survives R keep xs xs := Survives.of_eq rfl

theorem Survives.trans [IsTrans α R] (h : Survives R keep xs ys) (h' : Survives R keep ys zs) :
    Survives R keep xs zs :=
  trans_of (List.SublistForall₂ R) h h'

theorem Survives.map {f : α → α} (h : ∀ x ∈ xs, keep x → keep (f x) ∧ R x (f x)) :
    Survives R keep xs (xs.map f) :=
  sublistForall₂_filter_map h

theorem Survives.filter [Std.Refl R] {q : α → Bool} (h : ∀ x, keep x → q x) :
    Survives R keep xs (xs.filter q) := by
  refine Survives.of_eq ?_
  rw [List.filter_filter]
  refine List.filter_congr fun x _ => ?_
  by_cases hx : keep x <;> simp [hx, h x]

theorem Survives.append_right (h : Survives R keep xs ys) : Survives R keep xs (ys ++ zs) := by
  unfold Survives
  rw [List.filter_append]
  obtain ⟨l, hrel, hsub⟩ := List.sublistForall₂_iff.mp h
  exact List.sublistForall₂_iff.mpr ⟨l, hrel, hsub.trans (List.sublist_append_left _ _)⟩

theorem filter_replaced {c : α → Prop} [DecidablePred c] {y : α} (hy : keep y = false)
    (hc : ∀ x, c x → keep x = false) :
    (xs.map fun x => if c x then y else x).filter keep = xs.filter keep := by
  induction xs with
  | nil => rfl
  | cons x xs ih =>
    rw [List.map_cons]
    by_cases hx : c x
    · rw [if_pos hx, List.filter_cons_of_neg (by simp [hy]),
        List.filter_cons_of_neg (by simp [hc x hx]), ih]
    · rw [if_neg hx, List.filter_cons, List.filter_cons, ih]

theorem foldlM_keeps {I : σ → Prop} {step : σ → β → Option σ} {items : List β}
    (hstep : ∀ s, I s → ∀ b ∈ items, ∀ s' ∈ step s b, I s') {s s' : σ}
    (hfold : items.foldlM step s = some s') (hs : I s) : I s' := by
  induction items generalizing s with
  | nil =>
    cases hfold
    exact hs
  | cons b items ih =>
    rw [List.foldlM_cons] at hfold
    obtain ⟨s₁, h₁, hrest⟩ := Option.bind_eq_some_iff.mp hfold
    exact ih (fun s hs c hc => hstep s hs c (List.mem_cons_of_mem _ hc)) hrest
      (hstep s hs b (List.mem_cons_self ..) s₁ h₁)

end Investor.Lib
