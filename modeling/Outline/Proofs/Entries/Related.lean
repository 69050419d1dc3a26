/-
Module: Outline.Proofs.Entries.Related
Layer: Proofs
Purpose: Optional values of which both are missing, or both are there and correspond to each other. They come from lists
  of corresponding elements, and what is done with them is the same if it is for corresponding values.
Main exports: missing_or_found_of_rel, apply_of_rel, rel_or, isSome_of_rel, rel_head?
-/
import Mathlib.Data.List.Forall2

namespace Outline

variable {α β : Type} {R : α → β → Prop} {o other : Option α} {o' other' : Option β}

/-- Corresponding values are both missing or both there. -/
theorem missing_or_found_of_rel (rel : Option.Rel R o o') :
    o = none ∧ o' = none ∨ ∃ a b, o = some a ∧ o' = some b ∧ R a b := by
  cases rel with
  | none => exact .inl ⟨rfl, rfl⟩
  | some corresponds => exact .inr ⟨_, _, rfl, rfl, corresponds⟩

/-- What is done with a value that may be missing is the same if it is for corresponding values. -/
theorem apply_of_rel {α γ : Type} {R : α → α → Prop} {f : Option α → γ} {o o' : Option α} (rel : Option.Rel R o o')
    (same : ∀ a a', o = some a → R a a' → f (some a') = f (some a)) : f o' = f o := by
  cases rel with
  | none => rfl
  | some corresponds => exact same _ _ rfl corresponds

/-- Choosing the first of two optional values keeps them related. -/
theorem rel_or (rel : Option.Rel R o o') (otherwise : Option.Rel R other other') :
    Option.Rel R (o.or other) (o'.or other') := by
  cases rel with
  | none => exact otherwise
  | some corresponds => exact .some corresponds

/-- Of two related optional values both are there or neither. -/
theorem isSome_of_rel (rel : Option.Rel R o o') : o'.isSome = o.isSome := by
  cases rel <;> rfl

theorem rel_head? {as : List α} {bs : List β} (rel : List.Forall₂ R as bs) : Option.Rel R as.head? bs.head? := by
  cases rel with
  | nil => exact .none
  | cons corresponds _ => exact .some corresponds

end Outline
