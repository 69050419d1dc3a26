/-
Module: Outline.Proofs.Reading.Agreement
Layer: Proofs
Purpose: When two readings agree: they log the same events and end with the same failure, or with values that are
  related. Agreement passes through the steps from which readings are put together, so that it is enough to look
  at the steps in which two readings differ.
Main exports: ResultsAgree, Reading.Agrees, Reading.Agrees.bind, Reading.Agrees.after, Reading.Agrees.collect
-/
import Mathlib.Data.List.Forall2
import Outline.Reading

namespace Outline

variable {ε α β γ δ : Type}

/-- The same failure, or related values. -/
inductive ResultsAgree (R : α → β → Prop) : Except ε α → Except ε β → Prop where
  | ok {a : α} {b : β} (values : R a b) : ResultsAgree R (.ok a) (.ok b)
  | error (e : ε) : ResultsAgree R (.error e) (.error e)

namespace ResultsAgree

/-- A result agrees with itself. -/
theorem refl (r : Except ε α) : ResultsAgree (· = ·) r r := by
  cases r with
  | ok a => exact .ok rfl
  | error e => exact .error e

/-- Results of which the values are equal are equal. -/
theorem eq {r r' : Except ε α} (agree : ResultsAgree (· = ·) r r') : r = r' := by
  cases agree with
  | ok values => rw [values]
  | error e => rfl

/-- Values may be related more loosely. -/
theorem mono {R S : α → β → Prop} {r : Except ε α} {r' : Except ε β} (agree : ResultsAgree R r r')
    (weaker : ∀ a b, R a b → S a b) : ResultsAgree S r r' := by
  cases agree with
  | ok values => exact .ok (weaker _ _ values)
  | error e => exact .error e

/-- Failures may be reworded on both sides. -/
theorem mapError {ε' : Type} {R : α → β → Prop} {r : Except ε α} {r' : Except ε β} (agree : ResultsAgree R r r')
    (f : ε → ε') : ResultsAgree R (r.mapError f) (r'.mapError f) := by
  cases agree with
  | ok values => exact .ok values
  | error e => exact .error (f e)

/-- If related values are got by a function, so are the results. -/
theorem map_eq {R : α → β → Prop} {f : α → β} {r : Except ε α} {r' : Except ε β} (agree : ResultsAgree R r r')
    (got : ∀ a b, R a b → f a = b) : r.map f = r' := by
  cases agree with
  | ok values => exact congrArg Except.ok (got _ _ values)
  | error e => rfl

/-- Agreement under a function of the values. -/
theorem map {R : α → β → Prop} {S : γ → δ → Prop} {f : α → γ} {g : β → δ} {r : Except ε α} {r' : Except ε β}
    (agree : ResultsAgree R r r') (maps : ∀ a b, R a b → S (f a) (g b)) :
    ResultsAgree S (r.map f) (r'.map g) := by
  cases agree with
  | ok values => exact .ok (maps _ _ values)
  | error e => exact .error e

end ResultsAgree

namespace Reading

/-- The same events, and the same failure or related values. -/
structure Agrees (R : α → β → Prop) (x : Reading α) (y : Reading β) : Prop where
  events : x.events = y.events
  result : ResultsAgree R x.result y.result

namespace Agrees

variable {R : α → β → Prop} {S : γ → δ → Prop}

/-- A reading agrees with itself. -/
theorem refl (x : Reading α) : Agrees (· = ·) x x := ⟨rfl, .refl _⟩

theorem pure {a : α} {b : β} (values : R a b) : Agrees R (Pure.pure a) (Pure.pure b) := ⟨rfl, .ok values⟩

/-- What is read of a node is its text. -/
theorem read (src : Source) (n : Node) :
    Agrees (fun text text' => text = text' ∧ src.textOf n = .ok text) (Reading.read src n) (Reading.read src n) := by
  refine ⟨rfl, ?_⟩
  unfold Reading.read
  cases src.textOf n with
  | ok text => exact .ok ⟨rfl, rfl⟩
  | error span => exact .error span

/-- Steps that agree, put after steps that agree. -/
theorem bind {x : Reading α} {y : Reading β} {f : α → Reading γ} {g : β → Reading δ} (first : Agrees R x y)
    (next : ∀ a b, R a b → Agrees S (f a) (g b)) : Agrees S (x >>= f) (y >>= g) := by
  obtain ⟨xEvents, xResult⟩ := x
  obtain ⟨yEvents, yResult⟩ := y
  obtain ⟨events, result⟩ := first
  cases result with
  | error e => exact ⟨events, .error e⟩
  | ok values =>
      have rest := next _ _ values
      refine ⟨?_, rest.result⟩
      exact congrArg₂ (· ++ ·) events rest.events

/-- Steps that agree, put after one and the same step. -/
theorem after {f g : α → Reading β} {T : β → β → Prop} (x : Reading α) (next : ∀ a, Agrees T (f a) (g a)) :
    Agrees T (x >>= f) (x >>= g) := by
  refine bind (refl x) ?_
  rintro a _ rfl
  exact next a

/-- Lists read element by element. -/
theorem collect {f : γ → Reading α} {g : γ → Reading β} (each : ∀ c, Agrees R (f c) (g c)) (cs : List γ) :
    Agrees (List.Forall₂ R) (Reading.collect f cs) (Reading.collect g cs) := by
  induction cs with
  | nil => exact pure .nil
  | cons c cs ih =>
      refine bind (each c) fun a b head => ?_
      refine bind ih fun as bs tail => ?_
      exact pure (.cons head tail)

end Agrees

end Reading

end Outline
