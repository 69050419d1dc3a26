/-
Module: Outline.Proofs.Reading.Ensures
Layer: Proofs
Purpose: What can be said of the value that a reading ends with, if it ends with one, and how such statements pass
  through the steps of a reading.
Main exports: Reading.Ensures, Reading.Ensures.bind, Reading.Ensures.after, Reading.Ensures.collect,
  Reading.result_bind_iff, Reading.result_collect_iff
-/
import Mathlib.Data.List.Forall2
import Outline.Reading

namespace Outline.Reading

variable {α β : Type}

/-!
### Values
-/

/-- A value comes from what is read first and what is made of it. -/
theorem result_bind_iff {x : Reading α} {f : α → Reading β} {b : β} :
    (x >>= f).result = .ok b ↔ ∃ a, x.result = .ok a ∧ (f a).result = .ok b := by
  obtain ⟨events, result⟩ := x
  cases result with
  | error e => exact ⟨nofun, nofun⟩
  | ok a =>
      constructor
      · exact fun ended => ⟨a, rfl, ended⟩
      · rintro ⟨_, same, ended⟩
        cases same
        exact ended

theorem result_pure_iff {a b : α} : (Pure.pure a : Reading α).result = .ok b ↔ a = b :=
  ⟨Except.ok.inj, congrArg Except.ok⟩

/-- The values of a list are those of its elements. -/
theorem result_collect_iff {f : α → Reading β} {as : List α} {bs : List β} :
    (collect f as).result = .ok bs ↔ List.Forall₂ (fun a b => (f a).result = .ok b) as bs := by
  induction as generalizing bs with
  | nil => rw [collect, result_pure_iff, List.forall₂_nil_left_iff, eq_comm]
  | cons a as ih =>
      simp only [collect, result_bind_iff, result_pure_iff, ih, List.forall₂_cons_left_iff]
      constructor
      · rintro ⟨b, first, rest, others, rfl⟩
        exact ⟨b, rest, first, others, rfl⟩
      · rintro ⟨b, rest, first, others, rfl⟩
        exact ⟨b, first, rest, others, rfl⟩

/-!
### What can be said of them
-/

/-- If the reading ends with a value, it satisfies `R`. -/
def Ensures (R : α → Prop) (x : Reading α) : Prop := ∀ a, x.result = .ok a → R a

namespace Ensures

theorem pure {R : α → Prop} {a : α} (value : R a) : Ensures R (Pure.pure a) := by
  intro b ended
  cases ended
  exact value

theorem read (src : Source) (n : Node) : Ensures (fun text => src.textOf n = .ok text) (Reading.read src n) :=
  fun _ ended => ended

/-- What two readings in turn ensure: the second starts from what the first answers. -/
theorem bind {R : α → Prop} {S : β → Prop} {x : Reading α} {f : α → Reading β} (first : Ensures R x)
    (next : ∀ a, R a → Ensures S (f a)) : Ensures S (x >>= f) := by
  intro b ended
  obtain ⟨events, result⟩ := x
  cases result with
  | error e => cases ended
  | ok a => exact next a (first a rfl) b ended

/-- Nothing need be known of the first value. -/
theorem after {S : β → Prop} (x : Reading α) {f : α → Reading β} (next : ∀ a, Ensures S (f a)) :
    Ensures S (x >>= f) :=
  bind (fun _ _ => trivial) fun a (_ : True) => next a

/-- Each element of a list that was read comes from one that was to be read. -/
theorem collect {R : α → β → Prop} {f : α → Reading β} {as : List α} (each : ∀ a ∈ as, Ensures (R a) (f a)) :
    Ensures (fun bs => ∀ b ∈ bs, ∃ a ∈ as, R a b) (Reading.collect f as) := by
  induction as with
  | nil => exact pure fun b mem => absurd mem List.not_mem_nil
  | cons a as ih =>
      refine bind (each a List.mem_cons_self) fun b head => ?_
      refine bind (ih fun c mem => each c (List.mem_cons_of_mem a mem)) fun bs tail => ?_
      refine pure fun c mem => ?_
      rcases List.mem_cons.1 mem with rfl | mem
      · exact ⟨a, List.mem_cons_self, head⟩
      · obtain ⟨d, among, related⟩ := tail c mem
        exact ⟨d, List.mem_cons_of_mem a among, related⟩

end Ensures

end Outline.Reading
