/-
Module: Outline.Proofs.Walk.Agreement
Layer: Proofs
Purpose: When two walks agree: from related tables they come to related tables, give out related declarations one
  for one, mark the same exports, log the same events, and end with the same failure or with related values.
  Agreement passes through the steps from which walks are put together.
Main exports: Outcome.Agrees, Walk.Agrees, Walk.Agrees.bind, Walk.Agrees.after, Walk.Agrees.forEach,
  Walk.Agrees.within, Walk.Agrees.absorb
-/
import Outline.Module.Walk
import Outline.Proofs.Reading.Agreement

namespace Outline

open Specifier (Resolved)

variable {α β γ δ : Type}

/-- What two walks leave behind agrees: the tables by `L`, the declarations by `D`, the values by `R`. -/
structure Outcome.Agrees (L : Links → Links → Prop) (D : Declaration → Declaration → Prop) (R : α → β → Prop)
    (o : Outcome α) (o' : Outcome β) : Prop where
  links : L o.links o'.links
  declarations : List.Forall₂ D o.declarations o'.declarations
  exports : o.exports = o'.exports
  events : o.events = o'.events
  result : ResultsAgree R o.result o'.result

/-- Outcomes that agree are equal where everything related is equal. -/
theorem Outcome.Agrees.eq {D : Declaration → Declaration → Prop} {R : α → α → Prop} {o o' : Outcome α}
    (agree : Outcome.Agrees (· = ·) D R o o') (sameDeclaration : ∀ d d', D d d' → d = d')
    (sameValue : ∀ a b, R a b → a = b) : o = o' := by
  obtain ⟨links, declarations, exports, events, result⟩ := agree
  have sameDeclarations : o.declarations = o'.declarations :=
    List.forall₂_eq_eq_eq ▸ declarations.imp sameDeclaration
  have sameResult : o.result = o'.result := (result.mono sameValue).eq
  cases o
  cases o'
  simp_all

namespace Walk

/-- From related tables, two walks leave behind what agrees. -/
def Agrees (L : Links → Links → Prop) (D : Declaration → Declaration → Prop) (R : α → β → Prop)
    (x : Walk α) (y : Walk β) : Prop :=
  ∀ l l', L l l' → Outcome.Agrees L D R (x l) (y l')

namespace Agrees

variable {L : Links → Links → Prop} {D : Declaration → Declaration → Prop} {R : α → β → Prop} {S : γ → δ → Prop}

theorem pure {a : α} {b : β} (values : R a b) : Agrees L D R (Pure.pure a) (Pure.pure b) :=
  fun _ _ links => ⟨links, .nil, rfl, rfl, .ok values⟩

/-- Walks that agree, after walks that agree. What the second walks give out comes behind what the first ones
    gave out, also when they fail. -/
theorem bind {x : Walk α} {y : Walk β} {f : α → Walk γ} {g : β → Walk δ} (first : Agrees L D R x y)
    (next : ∀ a b, R a b → Agrees L D S (f a) (g b)) : Agrees L D S (x >>= f) (y >>= g) := by
  intro l l' related
  obtain ⟨links, declarations, exports, events, result⟩ := first l l' related
  simp only [Bind.bind, Walk.bind]
  generalize x l = o at *
  generalize y l' = o' at *
  obtain ⟨_, _, _, _, xResult⟩ := o
  obtain ⟨_, _, _, _, yResult⟩ := o'
  cases result with
  | error e => exact ⟨links, declarations, exports, events, .error e⟩
  | ok values =>
      have rest := next _ _ values _ _ links
      exact ⟨rest.links, List.rel_append declarations rest.declarations,
        congrArg₂ (· ++ ·) exports rest.exports, congrArg₂ (· ++ ·) events rest.events, rest.result⟩

/-- Walks that agree, after walks that come to one and the same value. -/
theorem after {x y : Walk α} {f : α → Walk γ} {g : α → Walk δ} (first : Agrees L D (· = ·) x y)
    (next : ∀ a, Agrees L D S (f a) (g a)) : Agrees L D S (x >>= f) (y >>= g) := by
  refine bind first ?_
  rintro a _ rfl
  exact next a

theorem emit {d d' : Declaration} (alike : D d d') : Agrees L D (· = ·) (Walk.emit d) (Walk.emit d') :=
  fun _ _ links => ⟨links, .cons alike .nil, rfl, rfl, .ok rfl⟩

theorem exportLater (e : LocalExport) : Agrees L D (· = ·) (Walk.exportLater e) (Walk.exportLater e) :=
  fun _ _ links => ⟨links, .nil, rfl, rfl, .ok rfl⟩

theorem note (e : Event) : Agrees L D (· = ·) (Walk.note e) (Walk.note e) :=
  fun _ _ links => ⟨links, .nil, rfl, rfl, .ok rfl⟩

/-- Readings that agree for related tables. -/
theorem reading {x : Entries Resolved → Reading α} {y : Entries Resolved → Reading β}
    (agree : ∀ l l', L l l' → Reading.Agrees R (x l.imports) (y l'.imports)) :
    Agrees L D R (Walk.reading x) (Walk.reading y) := by
  intro l l' links
  have read := agree l l' links
  exact ⟨links, .nil, rfl, read.events, read.result⟩

/-- A failure is absorbed on both sides or on none. -/
theorem absorb {x y : Walk Unit} (e : Event) (agree : Agrees L D (· = ·) x y) :
    Agrees L D (· = ·) (Walk.absorb e x) (Walk.absorb e y) := by
  intro l l' related
  obtain ⟨links, declarations, exports, events, result⟩ := agree l l' related
  unfold Walk.absorb
  generalize x l = o at *
  generalize y l' = o' at *
  obtain ⟨_, _, _, _, xResult⟩ := o
  obtain ⟨_, _, _, _, yResult⟩ := o'
  cases result with
  | ok values => exact ⟨links, declarations, exports, events, .ok values⟩
  | error failure => exact ⟨links, declarations, exports, congrArg (· ++ [e]) events, .ok rfl⟩

/-- Inner scopes agree if finishing keeps their declarations related. -/
theorem within {x y : Walk Unit} {finish finish' : List LocalExport → List Declaration → List Declaration}
    (agree : Agrees L D (· = ·) x y)
    (finishes : ∀ es ds ds', List.Forall₂ D ds ds' → List.Forall₂ D (finish es ds) (finish' es ds')) :
    Agrees L D (List.Forall₂ D) (Walk.within finish x) (Walk.within finish' y) := by
  intro l l' related
  obtain ⟨links, declarations, exports, events, result⟩ := agree l l' related
  refine ⟨links, .nil, rfl, events, ?_⟩
  simp only [Walk.within, exports]
  exact result.map fun _ _ _ => finishes _ _ _ declarations

/-- Related lists walked element by element. -/
theorem forEach {A : α → β → Prop} {f : α → Walk Unit} {g : β → Walk Unit} {as : List α} {bs : List β}
    (elements : List.Forall₂ A as bs) (each : ∀ a b, A a b → Agrees L D (· = ·) (f a) (g b)) :
    Agrees L D (· = ·) (Walk.forEach f as) (Walk.forEach g bs) := by
  induction elements with
  | nil => exact pure rfl
  | cons head _ ih => exact bind (each _ _ head) fun _ _ _ => ih

/-- One list walked element by element on both sides. -/
theorem forEach_mem {f g : α → Walk Unit} (as : List α) (each : ∀ a ∈ as, Agrees L D (· = ·) (f a) (g a)) :
    Agrees L D (· = ·) (Walk.forEach f as) (Walk.forEach g as) := by
  have same : List.Forall₂ (fun a b => a = b ∧ a ∈ as) as as :=
    List.forall₂_same.2 fun a mem => ⟨rfl, mem⟩
  refine forEach same ?_
  rintro a _ ⟨rfl, mem⟩
  exact each a mem

end Agrees

end Walk

end Outline
