/-
Module: Outline.Proofs.Signature.Identity
Layer: Proofs
Purpose: The renderer is the identity on types in canonical layout, but for what construct signatures make: wherever the
  text of a canonical type stands in a source, rendering its tree gives that text back, with `any` as the result of
  every construct signature.
Main exports: Faithful, Canonical.faithful, renderType_canonical, construct_result_lost
-/
import Outline.Proofs.Signature.Callables

namespace Outline

open Sketch (Stands)

variable {src : Source}

/-- What the renderer makes of a sketch of each category. -/
def Faithful (src : Source) : Category → Sketch → Prop
  | .type, s => TypeRendered src s
  | .tupleMember, s => TypeRendered src s
  | .typeParameter, s => TypeParameterRendered src s
  | .parameter, s => ParameterRendered src s
  | .member, s => MemberRendered src s

/-- Everything in canonical layout is shown faithfully. -/
theorem Canonical.faithful {c : Category} {s : Sketch} (canonical : Canonical c s) : Faithful src c s := by
  -- The induction is on the layout; for lists of parts the hypothesis is one for each member.
  induction canonical with
  | predefined known => exact TypeRendered.predefined known
  | uniqueSymbol => exact TypeRendered.uniqueSymbol
  | name name => exact TypeRendered.name name
  | generic name _ arguments => exact TypeRendered.generic name arguments
  | array _ element => exact TypeRendered.array element
  | tuple _ members => exact TypeRendered.tuple members
  | union _ _ left right => exact TypeRendered.union left right
  | intersection _ _ left right => exact TypeRendered.intersection left right
  | function _ _ _ typeParameters parameters result => exact TypeRendered.function typeParameters parameters result
  | constructor isAbstract _ _ _ typeParameters parameters result =>
      exact TypeRendered.constructor isAbstract typeParameters parameters result
  | conditional _ _ _ _ checked bound yes no => exact TypeRendered.conditional checked bound yes no
  | lookup _ _ object key => exact TypeRendered.lookup object key
  | typeOf path => exact TypeRendered.typeOf path
  | predicate subject _ type => exact TypeRendered.predicate subject type
  | asserts subject => exact TypeRendered.asserts subject
  | assertsIs subject _ type => exact TypeRendered.assertsIs subject type
  | literal literal => exact TypeRendered.literal literal
  | parenthesized _ inner => exact TypeRendered.parenthesized inner
  | keyOf _ object => exact TypeRendered.keyOf object
  | readonly _ inner => exact TypeRendered.readonly inner
  | infer _ => exact TypeRendered.infer _
  | inferBounded _ _ bound => exact TypeRendered.inferBounded _ bound
  | object _ members => exact TypeRendered.object members
  | plainElement _ type => exact type
  | optionalElement _ type => exact TypeRendered.optional type
  | restElement _ type => exact TypeRendered.rest type
  | namedElement isOptional word _ type => exact TypeRendered.namedElement isOptional word type
  | typeParameter word _ _ bounds defaults => exact TypeParameterRendered.of_clauses word bounds defaults
  | parameter isOptional _ _ type => exact ParameterRendered.plain isOptional _ type
  | restParameter _ _ type => exact ParameterRendered.rest _ type
  | property isReadonly isOptional _ _ type => exact MemberRendered.property isReadonly isOptional type
  | method isOptional word _ _ _ typeParameters parameters result =>
      exact MemberRendered.method isOptional word typeParameters parameters result
  | call _ _ _ typeParameters parameters result => exact MemberRendered.call typeParameters parameters result
  -- What is made is never looked at, so its hypothesis is not needed.
  | construct _ _ _ typeParameters parameters _ => exact MemberRendered.construct typeParameters parameters
  | index word _ _ key type => exact MemberRendered.index word key type

/-- Wherever a type stands in canonical layout, the renderer gives its text back, with `any` for what construct
    signatures make; and as it is written, if that is what they make. -/
theorem renderType_canonical {s : Sketch} (canonical : Canonical .type s) (before after : String)
    (field : Option String) :
    let src : Source := ⟨before ++ s.text ++ after⟩
    let n := s.tree field before.utf8ByteSize
    src.textOf n = .ok s.text ∧ Signature.renderType src n = pure s.shown ∧
      (s.makesAny = true → Signature.renderType src n = pure s.text) := by
  intro src n
  have stands : Stands src s n := ⟨field, before.utf8ByteSize, ⟨before, after, rfl, rfl⟩, rfl⟩
  have rendered : TypeRendered src s := canonical.faithful
  refine ⟨stands.textOf, rendered.renders n stands, fun makes => ?_⟩
  rw [rendered.renders n stands, Sketch.shown_of_makesAny s makes]

/-- `<K extends keyof T>(key: K) => { readonly p?: A | B; new (x: number): any }` -/
def keyedMaker : Sketch :=
  .functionType [.typeParameter "K" (some (.keyOfType (.typeIdentifier "T"))) none]
    [.namedElement "pattern" false "key" (.typeIdentifier "K")]
    (.objectType
      [.propertySignature true true "p" (.unionType (.typeIdentifier "A") (.typeIdentifier "B")),
        .constructSignature [] [.namedElement "pattern" false "x" (.predefinedType "number")] (.predefinedType "any")])

theorem keyedMaker_canonical : Canonical .type keyedMaker := by
  have name : ∀ w, IsWord w → Canonical .type (.typeIdentifier w) := fun w word => .name (.simple word)
  refine .function (List.forall_mem_singleton.2 (.typeParameter (by decide) ?_ (by simp)))
    (List.forall_mem_singleton.2 (.parameter false (by decide) (name "K" (by decide)))) (.object ?_)
  · simpa using Canonical.keyOf (name "T" (by decide))
  · refine List.forall_mem_cons.2 ⟨?_, List.forall_mem_singleton.2 (.construct (by simp) ?_ (.predefined (by decide)))⟩
    · exact .property true true (by decide) (.union (name "A" (by decide)) (name "B" (by decide)))
    · exact List.forall_mem_singleton.2 (.parameter false (by decide) (.predefined (by decide)))

/-- The example is rendered as it is written, but for the result of its construct signature. -/
theorem renderType_canonical_keyed :
    Canonical .type keyedMaker ∧ keyedMaker.makesAny = true ∧
      Signature.renderType ⟨"type X = " ++ keyedMaker.text ++ ";"⟩ (keyedMaker.tree (some "value") 9) =
        pure "<K extends keyof T>(key: K) => \x7b readonly p?: A | B; new (x: number): any \x7d" := by
  have makes : keyedMaker.makesAny = true := by decide
  have text : keyedMaker.text =
      "<K extends keyof T>(key: K) => \x7b readonly p?: A | B; new (x: number): any \x7d" := by decide +kernel
  refine ⟨keyedMaker_canonical, makes, ?_⟩
  rw [← text]
  exact (renderType_canonical keyedMaker_canonical "type X = " ";" (some "value")).2.2 makes

/-- `{ new (x: number): Foo }` -/
def fooMaker : Sketch :=
  .objectType
    [.constructSignature [] [.namedElement "pattern" false "x" (.predefinedType "number")] (.typeIdentifier "Foo")]

/-- A construct signature loses its result. -/
theorem construct_result_lost :
    Canonical .type fooMaker ∧ fooMaker.text = "\x7b new (x: number): Foo \x7d" ∧
      (Signature.renderType ⟨fooMaker.text⟩ (fooMaker.tree none 0)).result.toOption =
        some "\x7b new (x: number): any \x7d" := by
  refine ⟨.object (List.forall_mem_singleton.2 (.construct (by simp) ?_ (.name (.simple (by decide))))), ?_⟩
  · exact List.forall_mem_singleton.2 (.parameter false (by decide) (.predefined (by decide)))
  · decide +kernel

end Outline
