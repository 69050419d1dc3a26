/-
Module: Outline.Proofs.Declaration.Relabel
Layer: Proofs
Purpose: Changing heads, class members and sources of re-exports throughout a declaration, at any depth of
  namespaces. Declarations that are alike come to the same if both are relabelled so that what a likeness lets
  differ comes to the same. This turns agreement of two walks into equations between declarations.
Main exports: Relabelling, Declaration.relabel, Declaration.relabel_keep, Likeness.Unifies,
  Declaration.Alike.relabel_eq
-/
import Outline.Proofs.Declaration.Likeness

namespace Outline

/-- What is to be made of the parts of a declaration. -/
structure Relabelling where
  head : Head → Head := id
  method : Method → Method := id
  property : Property → Property := id
  origin : String → String := id

namespace Relabelling

/-- Change nothing. -/
def keep : Relabelling := {}

/-- Relabel the members of a class. -/
def members (f : Relabelling) (ms : ClassMembers) : ClassMembers :=
  { properties := ms.properties.map f.property
    methods := ms.methods.map f.method
    constructor := ms.constructor.map f.method }

theorem members_keep (ms : ClassMembers) : keep.members ms = ms := by
  simp [members, keep]

end Relabelling

namespace Declaration

mutual

/-- Relabel a declaration and everything inside it. -/
def relabel (f : Relabelling) : Declaration → Declaration
  | functionDecl head ps type isAsync isGenerator => functionDecl (f.head head) ps type isAsync isGenerator
  | classDecl head superclass interfaces members isAbstract =>
    classDecl (f.head head) superclass interfaces (f.members members) isAbstract
  | interfaceDecl head supertypes => interfaceDecl (f.head head) supertypes
  | typeAlias head => typeAlias (f.head head)
  | enumDecl head members isConst => enumDecl (f.head head) members isConst
  | variableDecl head keyword => variableDecl (f.head head) keyword
  | reExport head source => reExport (f.head head) (f.origin source)
  | namespaceDecl head members => namespaceDecl (f.head head) (relabelAll f members)

/-- Relabel each declaration of a list. -/
def relabelAll (f : Relabelling) : List Declaration → List Declaration
  | [] => []
  | d :: ds => relabel f d :: relabelAll f ds

end

mutual

/-- Keeping every label leaves a declaration as it is. -/
theorem relabel_keep : ∀ d : Declaration, relabel .keep d = d
  | functionDecl .. | interfaceDecl .. | typeAlias .. | enumDecl .. | variableDecl .. | reExport .. => rfl
  | classDecl _ _ _ members _ => by
      rw [relabel, Relabelling.members_keep]
      rfl
  | namespaceDecl _ members => by
      rw [relabel, relabelAll_keep members]
      rfl

/-- Keeping every label leaves a list of declarations as it is. -/
theorem relabelAll_keep : ∀ ds : List Declaration, relabelAll .keep ds = ds
  | [] => rfl
  | d :: ds => by
      rw [relabelAll, relabel_keep d, relabelAll_keep ds]

end

end Declaration

/-- Two relabellings, one for each side, under which everything that a likeness lets differ comes to the same. -/
structure Likeness.Unifies (k : Likeness) (f g : Relabelling) : Prop where
  heads {h h' : Head} : k.Heads h h' → f.head h = g.head h'
  methods {m m' : Method} : k.Methods m m' → f.method m = g.method m'
  properties {p p' : Property} : k.Properties p p' → f.property p = g.property p'
  origins {source source' : String} : k.origin source source' → f.origin source = g.origin source'

variable {k : Likeness} {f g : Relabelling}

/-- Lists with related elements come to the same under functions that bring related elements to the same. -/
theorem map_eq_map_of_forall₂ {α β γ : Type} {R : α → β → Prop} {f : α → γ} {g : β → γ} {as : List α}
    {bs : List β} (related : List.Forall₂ R as bs) (same : ∀ a b, R a b → f a = g b) : as.map f = bs.map g := by
  rw [← List.forall₂_eq_eq_eq, List.forall₂_map_left_iff, List.forall₂_map_right_iff]
  exact related.imp same

/-- Where two labellings make alike declarations one, they make alike members one. -/
theorem Likeness.Unifies.members (unifies : k.Unifies f g) {ms ms' : ClassMembers} (alike : k.Members ms ms') :
    f.members ms = g.members ms' := by
  obtain ⟨properties, methods, builder⟩ := ms
  obtain ⟨properties', methods', builder'⟩ := ms'
  obtain ⟨sameProperties, sameMethods, sameBuilder⟩ := alike
  have builders : builder.map f.method = builder'.map g.method := by
    cases sameBuilder with
    | none => rfl
    | some related => exact congrArg some (unifies.methods related)
  simp only [Relabelling.members, builders, ClassMembers.mk.injEq, and_true]
  exact ⟨map_eq_map_of_forall₂ sameProperties fun _ _ => unifies.properties,
    map_eq_map_of_forall₂ sameMethods fun _ _ => unifies.methods⟩

mutual

/-- Declarations that are alike come to the same under relabellings that unify the likeness. -/
theorem Declaration.Alike.relabel_eq (unifies : k.Unifies f g) {d d' : Declaration}
    (alike : Declaration.Alike k d d') : d.relabel f = d'.relabel g := by
  cases alike with
  | functionDecl heads => rw [relabel, relabel, unifies.heads heads]
  | classDecl heads members => rw [relabel, relabel, unifies.heads heads, unifies.members members]
  | interfaceDecl heads => rw [relabel, relabel, unifies.heads heads]
  | typeAlias heads => rw [relabel, relabel, unifies.heads heads]
  | enumDecl heads => rw [relabel, relabel, unifies.heads heads]
  | variableDecl heads => rw [relabel, relabel, unifies.heads heads]
  | reExport heads origins => rw [relabel, relabel, unifies.heads heads, unifies.origins origins]
  | namespaceDecl heads members =>
      rw [relabel, relabel, unifies.heads heads, Declaration.AllAlike.relabelAll_eq unifies members]

/-- Where two labellings make alike declarations one, they make alike lists one. -/
theorem Declaration.AllAlike.relabelAll_eq (unifies : k.Unifies f g) {ds ds' : List Declaration}
    (alike : Declaration.AllAlike k ds ds') : relabelAll f ds = relabelAll g ds' := by
  cases alike with
  | nil => rw [relabelAll, relabelAll]
  | cons head tail =>
      rw [relabelAll, relabelAll, Declaration.Alike.relabel_eq unifies head,
        Declaration.AllAlike.relabelAll_eq unifies tail]

end

end Outline
