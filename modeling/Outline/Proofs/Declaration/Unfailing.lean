/-
Module: Outline.Proofs.Declaration.Unfailing
Layer: Proofs
Purpose: Every reader of declarations comes to a declaration where all texts can be read, whatever parts of the node
  are missing. Members of classes and of enumerations, parameters, heritage and dependencies are all parts of it.
Main exports: classMembers?_unfailing, functionOf_unfailing, classOf_unfailing, interfaceOf_unfailing,
  typeAliasOf_unfailing, enumOf_unfailing, variablesOf_unfailing
-/
import Outline.Declaration.Extract
import Outline.Proofs.Signature.Unfailing

namespace Outline

open Reading (Unfailing)
open Signature

variable {site : Site} {n : Node} {isExported isDefault : Bool} (readable : site.source.Readable n)

include readable

/-- The declared name of a readable node can be read. -/
theorem declaredName_unfailing : (site.declaredName n).Unfailing :=
  .readOrEmpty fun _ found => readable_of_field? readable found

theorem dependencies_unfailing : (site.dependencies n).Unfailing :=
  .returning (.read readable) _

theorem typeParametersOf_unfailing : (typeParametersOf site n).Unfailing := by
  unfold typeParametersOf
  split
  next list found => exact typeParameters_unfailing list (readable_of_field? readable found)
  next => exact .pure []

/-- The type of a readable node can be read or inferred. -/
theorem annotatedOrInferred_unfailing : (annotatedOrInferred site n).Unfailing := by
  unfold annotatedOrInferred
  cases typed : n.field? "type" with
  | some type => exact .returning (renderType_unfailing type (readable_of_field? readable typed)) _
  | none =>
      cases valued : n.field? "value" with
      | some value => exact .returning (inferExpression_unfailing value (readable_of_field? readable valued)) _
      | none => exact .pure none

/-!
### Members of classes
-/

theorem accessibility_unfailing : (accessibility site n).Unfailing :=
  .readOrEmpty fun _ found => readable.child (Node.mem_children_of_child? found)

theorem methodOf_unfailing (owner : String) : (methodOf site owner n).Unfailing := by
  unfold methodOf
  apply Unfailing.bind (declaredName_unfailing readable)
  intro name
  apply Unfailing.bind (accessibility_unfailing readable)
  intro access
  apply Unfailing.bind (functionParameters_unfailing n readable)
  intro ps
  apply Unfailing.bind (returnType_unfailing n ps readable)
  intro result
  apply Unfailing.bind (dependencies_unfailing readable)
  intro dependencies
  exact .returning (typeParametersOf_unfailing readable) _

theorem constructorOf_unfailing (owner : String) : (constructorOf site owner n).Unfailing := by
  unfold constructorOf
  apply Unfailing.bind (functionParameters_unfailing n readable)
  intro ps
  apply Unfailing.bind (dependencies_unfailing readable)
  intro dependencies
  exact .returning (accessibility_unfailing readable) _

theorem propertyOf_unfailing (owner : String) : (propertyOf site owner n).Unfailing := by
  unfold propertyOf
  apply Unfailing.bind (declaredName_unfailing readable)
  intro name
  apply Unfailing.bind (accessibility_unfailing readable)
  intro access
  apply Unfailing.bind (annotatedOrInferred_unfailing readable)
  intro type
  have value : ∀ c, n.field? "value" = some c → (site.read c).Unfailing :=
    fun c found => .read (readable_of_field? readable found)
  dsimp only
  split
  next c found =>
    apply Unfailing.bind (value c found)
    intro text
    apply Unfailing.bind (.pure (some text))
    intro initializer
    exact .returning (dependencies_unfailing readable) _
  next =>
    apply Unfailing.bind (.pure none)
    intro initializer
    exact .returning (dependencies_unfailing readable) _

theorem addMember_unfailing (owner : String) (implemented : List String) (members : ClassMembers) :
    (addMember site owner implemented members n).Unfailing := by
  unfold addMember
  split
  · apply Unfailing.bind (declaredName_unfailing readable)
    intro name
    split
    · split
      · exact .returning (constructorOf_unfailing readable owner) _
      · exact .pure members
    · split
      · exact .pure members
      · exact .returning (methodOf_unfailing readable owner) _
  · split
    · exact .returning (propertyOf_unfailing readable owner) _
    · exact .pure members

omit readable in
theorem addMembers_unfailing (owner : String) (implemented : List String) (members : ClassMembers) {ns : List Node}
    (each : ∀ m ∈ ns, site.source.Readable m) : (addMembers site owner implemented members ns).Unfailing := by
  induction ns generalizing members with
  | nil => exact .pure members
  | cons m rest ih =>
      rw [List.forall_mem_cons] at each
      apply Unfailing.bind (addMember_unfailing each.1 owner implemented members)
      intro added
      exact ih added each.2

omit readable in
/-- The members of a readable body can be read, and those of no body. -/
theorem classMembers?_unfailing (owner : String) {body : Option Node}
    (readable : ∀ b, body = some b → site.source.Readable b) : (classMembers? site owner body).Unfailing := by
  cases body with
  | none => exact .pure _
  | some body =>
      have below := readable body rfl
      apply Unfailing.bind
      · exact .collect fun m mem => declaredName_unfailing (readable_of_mem_namedOf below mem)
      · intro implemented
        exact addMembers_unfailing owner implemented {} fun m mem => below.child (Node.mem_children_of_mem_named mem)

/-!
### Declarations
-/

theorem nameOrDefault_unfailing : (nameOrDefault site n).Unfailing :=
  .returning (declaredName_unfailing readable) _

theorem functionOf_unfailing : (functionOf site isExported isDefault n).Unfailing := by
  unfold functionOf
  apply Unfailing.bind (nameOrDefault_unfailing readable)
  intro name
  apply Unfailing.bind (typeParametersOf_unfailing readable)
  intro typeParameters
  apply Unfailing.bind (functionParameters_unfailing n readable)
  intro ps
  exact .returning (returnType_unfailing n ps readable) _

omit readable in
theorem superclassOf_unfailing {heritage : Option Node}
    (readable : ∀ h, heritage = some h → site.source.Readable h) : (superclassOf site heritage).Unfailing := by
  unfold superclassOf
  split
  next => exact .pure none
  next clause found =>
    obtain ⟨h, isHeritage, found⟩ := Option.bind_eq_some_iff.1 found
    have below := (readable h isHeritage).child (Node.mem_children_of_child? found)
    cases named : (clause.field? "value").or clause.named.head? with
    | none => exact .pure (some unknownName)
    | some name =>
        refine .returning (expressionName_unfailing name ?_) _
        rcases Option.or_eq_some_iff.1 named with byField | ⟨_, isFirst⟩
        · exact readable_of_field? below byField
        · exact below.child (Node.mem_children_of_mem_named (List.mem_of_head? isFirst))

omit readable in
theorem heritageNames_unfailing {clause : Option Node}
    (readable : ∀ c, clause = some c → site.source.Readable c) : (heritageNames site clause).Unfailing := by
  cases clause with
  | none => exact .pure []
  | some clause => exact .collect fun c mem => heritageName_unfailing c (readable_of_mem_operands (readable clause rfl) mem)

/-- A readable class can be read, heritage and members included. -/
theorem classOf_unfailing : (classOf site isExported isDefault n).Unfailing := by
  have heritage : ∀ h, n.child? ["class_heritage"] = some h → site.source.Readable h :=
    fun h found => readable.child (Node.mem_children_of_child? found)
  unfold classOf
  apply Unfailing.bind (nameOrDefault_unfailing readable)
  intro name
  apply Unfailing.bind (typeParametersOf_unfailing readable)
  intro typeParameters
  apply Unfailing.bind (superclassOf_unfailing heritage)
  intro superclass
  apply Unfailing.bind
  · apply heritageNames_unfailing
    intro clause found
    obtain ⟨h, isHeritage, found⟩ := Option.bind_eq_some_iff.1 found
    exact (heritage h isHeritage).child (Node.mem_children_of_child? found)
  · intro interfaces
    exact .returning (classMembers?_unfailing _ fun body found => readable_of_field? readable found) _

theorem interfaceOf_unfailing : (interfaceOf site isExported isDefault n).Unfailing := by
  unfold interfaceOf
  apply Unfailing.bind (declaredName_unfailing readable)
  intro name
  apply Unfailing.bind (typeParametersOf_unfailing readable)
  intro typeParameters
  have supertypes : (heritageNames site (n.child? ["extends_type_clause"])).Unfailing :=
    heritageNames_unfailing fun c found => readable.child (Node.mem_children_of_child? found)
  exact .returning supertypes _

theorem typeAliasOf_unfailing : (typeAliasOf site isExported isDefault n).Unfailing := by
  unfold typeAliasOf
  apply Unfailing.bind (declaredName_unfailing readable)
  intro name
  apply Unfailing.bind (typeParametersOf_unfailing readable)
  intro typeParameters
  have type : (renderType? site.source (n.field? "value")).Unfailing :=
    renderType?_unfailing fun c found => renderType_unfailing c (readable_of_field? readable found)
  exact .returning type _

theorem enumMember?_unfailing : (enumMember? site n).Unfailing := by
  unfold enumMember?
  split
  · apply Unfailing.bind (declaredName_unfailing readable)
    intro name
    split
    next value found => exact .returning (.read (readable_of_field? readable found)) _
    next => exact .pure _
  · split
    · exact .returning (.read readable) _
    · exact .pure none

theorem enumOf_unfailing : (enumOf site isExported isDefault n).Unfailing := by
  unfold enumOf
  apply Unfailing.bind (declaredName_unfailing readable)
  intro short
  have members : (enumMembers site (n.field? "body")).Unfailing := by
    cases found : n.field? "body" with
    | none => exact .pure []
    | some body =>
        have below := readable_of_field? readable found
        exact .returning (.collect fun m mem => enumMember?_unfailing (below.child (Node.mem_children_of_mem_named mem))) _
  exact .returning members _

/-- A readable declarator can be read, whichever statement it stands in. -/
theorem variableOf_unfailing (isExported : Bool) (keyword : VariableKeyword) (statement : Node) :
    (variableOf site isExported keyword statement n).Unfailing := by
  unfold variableOf
  split
  next => exact .pure none
  next target found =>
    split
    · exact .pure none
    · apply Unfailing.bind (.read (readable_of_field? readable found))
      intro short
      exact .returning (annotatedOrInferred_unfailing readable) _

/-- The variables of a readable statement can be read. -/
theorem variablesOf_unfailing : (variablesOf site isExported n).Unfailing := by
  unfold variablesOf
  apply Unfailing.bind
  · unfold variableKeyword
    split
    · exact .pure _
    · exact .returning (.readOrEmpty fun c found => readable_of_field? readable found) _
  · intro keyword
    have found : (Reading.collect (variableOf site isExported keyword n) (n.namedOf ["variable_declarator"])).Unfailing :=
      .collect fun c mem => variableOf_unfailing (readable_of_mem_namedOf readable mem) isExported keyword n
    exact .returning found _

end Outline
