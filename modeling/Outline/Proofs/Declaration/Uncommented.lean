/-
Module: Outline.Proofs.Declaration.Uncommented
Layer: Proofs
Purpose: Declarations are read the same without comments. The readers look for children by field, by kind or among
  the named ones, and a comment among the members of a class or an enumeration declares none.
Main exports: functionOf_uncommented, classOf_uncommented, interfaceOf_uncommented, typeAliasOf_uncommented,
  enumOf_uncommented, variablesOf_uncommented
-/
import Outline.Declaration.Extract
import Outline.Proofs.Signature.Uncommented

namespace Outline

open Node Signature

namespace Site

variable (site : Site) (n : Node)

/-- A node has the same text without its comments: the text is cut from the source. -/
@[simp] theorem read_uncommented : site.read n.uncommented = site.read n := Reading.read_uncommented _ n

/-- An optional node has the same text without its comments. -/
@[simp] theorem readOrEmpty_uncommented (o : Option Node) :
    site.readOrEmpty (o.map uncommented) = site.readOrEmpty o :=
  Reading.readOrEmpty_uncommented _ o

/-- A node has the same position without its comments. -/
@[simp] theorem position_uncommented : site.position n.uncommented = site.position n := by
  rw [position, position, Source.position, Source.position, start_uncommented, stop_uncommented]

/-- The dependencies of a node do not depend on its comments being in the tree; they are found in its text. -/
@[simp] theorem dependencies_uncommented : site.dependencies n.uncommented = site.dependencies n := by
  rw [dependencies, dependencies, read_uncommented]

/-- The declared name is read the same without comments. -/
@[simp] theorem declaredName_uncommented : site.declaredName n.uncommented = site.declaredName n := by
  rw [declaredName, declaredName, field?_uncommented, readOrEmpty_uncommented]

end Site

section Readers

variable (site : Site) (owner : String) (n : Node)

/-!
### Members
-/

/-- The accessibility of a member is read the same without comments. -/
theorem accessibility_uncommented : accessibility site n.uncommented = accessibility site n := by
  rw [accessibility, accessibility, child?_uncommented n (by decide), Site.readOrEmpty_uncommented]

theorem accessorOf_uncommented : accessorOf n.uncommented = accessorOf n := by
  rw [accessorOf, accessorOf, hasChild_uncommented n (by decide), hasChild_uncommented n (by decide)]

theorem typeParametersOf_uncommented : typeParametersOf site n.uncommented = typeParametersOf site n := by
  rw [typeParametersOf, typeParametersOf, field?_uncommented]
  cases n.field? "type_parameters" with
  | none => rfl
  | some list => exact typeParameters_uncommented site.source list

theorem methodOf_uncommented : methodOf site owner n.uncommented = methodOf site owner n := by
  simp only [methodOf, Site.declaredName_uncommented, accessibility_uncommented, functionParameters_uncommented,
    accessorOf_uncommented, returnType_uncommented, Site.dependencies_uncommented, typeParametersOf_uncommented,
    Site.position_uncommented, isAsync_uncommented, kind_uncommented,
    hasChild_uncommented n (by decide : "comment" ≠ "*"), hasChild_uncommented n (by decide : "comment" ≠ "static"),
    hasChild_uncommented n (by decide : "comment" ≠ "abstract")]

theorem constructorOf_uncommented : constructorOf site owner n.uncommented = constructorOf site owner n := by
  simp only [constructorOf, functionParameters_uncommented, Site.dependencies_uncommented, accessibility_uncommented,
    Site.position_uncommented]

/-- The type of a variable or property is the same without comments, annotated or inferred. -/
theorem annotatedOrInferred_uncommented : annotatedOrInferred site n.uncommented = annotatedOrInferred site n := by
  rw [annotatedOrInferred, annotatedOrInferred, field?_uncommented, field?_uncommented]
  cases n.field? "type" with
  | some type => simp only [Option.map_some, renderType_uncommented]
  | none =>
      cases n.field? "value" with
      | none => rfl
      | some value => simp only [Option.map_some, Option.map_none, inferExpression_uncommented]

theorem propertyOf_uncommented : propertyOf site owner n.uncommented = propertyOf site owner n := by
  simp only [propertyOf, Site.declaredName_uncommented, accessibility_uncommented, annotatedOrInferred_uncommented,
    field?_uncommented, Site.dependencies_uncommented, Site.position_uncommented,
    hasChild_uncommented n (by decide : "comment" ≠ "readonly"), hasChild_uncommented n (by decide : "comment" ≠ "?"),
    hasChild_uncommented n (by decide : "comment" ≠ "static")]
  cases n.field? "value" with
  | none => rfl
  | some value => simp only [Option.map_some, Site.read_uncommented]

/-- The implemented names of a body are the same without comments. -/
theorem implementedNames_uncommented : implementedNames site n.uncommented = implementedNames site n := by
  rw [implementedNames, implementedNames, namedOf_uncommented n (by decide)]
  exact Reading.collect_uncommented fun m _ => site.declaredName_uncommented m

theorem addMember_uncommented (implemented : List String) (members : ClassMembers) :
    addMember site owner implemented members n.uncommented = addMember site owner implemented members n := by
  simp only [addMember, kind_uncommented, Site.declaredName_uncommented, constructorOf_uncommented,
    methodOf_uncommented, propertyOf_uncommented]

/-- A comment adds nothing to the members of a class. -/
theorem addMember_of_remark {n : Node} (remark : n.isRemark = true) (implemented : List String)
    (members : ClassMembers) : addMember site owner implemented members n = pure members := by
  rw [addMember, (isRemark_iff.1 remark).kind]
  rfl

/-- Comments among the statements of a body add no members. -/
theorem addMembers_parts (implemented : List String) (members : ClassMembers) (cs : List Node) :
    addMembers site owner implemented members cs =
      addMembers site owner implemented members (cs.filter fun c => !c.isRemark) := by
  induction cs generalizing members with
  | nil => rfl
  | cons c cs ih =>
      cases remark : c.isRemark with
      | true =>
          rw [List.filter_cons_of_neg (by simp [remark]), addMembers, addMember_of_remark site owner remark,
            Reading.pure_bind, ih]
      | false => simp only [List.filter_cons_of_pos, remark, Bool.not_false, addMembers, ih]

/-- Statements without their comments add the same members. -/
theorem addMembers_uncommented (implemented : List String) (members : ClassMembers) (cs : List Node) :
    addMembers site owner implemented members (cs.map uncommented) =
      addMembers site owner implemented members cs := by
  induction cs generalizing members with
  | nil => rfl
  | cons c cs ih => simp only [List.map_cons, addMembers, addMember_uncommented, ih]

/-- The members of a class are read the same without comments. -/
theorem classMembers_uncommented : classMembers site owner n.uncommented = classMembers site owner n := by
  have members : ∀ implemented, addMembers site owner implemented {} n.uncommented.named =
      addMembers site owner implemented {} n.named := by
    intro implemented
    calc addMembers site owner implemented {} n.uncommented.named
        = addMembers site owner implemented {} n.uncommented.parts := addMembers_parts ..
      _ = addMembers site owner implemented {} n.parts := by rw [parts_uncommented, addMembers_uncommented]
      _ = addMembers site owner implemented {} n.named := (addMembers_parts ..).symm
  simp only [classMembers, implementedNames_uncommented, members]

/-!
### Declarations
-/

theorem nameOrDefault_uncommented : nameOrDefault site n.uncommented = nameOrDefault site n := by
  rw [nameOrDefault, nameOrDefault, Site.declaredName_uncommented]

variable (isExported isDefault : Bool)

theorem functionOf_uncommented :
    functionOf site isExported isDefault n.uncommented = functionOf site isExported isDefault n := by
  simp only [functionOf, nameOrDefault_uncommented, typeParametersOf_uncommented, functionParameters_uncommented,
    returnType_uncommented, Site.position_uncommented, isAsync_uncommented, isGenerator_uncommented]

/-- The clause goes by its value, and without one by its first named child. -/
theorem superclassOf_uncommented (heritage : Option Node) :
    superclassOf site (heritage.map uncommented) = superclassOf site heritage := by
  have found : (heritage.map uncommented).bind (·.child? ["extends_clause"]) =
      (heritage.bind (·.child? ["extends_clause"])).map uncommented := by
    cases heritage with
    | none => rfl
    | some h => exact child?_uncommented h (by decide)
  rw [superclassOf, superclassOf, found]
  cases holds : heritage.bind (·.child? ["extends_clause"]) with
  | none => rfl
  | some clause =>
      obtain ⟨h, _, child⟩ := Option.bind_eq_some_iff.1 holds
      have kind : clause.kind = "extends_clause" := by simpa using kind_mem_of_child? child
      have extended : (clause.uncommented.field? "value").or clause.uncommented.named.head? =
          ((clause.field? "value").or clause.named.head?).map uncommented := by
        rw [field?_uncommented]
        cases value : clause.field? "value" with
        | some value => rfl
        | none => exact head?_named_uncommented (by simp [takesFirst, kind, value])
      have named : ∀ o : Option Node, expressionName? site.source (o.map uncommented) =
          expressionName? site.source o := fun o =>
        option_uncommented fun c _ => expressionName_uncommented site.source c
      simp only [Option.map_some, extended, named]

theorem heritageNames_uncommented (clause : Option Node) :
    heritageNames site (clause.map uncommented) = heritageNames site clause := by
  cases clause with
  | none => rfl
  | some clause =>
      simp only [Option.map_some, heritageNames, operands_uncommented]
      exact Reading.collect_uncommented fun c _ => heritageName_uncommented site.source c

theorem classOf_uncommented :
    classOf site isExported isDefault n.uncommented = classOf site isExported isDefault n := by
  have interfaces : ((n.child? ["class_heritage"]).map uncommented).bind (·.child? ["implements_clause"]) =
      ((n.child? ["class_heritage"]).bind (·.child? ["implements_clause"])).map uncommented := by
    cases n.child? ["class_heritage"] with
    | none => rfl
    | some h => exact child?_uncommented h (by decide)
  have members : ∀ name, classMembers? site name ((n.field? "body").map uncommented) =
      classMembers? site name (n.field? "body") := fun name =>
    option_uncommented fun c _ => classMembers_uncommented site name c
  simp only [classOf, nameOrDefault_uncommented, typeParametersOf_uncommented,
    child?_uncommented n (by decide : "comment" ∉ ["class_heritage"]), superclassOf_uncommented, interfaces,
    heritageNames_uncommented, field?_uncommented, members, Site.position_uncommented, kind_uncommented]

theorem interfaceOf_uncommented :
    interfaceOf site isExported isDefault n.uncommented = interfaceOf site isExported isDefault n := by
  simp only [interfaceOf, Site.declaredName_uncommented, typeParametersOf_uncommented,
    child?_uncommented n (by decide : "comment" ∉ ["extends_type_clause"]), heritageNames_uncommented,
    Site.position_uncommented]

theorem typeAliasOf_uncommented :
    typeAliasOf site isExported isDefault n.uncommented = typeAliasOf site isExported isDefault n := by
  have type : renderType? site.source ((n.field? "value").map uncommented) =
      renderType? site.source (n.field? "value") :=
    option_uncommented fun c _ => renderType_uncommented site.source c
  simp only [typeAliasOf, Site.declaredName_uncommented, typeParametersOf_uncommented, field?_uncommented, type,
    Site.position_uncommented]

theorem enumMember?_uncommented : enumMember? site n.uncommented = enumMember? site n := by
  simp only [enumMember?, kind_uncommented, Site.declaredName_uncommented, Site.read_uncommented, field?_uncommented]
  cases n.field? "value" with
  | none => rfl
  | some value => simp only [Option.map_some, Site.read_uncommented]

/-- A comment is no member of an enumeration. -/
theorem enumMember?_of_remark {n : Node} (remark : n.isRemark = true) : enumMember? site n = pure none := by
  rw [enumMember?, (isRemark_iff.1 remark).kind]
  rfl

/-- The members of an enum are read the same without comments. -/
theorem enumMembers_uncommented (body : Option Node) :
    enumMembers site (body.map uncommented) = enumMembers site body := by
  refine option_uncommented fun body _ => ?_
  simp only [enumMembers, Reading.collect_eq_mapM, bind_pure_comp]
  exact mapM_named_uncommented (fun c remark => enumMember?_of_remark site remark) _ (by simp) body
    fun c _ => enumMember?_uncommented site c

theorem enumOf_uncommented :
    enumOf site isExported isDefault n.uncommented = enumOf site isExported isDefault n := by
  simp only [enumOf, Site.declaredName_uncommented, field?_uncommented, enumMembers_uncommented,
    Site.position_uncommented, hasChild_uncommented n (by decide : "comment" ≠ "const")]

theorem variableKeyword_uncommented : variableKeyword site n.uncommented = variableKeyword site n := by
  rw [variableKeyword, variableKeyword, kind_uncommented, field?_uncommented, Site.readOrEmpty_uncommented]

/-- A declarator is read the same without comments, in a statement without comments. -/
theorem variableOf_uncommented (keyword : VariableKeyword) (statement : Node) :
    variableOf site isExported keyword statement.uncommented n.uncommented =
      variableOf site isExported keyword statement n := by
  rw [variableOf, variableOf, field?_uncommented]
  cases n.field? "name" with
  | none => rfl
  | some target =>
      simp only [Option.map_some, kind_uncommented, Site.read_uncommented, annotatedOrInferred_uncommented,
        Site.position_uncommented]

/-- The variables of a statement are read the same without comments. -/
theorem variablesOf_uncommented : variablesOf site isExported n.uncommented = variablesOf site isExported n := by
  have each : ∀ keyword, Reading.collect (variableOf site isExported keyword n.uncommented)
      ((n.namedOf ["variable_declarator"]).map uncommented) =
      Reading.collect (variableOf site isExported keyword n) (n.namedOf ["variable_declarator"]) := by
    intro keyword
    rw [Reading.collect_map]
    exact Reading.collect_congr fun c _ => variableOf_uncommented site c isExported keyword n
  simp only [variablesOf, variableKeyword_uncommented, namedOf_uncommented n (by decide : "comment" ∉ ["variable_declarator"]),
    each]

end Readers

end Outline
