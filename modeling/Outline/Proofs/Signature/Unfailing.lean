/-
Module: Outline.Proofs.Signature.Unfailing
Layer: Proofs
Purpose: Rendering never fails where every text can be read, whatever kinds of nodes stand where and whatever parts
  are missing: no type falls back to `any` for a failure, and parameters, return types and names in heritage clauses
  come to a value. The induction is that of the renderer, over all of its functions at once.
Main exports: inside_of_mem_ownReturns, renderType_unfailing, parameter_unfailing, functionParameters_unfailing,
  inferExpression_unfailing, returnType_unfailing, heritageName_unfailing
-/
import Outline.Proofs.Reading.Unfailing
import Outline.Proofs.Signature.Equations

namespace Outline

namespace Signature

open Node
open Reading (Unfailing)

/-!
### Returned expressions
-/

mutual

/-- An expression that a body returns is inside the body. -/
theorem inside_of_mem_ownReturns (e : Node) : (n : Node) → some e ∈ ownReturns n → n.Inside e
  | ⟨_, _, _, _, _, _, _, children⟩, mem => by
    rw [ownReturns] at mem
    obtain ⟨c, child, inside⟩ := inside_of_mem_ownReturnsIn e children mem
    exact .of_child child inside

/-- What a return statement gives stands inside one of the children. -/
theorem inside_of_mem_ownReturnsIn (e : Node) : (cs : List Node) → some e ∈ ownReturnsIn cs → ∃ c ∈ cs, c.Inside e
  | [], mem => by
    rw [ownReturnsIn] at mem
    cases mem
  | c :: cs, mem => by
    rw [ownReturnsIn] at mem
    rcases List.mem_append.1 mem with here | later
    · refine ⟨c, List.mem_cons_self, ?_⟩
      split at here
      · cases here
      · split at here
        · have first := mem_operands_of_firstOperand? (List.mem_singleton.1 here).symm
          exact .deeper .here (mem_children_of_mem_named (mem_named_of_mem_operands first))
        · split at here
          · cases here
          · exact inside_of_mem_ownReturns e c here
    · obtain ⟨d, among, inside⟩ := inside_of_mem_ownReturnsIn e cs later
      exact ⟨d, List.mem_cons_of_mem c among, inside⟩

end

section Children

variable {src : Source} {n c : Node} (readable : src.Readable n)

include readable

/-- A field of a node whose texts can be read is such a node. -/
theorem readable_of_field? {name : String} (found : n.field? name = some c) : src.Readable c :=
  readable.child (mem_children_of_field? found)

theorem readable_of_eitherField? {preferred other : String} (found : n.eitherField? preferred other = some c) :
    src.Readable c :=
  readable.child (mem_children_of_eitherField? found)

theorem readable_of_mem_operands (mem : c ∈ n.operands) : src.Readable c :=
  readable.child (mem_children_of_mem_named (mem_named_of_mem_operands mem))

theorem readable_of_firstOperand? (found : n.firstOperand? = some c) : src.Readable c :=
  readable_of_mem_operands readable (mem_operands_of_firstOperand? found)

theorem readable_of_mem_namedOf {kinds : List String} (mem : c ∈ n.namedOf kinds) : src.Readable c :=
  readable.child (mem_children_of_mem_named (mem_named_of_mem_namedOf mem))

/-- A child found by its field or else by its kind. -/
theorem readable_of_field?_or_child? {name : String} {kinds : List String}
    (found : (n.field? name).or (n.child? kinds) = some c) : src.Readable c := by
  rcases Option.or_eq_some_iff.1 found with byField | ⟨_, byKind⟩
  · exact readable_of_field? readable byField
  · exact readable.child (mem_children_of_child? byKind)

theorem readable_boundBy : src.Readable (boundBy n) := by
  have pattern : src.Readable ((n.field? "pattern").getD n) := by
    cases found : n.field? "pattern" with
    | none => exact readable
    | some pattern => exact readable_of_field? readable found
  unfold boundBy
  dsimp only
  split
  · cases found : ((n.field? "pattern").getD n).firstOperand? with
    | none => exact pattern
    | some bound => exact readable_of_firstOperand? pattern found
  · exact pattern

theorem bindingName_unfailing : (bindingName src n).Unfailing := by
  unfold bindingName
  split
  · exact .returning (.read readable) _
  · split
    · exact .pure _
    · split
      · exact .pure _
      · exact .returning (.read readable) _

end Children

/-- What goes through with each child that may be there goes through with it. -/
theorem renderType?_unfailing {src : Source} {child : Option Node}
    (each : ∀ c, child = some c → (renderType src c).Unfailing) : (renderType? src child).Unfailing := by
  cases child with
  | none => exact .pure "any"
  | some c => exact each c rfl

/-- A list of parameters can be read if it is missing or can be read. -/
theorem parameters?_unfailing {src : Source} {child : Option Node}
    (each : ∀ c, child = some c → (parameters src c).Unfailing) : (parameters? src child).Unfailing := by
  cases child with
  | none => exact .pure []
  | some c => exact each c rfl

theorem typeParameters?_unfailing {src : Source} {child : Option Node}
    (each : ∀ c, child = some c → (typeParameters src c).Unfailing) : (typeParameters? src child).Unfailing := by
  cases child with
  | none => exact .pure []
  | some c => exact each c rfl

/-!
### Rendering
-/

variable {src : Source}

mutual

/-- A type that can be read is rendered, and none of its parts falls back for a failure. -/
theorem renderType_unfailing (n : Node) (readable : src.Readable n) : (renderType src n).Unfailing := by
  rw [renderType]
  split
  next =>
    apply Unfailing.bind (.note (Event.reportsFailure_unsupportedType _ _))
    intro _
    exact .pure "any"
  next form known =>
    apply Unfailing.recover
    exact .returning (renderForm_unfailing form n readable) _
termination_by 16 * n.weight + 15

theorem renderForm_unfailing (form : TypeForm) (n : Node) (readable : src.Readable n) :
    (renderForm src form n).Unfailing := by
  have text : (Reading.read src n).Unfailing := .read readable
  have operand : ∀ c ∈ n.operands, (renderType src c).Unfailing := fun c mem =>
    have lighter := weight_lt_of_mem_operands mem
    renderType_unfailing c (readable_of_mem_operands readable mem)
  have first : (renderType? src n.firstOperand?).Unfailing :=
    renderType?_unfailing fun c found => operand c (mem_operands_of_firstOperand? found)
  have field : ∀ name, (renderType? src (n.field? name)).Unfailing := fun name =>
    renderType?_unfailing fun c found =>
      have lighter := weight_lt_of_field? found
      renderType_unfailing c (readable_of_field? readable found)
  rw [renderForm_eq]
  cases form with
  | word | qualified => exact .returning text _
  | this | existential | mapped => exact .pure _
  | wrapped => exact first
  | array | optional | rest | parenthesized | keyOf | readonly => exact .returning first _
  | generic =>
      apply Unfailing.bind
      · apply Unfailing.readOrEmpty
        intro c found
        rcases Option.or_eq_some_iff.1 found with byField | ⟨_, isFirst⟩
        · exact readable_of_field? readable byField
        · exact readable_of_firstOperand? readable isFirst
      · intro name
        dsimp only
        split
        next => exact .pure _
        next list found =>
          have lighter : list.weight < n.weight := by
            rcases Option.or_eq_some_iff.1 found with byField | ⟨_, byKind⟩
            · exact weight_lt_of_field? byField
            · exact weight_lt_of_child? byKind
          exact .returning (typeArguments_unfailing list (readable_of_field?_or_child? readable found)) _
  | tuple => exact .returning (typeArguments_unfailing n readable) _
  | tupleMember =>
      apply Unfailing.bind (.readOrEmpty fun c found => readable_of_eitherField? readable found)
      intro name
      have type : (renderType? src ((n.field? "type").or (n.child? ["type_annotation"]))).Unfailing :=
        renderType?_unfailing fun c found =>
          have lighter : c.weight < n.weight := by
            rcases Option.or_eq_some_iff.1 found with byField | ⟨_, byKind⟩
            · exact weight_lt_of_field? byField
            · exact weight_lt_of_child? byKind
          renderType_unfailing c (readable_of_field?_or_child? readable found)
      exact .returning type _
  | union => exact .returning (operandTypes_unfailing "union_type" n readable) _
  | intersection => exact .returning (operandTypes_unfailing "intersection_type" n readable) _
  | function => exact functionType_unfailing n readable
  | constructor => exact .returning (functionType_unfailing n readable) _
  | conditional =>
      apply Unfailing.bind (field "left")
      intro checked
      apply Unfailing.bind (field "right")
      intro bound
      apply Unfailing.bind (field "consequence")
      intro yes
      exact .returning (field "alternative") _
  | lookup =>
      dsimp only
      split
      next object key rest operands =>
        apply Unfailing.bind (operand object (by simp [operands]))
        intro shown
        exact .returning (operand key (by simp [operands])) _
      next => exact .pure "any"
  | typeOf =>
      dsimp only
      split
      next target found => exact .returning (.read (readable_of_firstOperand? readable found)) _
      next => exact .pure "any"
  | predicate => exact typePredicate_unfailing n readable
  | assertion =>
      dsimp only
      split
      next => exact .pure "asserts"
      next target found =>
        have lighter := weight_lt_of_firstOperand? found
        have below := readable_of_firstOperand? readable found
        split
        · exact .returning (typePredicate_unfailing target below) _
        · exact .returning (.read below) _
  | literal =>
      have lit : src.Readable (n.named.head?.getD n) := by
        cases found : n.named.head? with
        | none => exact readable
        | some lit => exact readable.child (mem_children_of_mem_named (List.mem_of_head? found))
      dsimp only
      split
      · exact .returning (.read lit) _
      · exact .returning (.read lit) _
  | infer =>
      dsimp only
      split
      next => exact .pure "any"
      next name operands =>
        have below := readable_of_mem_operands readable (c := name) (by simp [operands])
        exact .returning (.read below) _
      next name bound rest operands =>
        have below := readable_of_mem_operands readable (c := name) (by simp [operands])
        apply Unfailing.bind (.read below)
        intro shown
        exact .returning (operand bound (by simp [operands])) _
  | object =>
      dsimp only
      split
      · exact .pure _
      · have members : (Reading.collect (objectMember src) n.operands).Unfailing :=
          .collect fun m mem =>
            have lighter := weight_lt_of_mem_operands mem
            objectMember_unfailing m (readable_of_mem_operands readable mem)
        exact .returning members _
termination_by 16 * n.weight + 14

theorem typeArguments_unfailing (n : Node) (readable : src.Readable n) : (typeArguments src n).Unfailing := by
  rw [typeArguments_eq]
  apply Unfailing.collect
  intro c mem
  have lighter := weight_lt_of_mem_operands mem
  exact renderType_unfailing c (readable_of_mem_operands readable mem)
termination_by 16 * n.weight + 1

/-- So can the operands of a union or an intersection. -/
theorem operandTypes_unfailing (kind : String) (n : Node) (readable : src.Readable n) :
    (operandTypes src kind n).Unfailing := by
  rw [operandTypes_eq]
  refine .returning (.collect fun c mem => ?_) _
  have lighter := weight_lt_of_mem_operands mem
  have below := readable_of_mem_operands readable mem
  split
  · exact operandTypes_unfailing kind c below
  · exact .returning (renderType_unfailing c below) _
termination_by 16 * n.weight + 1

theorem typePredicate_unfailing (n : Node) (readable : src.Readable n) : (typePredicate src n).Unfailing := by
  rw [typePredicate_eq]
  apply Unfailing.bind (.readOrEmpty fun c found => readable_of_field? readable found)
  intro name
  have type : (renderType? src (n.field? "type")).Unfailing :=
    renderType?_unfailing fun c found =>
      have lighter := weight_lt_of_field? found
      renderType_unfailing c (readable_of_field? readable found)
  exact .returning type _
termination_by 16 * n.weight + 1

theorem functionType_unfailing (n : Node) (readable : src.Readable n) : (functionType src n).Unfailing := by
  rw [functionType_eq]
  apply Unfailing.bind (parametersIn_unfailing n "parameters" readable)
  intro ps
  apply Unfailing.bind (typeParametersIn_unfailing n readable)
  intro ts
  have result : (renderType? src (n.eitherField? "return_type" "type")).Unfailing :=
    renderType?_unfailing fun c found =>
      have lighter := weight_lt_of_eitherField? found
      renderType_unfailing c (readable_of_eitherField? readable found)
  exact .returning result _
termination_by 16 * n.weight + 2

theorem objectMember_unfailing (n : Node) (readable : src.Readable n) : (objectMember src n).Unfailing := by
  have field : ∀ name, (renderType? src (n.field? name)).Unfailing := fun name =>
    renderType?_unfailing fun c found =>
      have lighter := weight_lt_of_field? found
      renderType_unfailing c (readable_of_field? readable found)
  have name : (Reading.readOrEmpty src (n.field? "name")).Unfailing :=
    .readOrEmpty fun c found => readable_of_field? readable found
  rw [objectMember_eq]
  split
  · apply Unfailing.bind name
    intro shown
    exact .returning (field "type") _
  · split
    · apply Unfailing.bind (parametersIn_unfailing n "parameters" readable)
      intro ps
      apply Unfailing.bind (field "return_type")
      intro result
      apply Unfailing.bind name
      intro shown
      exact .returning (typeParametersIn_unfailing n readable) _
    · split
      · apply Unfailing.bind name
        intro key
        apply Unfailing.bind (field "index_type")
        intro index
        exact .returning (field "type") _
      · exact .pure ""
termination_by 16 * n.weight + 2

theorem typeParametersIn_unfailing (n : Node) (readable : src.Readable n) :
    (typeParameters? src (n.field? "type_parameters")).Unfailing := by
  apply typeParameters?_unfailing
  intro c found
  have lighter := weight_lt_of_field? found
  exact typeParameters_unfailing c (readable_of_field? readable found)
termination_by 16 * n.weight

theorem typeParameters_unfailing (n : Node) (readable : src.Readable n) : (typeParameters src n).Unfailing := by
  rw [typeParameters_eq]
  apply Unfailing.collect
  intro p mem
  have lighter := weight_lt_of_mem_namedOf mem
  exact typeParameter_unfailing p (readable_of_mem_namedOf readable mem)
termination_by 16 * n.weight + 3

theorem typeParameter_unfailing (n : Node) (readable : src.Readable n) : (typeParameter src n).Unfailing := by
  have bound : ∀ mark name, (bound? src mark (n.field? name)).Unfailing := by
    intro mark name
    cases found : n.field? name with
    | none => exact .pure ""
    | some c =>
        have lighter := weight_lt_of_field? found
        have inner : (renderType? src c.firstOperand?).Unfailing :=
          renderType?_unfailing fun d first =>
            have lighter := weight_lt_of_firstOperand? first
            renderType_unfailing d (readable_of_firstOperand? (readable_of_field? readable found) first)
        exact .returning inner _
  rw [typeParameter_eq]
  apply Unfailing.bind (.readOrEmpty fun c found => readable_of_field? readable found)
  intro name
  apply Unfailing.bind (bound " extends " "constraint")
  intro constraint
  exact .returning (bound " = " "value") _
termination_by 16 * n.weight + 2

theorem parameter_unfailing (n : Node) (readable : src.Readable n) : (parameter src n).Unfailing := by
  rw [parameter_eq]
  apply Unfailing.bind (bindingName_unfailing (readable_boundBy readable))
  rintro ⟨name, shape⟩
  cases typed : n.field? "type" with
  | some type =>
      have lighter := weight_lt_of_field? typed
      exact .returning (renderType_unfailing type (readable_of_field? readable typed)) _
  | none =>
      cases valued : n.field? "value" with
      | none => exact .pure _
      | some value =>
          have lighter := weight_lt_of_field? valued
          dsimp only
          split
          · exact .returning (inferExpression_unfailing value (readable_of_field? readable valued)) _
          · exact .pure _
termination_by 16 * n.weight + 1

theorem parameters_unfailing (n : Node) (readable : src.Readable n) : (parameters src n).Unfailing := by
  rw [parameters_eq]
  split
  · exact .returning (.read readable) _
  · apply Unfailing.collect
    intro p mem
    have lighter := weight_lt_of_mem_namedOf mem
    exact parameter_unfailing p (readable_of_mem_namedOf readable mem)
termination_by 16 * n.weight + 1

theorem parametersIn_unfailing (n : Node) (name : String) (readable : src.Readable n) :
    (parameters? src (n.field? name)).Unfailing := by
  apply parameters?_unfailing
  intro c found
  have lighter := weight_lt_of_field? found
  exact parameters_unfailing c (readable_of_field? readable found)
termination_by 16 * n.weight

theorem functionParameters_unfailing (n : Node) (readable : src.Readable n) :
    (functionParameters src n).Unfailing := by
  rw [functionParameters_eq]
  apply parameters?_unfailing
  intro c found
  have lighter := weight_lt_of_eitherField? found
  exact parameters_unfailing c (readable_of_eitherField? readable found)
termination_by 16 * n.weight + 1

theorem inferExpression_unfailing (n : Node) (readable : src.Readable n) : (inferExpression src n).Unfailing := by
  rw [inferExpression]
  split
  case h_9 =>
    split
    · exact arrowSignature_unfailing n readable
    · exact .pure "any"
  all_goals exact .pure _
termination_by 16 * n.weight + 6

theorem arrowSignature_unfailing (n : Node) (readable : src.Readable n) : (arrowSignature src n).Unfailing := by
  rw [arrowSignature]
  apply Unfailing.bind (functionParameters_unfailing n readable)
  intro ps
  exact .returning (returnType_unfailing n ps readable) _
termination_by 16 * n.weight + 5

theorem returnType_unfailing (n : Node) (ps : List Parameter) (readable : src.Readable n) :
    (returnType src n ps).Unfailing := by
  rw [returnType_eq]
  split
  next written found =>
    have lighter := weight_lt_of_field? found
    exact renderType_unfailing written (readable_of_field? readable found)
  next =>
    split
    · exact .pure "any"
    · exact .returning (inferReturn_unfailing n ps readable) _
termination_by 16 * n.weight + 4

theorem inferReturn_unfailing (n : Node) (ps : List Parameter) (readable : src.Readable n) :
    (inferReturn src n ps).Unfailing := by
  rw [inferReturn_eq]
  split
  next => exact .pure "void"
  next body found =>
    have lighter := weight_lt_of_field? found
    have below := readable_of_field? readable found
    split
    · exact returnedType_unfailing ps body below
    · refine .returning (.collect fun e mem => ?_) _
      cases e with
      | none => exact .pure "void"
      | some e =>
          have lighter' := weight_lt_of_mem_ownReturns e body mem
          exact returnedType_unfailing ps e (below.of_inside (inside_of_mem_ownReturns e body mem))
termination_by 16 * n.weight + 3

theorem returnedType_unfailing (ps : List Parameter) (n : Node) (readable : src.Readable n) :
    (returnedType src ps n).Unfailing := by
  rw [returnedType]
  split
  · apply Unfailing.bind (.read readable)
    intro name
    split
    · exact .pure _
    · exact inferExpression_unfailing n readable
  · exact inferExpression_unfailing n readable
termination_by 16 * n.weight + 7

end

/-!
### Heritage
-/

theorem expressionName_unfailing (n : Node) (readable : src.Readable n) : (expressionName src n).Unfailing := by
  rw [expressionName_eq]
  split
  · exact .read readable
  · split
    · split
      next => exact .pure _
      next object found =>
        have lighter := weight_lt_of_field? found
        apply Unfailing.bind (expressionName_unfailing object (readable_of_field? readable found))
        intro owner
        split
        next => exact .pure _
        next property has =>
          split
          · exact .pure _
          · exact .returning (.read (readable_of_field? readable has)) _
    · exact .pure _
termination_by n.weight

theorem heritageName_unfailing (n : Node) (readable : src.Readable n) : (heritageName src n).Unfailing := by
  rw [heritageName_eq]
  split
  · exact .read readable
  · split
    · exact .returning (.read readable) _
    · split
      · split
        next => exact .pure _
        next name found =>
          have lighter := weight_lt_of_field? found
          exact heritageName_unfailing name (readable_of_field? readable found)
      · exact expressionName_unfailing n readable
termination_by n.weight

end Signature

end Outline
