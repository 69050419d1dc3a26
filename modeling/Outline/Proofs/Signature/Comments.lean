/-
Module: Outline.Proofs.Signature.Comments
Layer: Proofs
Purpose: Types, parameters and expressions are rendered the same in two trees that differ in comments alone. Each
  function is compared with itself on the two trees, along its own recursion: what it reads of a node is the same, and
  the children it goes on with correspond to each other.
Main exports: ownReturns_of_dropped, renderType_of_dropped, typeParameters_of_dropped, parameters_of_dropped,
  functionParameters_of_dropped, returnType_of_dropped, inferExpression_of_dropped, rendered_of_commentInserted
-/
import Outline.Proofs.Signature.Equations
import Outline.Proofs.Tree.Comments

namespace Outline

open Node
open Reading (readOrEmpty)

variable {src : Source} {n n' : Node}

/-- Comments below a node do not change its text, which is cut out by its span. -/
theorem Source.textOf_of_dropped (dropped : n.CommentsDropped n') : src.textOf n' = src.textOf n := by
  rw [Source.textOf, Source.textOf, dropped.start, dropped.stop]

theorem Source.line_of_dropped (dropped : n.CommentsDropped n') : src.line n' = src.line n := by
  rw [Source.line, Source.line, dropped.start]

namespace Reading

/-- A node is read in the same way without the comments below it. -/
theorem read_of_dropped (dropped : n.CommentsDropped n') : read src n' = read src n := by
  rw [read, read, Source.textOf_of_dropped dropped]

theorem readOrEmpty_of_rel {o o' : Option Node} (rel : Option.Rel CommentsDropped o o') :
    readOrEmpty src o' = readOrEmpty src o :=
  apply_of_rel rel fun _ _ _ dropped => read_of_dropped dropped

/-- Readings of corresponding elements are collected to the same. -/
theorem collect_of_forall₂ {α β γ : Type} {R : α → β → Prop} {f : α → Reading γ} {g : β → Reading γ} {as : List α}
    {bs : List β} (rel : List.Forall₂ R as bs) (same : ∀ a ∈ as, ∀ b, R a b → g b = f a) :
    collect g bs = collect f as := by
  induction rel with
  | nil => rfl
  | @cons a b as bs corresponds _ ih =>
      rw [List.forall_mem_cons] at same
      rw [collect, collect, same.1 b corresponds, ih same.2]

end Reading

namespace Signature

/-- Whether a function is asynchronous does not depend on comments. -/
theorem isAsync_of_dropped (dropped : n.CommentsDropped n') : isAsync n' = isAsync n := dropped.hasChild (by decide)

theorem isFunction_of_dropped (dropped : n.CommentsDropped n') : isFunction n' = isFunction n := by
  rw [isFunction, isFunction, dropped.kind]

theorem isGenerator_of_dropped (dropped : n.CommentsDropped n') : isGenerator n' = isGenerator n := by
  rw [isGenerator, isGenerator, dropped.kind, dropped.hasChild (by decide)]

/-- Nor does it depend on them what is a mapped type. -/
theorem isMappedMember_of_dropped (dropped : n.CommentsDropped n') : isMappedMember n' = isMappedMember n := by
  rw [isMappedMember, isMappedMember, dropped.kind, dropped.hasChild (by decide)]

/-- The name that a parameter binds is the same without comments. -/
theorem bindingName_of_dropped (dropped : n.CommentsDropped n') : bindingName src n' = bindingName src n := by
  simp only [bindingName, dropped.kind, Reading.read_of_dropped dropped]

theorem getD_of_rel (dropped : n.CommentsDropped n') {o o' : Option Node} (rel : Option.Rel CommentsDropped o o') :
    (o.getD n).CommentsDropped (o'.getD n') := by
  cases rel with
  | none => exact dropped
  | some corresponds => exact corresponds

/-- What a parameter binds is the same but for comments. -/
theorem boundBy_of_dropped (dropped : n.CommentsDropped n') : (boundBy n).CommentsDropped (boundBy n') := by
  have pattern := getD_of_rel dropped (dropped.field? "pattern")
  simp only [boundBy, pattern.kind]
  split
  · exact getD_of_rel pattern pattern.firstOperand?
  · exact pattern

/-!
### Return statements
-/

/-- A comment returns nothing. -/
theorem ownReturns_of_isComment {n : Node} (comment : n.IsComment) : ownReturns n = [] := by
  have inner : ∀ cs : List Node, (∀ c ∈ cs, c.IsComment ∧ c.weight < n.weight) → ownReturnsIn cs = [] := by
    intro cs each
    induction cs with
    | nil => rfl
    | cons c cs ih =>
        rw [List.forall_mem_cons] at each
        obtain ⟨comment, lighter⟩ := each.1
        rw [ownReturnsIn, ih each.2, comment.kind, ownReturns_of_isComment comment]
        simp [scopeBoundaries, functionKinds]
  rw [ownReturns_eq]
  exact inner n.children fun c mem => ⟨comment.children c mem, weight_lt_of_mem_children mem⟩
termination_by n.weight

/-- What is returned corresponds to what is returned in the other tree. -/
theorem ownReturns_of_dropped {n n' : Node} (dropped : n.CommentsDropped n') :
    List.Forall₂ (Option.Rel CommentsDropped) (ownReturns n) (ownReturns n') := by
  have inner : ∀ {keepsFirst cs cs'}, DroppedAmong CommentsDropped keepsFirst cs cs' →
      (∀ c ∈ cs, c.weight < n.weight) →
      List.Forall₂ (Option.Rel CommentsDropped) (ownReturnsIn cs) (ownReturnsIn cs') := by
    intro keepsFirst cs cs' among lighter
    induction among with
    | nil => exact .nil
    | @kept _ c c' cs cs' child _ ih =>
        obtain ⟨first, others⟩ := List.forall_mem_cons.1 lighter
        rw [ownReturnsIn, ownReturnsIn, child.isNamed, child.kind]
        refine List.rel_append ?_ (ih others)
        split
        · exact .nil
        · split
          · exact .cons child.firstOperand? .nil
          · split
            · exact .nil
            · exact ownReturns_of_dropped child
    | @dropped c cs cs' comment _ ih =>
        rw [ownReturnsIn, comment.kind, ownReturns_of_isComment comment]
        have others := ih (List.forall_mem_cons.1 lighter).2
        simpa [scopeBoundaries, functionKinds] using others
  rw [ownReturns_eq, ownReturns_eq]
  exact inner dropped.children fun c mem => weight_lt_of_mem_children mem
termination_by n.weight

/-!
### Rendering
-/

/-- Only a literal type is rendered in the form of literals. -/
theorem kind_of_literal {kind : String} (form : TypeForm.ofKind? kind = some .literal) : kind = "literal_type" := by
  unfold TypeForm.ofKind? at form
  split at form <;> first | rfl | cases form

variable (src)

mutual

/-- A type is rendered the same. -/
theorem renderType_of_dropped {n n' : Node} (dropped : n.CommentsDropped n') :
    renderType src n' = renderType src n := by
  rw [renderType, renderType, dropped.kind, Source.line_of_dropped dropped]
  split
  next => rfl
  next form known => rw [renderForm_of_dropped form dropped known]
termination_by 16 * n.weight + 15

/-- Each form of type is rendered without regard to comments. -/
theorem renderForm_of_dropped {n n' : Node} (form : TypeForm) (dropped : n.CommentsDropped n')
    (known : TypeForm.ofKind? n.kind = some form) : renderForm src form n' = renderForm src form n := by
  have type : ∀ c ∈ n.children, ∀ c', c.CommentsDropped c' → renderType src c' = renderType src c :=
    fun c mem c' child =>
      have lighter := weight_lt_of_mem_children mem
      renderType_of_dropped child
  have operand : ∀ c ∈ n.operands, c ∈ n.children := fun c mem =>
    mem_children_of_mem_named (mem_named_of_mem_operands mem)
  have first : renderType? src n'.firstOperand? = renderType? src n.firstOperand? :=
    apply_of_rel dropped.firstOperand? fun c c' found =>
      type c (operand c (mem_operands_of_firstOperand? found)) c'
  have field : ∀ name, renderType? src (n'.field? name) = renderType? src (n.field? name) := fun name =>
    apply_of_rel (dropped.field? name) fun c c' found => type c (mem_children_of_field? found) c'
  have operands := dropped.operands
  rw [renderForm_eq, renderForm_eq]
  cases form with
  | word | qualified => simp only [Reading.read_of_dropped dropped]
  | this | existential | mapped => rfl
  | wrapped | array | optional | rest | parenthesized | keyOf | readonly => simp only [first]
  | conditional => simp only [field]
  | generic =>
      have list := rel_or (dropped.field? "type_arguments")
        (dropped.child? (by decide : "comment" ∉ ["type_arguments"]))
      simp only [Reading.readOrEmpty_of_rel (rel_or (dropped.field? "name") dropped.firstOperand?)]
      rcases missing_or_found_of_rel list with ⟨missing, missing'⟩ | ⟨list, list', found, found', child⟩
      · simp only [missing, missing']
      · have mem : list ∈ n.children := by
          rcases Option.or_eq_some_iff.1 found with found | ⟨_, found⟩
          · exact mem_children_of_field? found
          · exact mem_children_of_child? found
        have lighter := weight_lt_of_mem_children mem
        simp only [found, found', typeArguments_of_dropped child]
  | tuple => rw [typeArguments_of_dropped dropped]
  | tupleMember =>
      have annotated : renderType? src ((n'.field? "type").or (n'.child? ["type_annotation"])) =
          renderType? src ((n.field? "type").or (n.child? ["type_annotation"])) := by
        refine apply_of_rel (rel_or (dropped.field? "type") (dropped.child? (by decide))) fun c c' found => type c ?_ c'
        rcases Option.or_eq_some_iff.1 found with found | ⟨_, found⟩
        · exact mem_children_of_field? found
        · exact mem_children_of_child? found
      simp only [annotated, Reading.readOrEmpty_of_rel (dropped.eitherField? "name" "pattern"), dropped.kind,
        dropped.hasChild (by decide : "comment" ≠ "?")]
  | union => rw [operandTypes_of_dropped "union_type" dropped]
  | intersection => rw [operandTypes_of_dropped "intersection_type" dropped]
  | function => exact functionType_of_dropped dropped
  | constructor => simp only [functionType_of_dropped dropped, dropped.hasChild (by decide : "comment" ≠ "abstract")]
  | lookup =>
      generalize n.operands = cs at operands operand
      generalize n'.operands = cs' at operands
      cases operands with
      | nil => rfl
      | @cons object object' _ _ first rest =>
          cases rest with
          | nil => rfl
          | @cons key key' _ _ second _ =>
              have object := type object (operand object (by simp)) object' first
              have key := type key (operand key (by simp)) key' second
              simp only [object, key]
  | typeOf =>
      rcases missing_or_found_of_rel dropped.firstOperand? with
        ⟨missing, missing'⟩ | ⟨target, target', found, found', child⟩
      · rw [missing, missing']
      · simp only [found, found', Reading.read_of_dropped child]
  | predicate => exact typePredicate_of_dropped dropped
  | assertion =>
      rcases missing_or_found_of_rel dropped.firstOperand? with
        ⟨missing, missing'⟩ | ⟨target, target', found, found', child⟩
      · rw [missing, missing']
      · have lighter := weight_lt_of_firstOperand? found
        simp only [found, found', child.kind, typePredicate_of_dropped child, Reading.read_of_dropped child]
  | literal =>
      have lit := getD_of_rel dropped (dropped.head?_named (kind_of_literal known))
      simp only [lit.kind, Reading.read_of_dropped lit]
  | infer =>
      generalize n.operands = cs at operands operand
      generalize n'.operands = cs' at operands
      cases operands with
      | nil => rfl
      | @cons name name' _ _ first rest =>
          cases rest with
          | nil => simp only [Reading.read_of_dropped first]
          | @cons bound bound' _ _ second _ =>
              have bound := type bound (operand bound (by simp)) bound' second
              simp only [bound, Reading.read_of_dropped first]
  | object =>
      have mapped : n'.operands.any isMappedMember = n.operands.any isMappedMember := by
        generalize n.operands = cs at operands
        generalize n'.operands = cs' at operands
        induction operands with
        | nil => rfl
        | cons child _ ih => rw [List.any_cons, List.any_cons, isMappedMember_of_dropped child, ih]
      have members : Reading.collect (objectMember src) n'.operands =
          Reading.collect (objectMember src) n.operands := by
        refine Reading.collect_of_forall₂ operands fun m mem m' child => ?_
        have lighter := weight_lt_of_mem_operands mem
        exact objectMember_of_dropped child
      rw [mapped, members]
termination_by 16 * n.weight + 14

/-- Type arguments are rendered without regard to comments. -/
theorem typeArguments_of_dropped {n n' : Node} (dropped : n.CommentsDropped n') :
    typeArguments src n' = typeArguments src n := by
  rw [typeArguments_eq, typeArguments_eq]
  refine Reading.collect_of_forall₂ dropped.operands fun c mem c' child => ?_
  have lighter := weight_lt_of_mem_operands mem
  exact renderType_of_dropped child
termination_by 16 * n.weight + 1

/-- So are the operands of a union or an intersection. -/
theorem operandTypes_of_dropped {n n' : Node} (kind : String) (dropped : n.CommentsDropped n') :
    operandTypes src kind n' = operandTypes src kind n := by
  rw [operandTypes_eq, operandTypes_eq]
  congr 1
  refine Reading.collect_of_forall₂ dropped.operands fun c mem c' child => ?_
  have lighter := weight_lt_of_mem_operands mem
  rw [child.kind, operandTypes_of_dropped kind child, renderType_of_dropped child]
termination_by 16 * n.weight + 1

theorem typeIn_of_dropped {n n' : Node} (dropped : n.CommentsDropped n') (name : String) :
    renderType? src (n'.field? name) = renderType? src (n.field? name) := by
  refine apply_of_rel (dropped.field? name) fun _ _ found child => ?_
  have lighter := weight_lt_of_field? found
  exact renderType_of_dropped child
termination_by 16 * n.weight

theorem typePredicate_of_dropped {n n' : Node} (dropped : n.CommentsDropped n') :
    typePredicate src n' = typePredicate src n := by
  simp only [typePredicate_eq, Reading.readOrEmpty_of_rel (dropped.field? "name"), typeIn_of_dropped dropped]
termination_by 16 * n.weight + 1

theorem functionType_of_dropped {n n' : Node} (dropped : n.CommentsDropped n') :
    functionType src n' = functionType src n := by
  have result : renderType? src (n'.eitherField? "return_type" "type") =
      renderType? src (n.eitherField? "return_type" "type") :=
    apply_of_rel (dropped.eitherField? "return_type" "type") fun _ _ found child =>
      have lighter := weight_lt_of_eitherField? found
      renderType_of_dropped child
  simp only [functionType_eq, result, parametersIn_of_dropped dropped, typeParametersIn_of_dropped dropped]
termination_by 16 * n.weight + 2

theorem objectMember_of_dropped {n n' : Node} (dropped : n.CommentsDropped n') :
    objectMember src n' = objectMember src n := by
  simp only [objectMember_eq, dropped.kind, typeIn_of_dropped dropped,
    Reading.readOrEmpty_of_rel (dropped.field? "name"), parametersIn_of_dropped dropped,
    typeParametersIn_of_dropped dropped, dropped.hasChild (by decide : "comment" ≠ "readonly"),
    dropped.hasChild (by decide : "comment" ≠ "?")]
termination_by 16 * n.weight + 2

theorem typeParametersIn_of_dropped {n n' : Node} (dropped : n.CommentsDropped n') :
    typeParameters? src (n'.field? "type_parameters") = typeParameters? src (n.field? "type_parameters") := by
  refine apply_of_rel (dropped.field? "type_parameters") fun _ _ found child => ?_
  have lighter := weight_lt_of_field? found
  exact typeParameters_of_dropped child
termination_by 16 * n.weight

theorem typeParameters_of_dropped {n n' : Node} (dropped : n.CommentsDropped n') :
    typeParameters src n' = typeParameters src n := by
  rw [typeParameters_eq, typeParameters_eq]
  refine Reading.collect_of_forall₂ (dropped.namedOf (by decide)) fun p mem p' child => ?_
  have lighter := weight_lt_of_mem_namedOf mem
  exact typeParameter_of_dropped child
termination_by 16 * n.weight + 3

theorem typeParameter_of_dropped {n n' : Node} (dropped : n.CommentsDropped n') :
    typeParameter src n' = typeParameter src n := by
  have bound : ∀ mark name, bound? src mark (n'.field? name) = bound? src mark (n.field? name) := by
    intro mark name
    refine apply_of_rel (dropped.field? name) fun c c' found child => ?_
    have lighter := weight_lt_of_field? found
    have inner : renderType? src c'.firstOperand? = renderType? src c.firstOperand? :=
      apply_of_rel child.firstOperand? fun d d' found grandchild =>
        have lighter := weight_lt_of_firstOperand? found
        renderType_of_dropped grandchild
    simp only [bound?, inner]
  simp only [typeParameter_eq, bound, Reading.readOrEmpty_of_rel (dropped.field? "name"),
    dropped.hasChild (by decide : "comment" ≠ "const")]
termination_by 16 * n.weight + 2

theorem parameter_of_dropped {n n' : Node} (dropped : n.CommentsDropped n') : parameter src n' = parameter src n := by
  have pattern := getD_of_rel dropped (dropped.field? "pattern")
  rw [parameter_eq, parameter_eq, bindingName_of_dropped (boundBy_of_dropped dropped), pattern.kind, dropped.kind]
  dsimp only
  congr 1
  funext ⟨name, shape⟩
  rcases missing_or_found_of_rel (dropped.field? "type") with
    ⟨untyped, untyped'⟩ | ⟨type, type', typed, typed', child⟩
  · rcases missing_or_found_of_rel (dropped.field? "value") with
      ⟨unvalued, unvalued'⟩ | ⟨value, value', valued, valued', child⟩
    · simp only [untyped, untyped', unvalued, unvalued']
    · have lighter := weight_lt_of_field? valued
      simp only [untyped, untyped', valued, valued', inferExpression_of_dropped child]
  · have lighter := weight_lt_of_field? typed
    simp only [typed, typed', renderType_of_dropped child]
termination_by 16 * n.weight + 1

theorem parameters_of_dropped {n n' : Node} (dropped : n.CommentsDropped n') :
    parameters src n' = parameters src n := by
  have each : Reading.collect (parameter src) (n'.namedOf ["required_parameter", "optional_parameter"]) =
      Reading.collect (parameter src) (n.namedOf ["required_parameter", "optional_parameter"]) := by
    refine Reading.collect_of_forall₂ (dropped.namedOf (by decide)) fun p mem p' child => ?_
    have lighter := weight_lt_of_mem_namedOf mem
    exact parameter_of_dropped child
  rw [parameters_eq, parameters_eq, dropped.kind, Reading.read_of_dropped dropped, each]
termination_by 16 * n.weight + 1

theorem parametersIn_of_dropped {n n' : Node} (dropped : n.CommentsDropped n') :
    parameters? src (n'.field? "parameters") = parameters? src (n.field? "parameters") := by
  refine apply_of_rel (dropped.field? "parameters") fun _ _ found child => ?_
  have lighter := weight_lt_of_field? found
  exact parameters_of_dropped child
termination_by 16 * n.weight

theorem functionParameters_of_dropped {n n' : Node} (dropped : n.CommentsDropped n') :
    functionParameters src n' = functionParameters src n := by
  rw [functionParameters_eq, functionParameters_eq]
  exact apply_of_rel (dropped.eitherField? "parameters" "parameter") fun _ _ found child =>
    have lighter := weight_lt_of_eitherField? found
    parameters_of_dropped child
termination_by 16 * n.weight + 1

/-- The type of an expression is found without regard to comments. -/
theorem inferExpression_of_dropped {n n' : Node} (dropped : n.CommentsDropped n') :
    inferExpression src n' = inferExpression src n := by
  rw [inferExpression, inferExpression, dropped.kind, isFunction_of_dropped dropped, arrowSignature_of_dropped dropped]
termination_by 16 * n.weight + 6

theorem arrowSignature_of_dropped {n n' : Node} (dropped : n.CommentsDropped n') :
    arrowSignature src n' = arrowSignature src n := by
  simp only [arrowSignature, functionParameters_of_dropped dropped, returnType_of_dropped dropped]
termination_by 16 * n.weight + 5

theorem returnType_of_dropped {n n' : Node} (dropped : n.CommentsDropped n') (ps : List Parameter) :
    returnType src n' ps = returnType src n ps := by
  have body := isSome_of_rel (dropped.field? "body")
  simp only [returnType_eq, isGenerator_of_dropped dropped, isAsync_of_dropped dropped, ← Option.not_isSome, body,
    inferReturn_of_dropped dropped ps]
  rcases missing_or_found_of_rel (dropped.field? "return_type") with
    ⟨missing, missing'⟩ | ⟨type, type', written, written', child⟩
  · simp only [missing, missing']
  · have lighter := weight_lt_of_field? written
    simp only [written, written', renderType_of_dropped child]
termination_by 16 * n.weight + 4

/-- So is a result that is not written down, from the return statements. -/
theorem inferReturn_of_dropped {n n' : Node} (dropped : n.CommentsDropped n') (ps : List Parameter) :
    inferReturn src n' ps = inferReturn src n ps := by
  rw [inferReturn_eq, inferReturn_eq]
  rcases missing_or_found_of_rel (dropped.field? "body") with
    ⟨missing, missing'⟩ | ⟨body, body', found, found', child⟩
  · rw [missing, missing']
  · have lighter := weight_lt_of_field? found
    have own : Reading.collect (returnedType? src ps) (ownReturns body') =
        Reading.collect (returnedType? src ps) (ownReturns body) := by
      refine Reading.collect_of_forall₂ (ownReturns_of_dropped child) fun e mem e' corresponds => ?_
      refine apply_of_rel corresponds fun c c' returned expression => ?_
      have lighter' := weight_lt_of_mem_ownReturns c body (returned ▸ mem)
      exact returnedType_of_dropped ps expression
    simp only [found, found', child.kind, returnedType_of_dropped ps child, own]
termination_by 16 * n.weight + 3

theorem returnedType_of_dropped (ps : List Parameter) {n n' : Node} (dropped : n.CommentsDropped n') :
    returnedType src ps n' = returnedType src ps n := by
  rw [returnedType, returnedType, dropped.kind, Reading.read_of_dropped dropped, inferExpression_of_dropped dropped]
termination_by 16 * n.weight + 7

end

/-!
### One comment more
-/

/-- A comment inserted at any place of a type, of formal or type parameters or of an expression changes nothing of what
    they are rendered to. -/
theorem rendered_of_commentInserted {n n' : Node} (inserted : n.CommentInserted n') :
    renderType src n' = renderType src n ∧ parameters src n' = parameters src n ∧
      typeParameters src n' = typeParameters src n ∧ inferExpression src n' = inferExpression src n := by
  have dropped := inserted.dropped
  refine ⟨?_, ?_, ?_, ?_⟩
  · exact (renderType_of_dropped src dropped).symm
  · exact (parameters_of_dropped src dropped).symm
  · exact (typeParameters_of_dropped src dropped).symm
  · exact (inferExpression_of_dropped src dropped).symm

/-- A function of which the parameter has a function for a default value. -/
def remarkedSource : Source := ⟨"(a=()=>{return/*c*/1})=>2"⟩

/-- Its tree, with some nodes between `return` and the number. -/
def remarkedFunction (between : List Node) : Node :=
  .construct "arrow_function" none 0 25
    [.construct "formal_parameters" (some "parameters") 0 22
      [.construct "required_parameter" none 1 21
        [.construct "identifier" (some "pattern") 1 2 [],
         .construct "arrow_function" (some "value") 3 21
          [.construct "formal_parameters" (some "parameters") 3 5 [],
           .construct "statement_block" (some "body") 7 21
            [.construct "return_statement" none 8 20 (between ++ [.construct "number" none 19 20 []])]]]],
     .construct "number" (some "body") 24 25 []]

/-- A comment before what is returned in a default value. -/
theorem rendered_of_commentInserted_return :
    (remarkedFunction []).CommentInserted (remarkedFunction [comment 14 19]) ∧
      inferExpression remarkedSource (remarkedFunction [comment 14 19]) =
        inferExpression remarkedSource (remarkedFunction []) ∧
      (inferExpression remarkedSource (remarkedFunction [])).result.toOption =
        some "(a: () => number) => number" := by
  have inserted : (remarkedFunction []).CommentInserted (remarkedFunction [comment 14 19]) := by
    refine @CommentInserted.deeper _ _ _ [] _ rfl ?_
    refine @CommentInserted.deeper _ _ _ [] _ rfl ?_
    refine @CommentInserted.deeper _ _ _ [.construct "identifier" (some "pattern") 1 2 []] _ rfl ?_
    refine @CommentInserted.deeper _ _ _ [.construct "formal_parameters" (some "parameters") 3 5 []] _ rfl ?_
    refine @CommentInserted.deeper _ _ _ [] _ rfl ?_
    exact @CommentInserted.here _ _ [] _ rfl rfl rfl rfl (by decide)
  obtain ⟨_, _, _, same⟩ := rendered_of_commentInserted remarkedSource inserted
  exact ⟨inserted, same, by decide +kernel⟩

end Signature

end Outline
