/-
Module: Outline.Proofs.Signature.Forms
Layer: Proofs
Purpose: The forms of types in canonical layout, one lemma each: given that the parts are shown faithfully, so is
  the type. Forms with parameters or members come later.
Main exports: TypeRendered.array, TypeRendered.union, TypeRendered.generic, TypeRendered.conditional and their like
-/
import Outline.Proofs.Signature.Faithful

namespace Outline

open Signature (renderForm_eq TypeForm)
open Sketch (Stands)

variable {src : Source} {s t : Sketch} {n : Node}

namespace Sketch.Stands

/-- What is shown of a type that fills a field. -/
theorem renderField (stands : Stands src s n) (name : String) (found : s.field? name = some t)
    (rendered : TypeRendered src t) : Signature.renderType? src (n.field? name) = pure t.shown := by
  obtain ⟨m, node, child⟩ := stands.of_field name found
  rw [node]
  exact rendered.renders m child

/-- What is shown of the first operand. -/
theorem renderFirst (stands : Stands src s n) {rest : List Sketch} (found : s.operands = t :: rest)
    (rendered : TypeRendered src t) : Signature.renderType? src n.firstOperand? = pure t.shown := by
  obtain ⟨m, node, child⟩ := stands.of_first found
  rw [node]
  exact rendered.renders m child

end Sketch.Stands

namespace TypeRendered

/-!
### Words and names
-/

theorem predefined {w : String} (known : w ∈ predefinedTypes) : TypeRendered src (.predefinedType w) := by
  have word : IsWord w := by
    revert w
    decide
  have shown : (Sketch.predefinedType w).shown = w := by simp [Sketch.predefinedType]
  have text : (Sketch.predefinedType w).text = w := by simp [Sketch.predefinedType]
  refine .of_form "predefined_type" .word rfl rfl (by simp) rfl (by rw [shown]; exact word.1) fun n stands => ?_
  rw [renderForm_eq]
  simp only [stands.read, pure_bind, text, shown, Text.squash_solid word.2]

theorem uniqueSymbol : TypeRendered src .uniqueSymbol := by
  have kept : Text.squash Sketch.uniqueSymbol.text = Sketch.uniqueSymbol.shown := by decide +kernel
  refine .of_form "predefined_type" .word rfl rfl (by simp) rfl (by simp [Sketch.uniqueSymbol]) fun n stands => ?_
  rw [renderForm_eq]
  simp only [stands.read, pure_bind, kept]

theorem name (name : TypeName s) : TypeRendered src s := by
  have nonempty : s.shown ≠ "" := by rw [name.shown]; exact name.isWord.1
  have squash : Text.squash s.text = s.shown := by rw [name.shown, Text.squash_solid name.isWord.2]
  have compact : Text.compact s.text = s.shown := by rw [name.shown, Text.compact_solid name.isWord.2]
  cases name with
  | simple _ =>
      refine .of_form "type_identifier" .word rfl rfl (by simp) rfl nonempty fun n stands => ?_
      rw [renderForm_eq]
      simp only [stands.read, pure_bind, squash]
  | qualified _ _ =>
      refine .of_form "nested_type_identifier" .qualified rfl rfl (by simp) rfl nonempty fun n stands => ?_
      rw [renderForm_eq]
      simp only [stands.read, pure_bind, compact]
  | nested _ _ _ =>
      refine .of_form "nested_type_identifier" .qualified rfl rfl (by simp) rfl nonempty fun n stands => ?_
      rw [renderForm_eq]
      simp only [stands.read, pure_bind, compact]

/-!
### One type inside another
-/

/-- A type with one type in it, of which the form says what to put around this. -/
theorem of_operand (kind : String) (form : TypeForm) (isKind : s.kind = kind)
    (known : TypeForm.ofKind? kind = some form)
    (single : kind ∉ ["comment", "abstract", "mapped_type_clause", "union_type", "intersection_type"])
    (nonempty : s.shown ≠ "") (named : s.isNamed = true) (children : s.named = [t]) (inner : TypeRendered src t)
    (renders : ∀ n, Signature.renderType? src n.firstOperand? = pure t.shown →
      Signature.renderForm src form n = pure s.shown) : TypeRendered src s := by
  have operands : s.operands = [t] := Sketch.operands_of_named children (by simp [inner.operand])
  exact .of_form kind form isKind known single named nonempty fun n stands =>
    renders n (stands.renderFirst operands inner)

/-- An array type is rendered as it is shown if its elements are. -/
theorem array (element : TypeRendered src t) : TypeRendered src (.arrayType t) := by
  refine .of_operand "array_type" .array rfl rfl (by simp) (by simp [Sketch.shown_arrayType]) rfl
    (Sketch.namedIn_child element.named _) element fun n first => ?_
  rw [renderForm_eq]
  simp only [first, pure_bind, Sketch.shown_arrayType]

theorem parenthesized (inner : TypeRendered src t) : TypeRendered src (.parenthesizedType t) := by
  refine .of_operand "parenthesized_type" .parenthesized rfl rfl (by simp)
    (by simp [Sketch.shown_parenthesizedType]) rfl (Sketch.namedIn_child inner.named _) inner fun n first => ?_
  rw [renderForm_eq]
  simp only [first, pure_bind, Sketch.shown_parenthesizedType]

theorem keyOf (object : TypeRendered src t) : TypeRendered src (.keyOfType t) := by
  refine .of_operand "index_type_query" .keyOf rfl rfl (by simp) (by simp [Sketch.shown_keyOfType]) rfl
    (Sketch.namedIn_child object.named _) object fun n first => ?_
  rw [renderForm_eq]
  simp only [first, pure_bind, Sketch.shown_keyOfType]

theorem readonly (inner : TypeRendered src t) : TypeRendered src (.readonlyType t) := by
  refine .of_operand "readonly_type" .readonly rfl rfl (by simp) (by simp [Sketch.shown_readonlyType]) rfl
    (Sketch.namedIn_child inner.named _) inner fun n first => ?_
  rw [renderForm_eq]
  simp only [first, pure_bind, Sketch.shown_readonlyType]

theorem optional (inner : TypeRendered src t) : TypeRendered src (.optionalType t) := by
  refine .of_operand "optional_type" .optional rfl rfl (by simp) (by simp [Sketch.shown_optionalType]) rfl
    (Sketch.namedIn_child inner.named _) inner fun n first => ?_
  rw [renderForm_eq]
  simp only [first, pure_bind, Sketch.shown_optionalType]

theorem rest (inner : TypeRendered src t) : TypeRendered src (.restType t) := by
  refine .of_operand "rest_type" .rest rfl rfl (by simp) (by simp [Sketch.shown_restType]) rfl
    (Sketch.namedIn_child inner.named _) inner fun n first => ?_
  rw [renderForm_eq]
  simp only [first, pure_bind, Sketch.shown_restType]

/-!
### Unions and intersections
-/

/-- A union or intersection of two operands, each of which may be one too: its list of operands is theirs, one after
    the other. -/
theorem joined {kind mark : String} {form : TypeForm} {a b : Sketch} (left : OperandRendered src kind mark a)
    (right : OperandRendered src kind mark b) (isKind : s.kind = kind) (known : TypeForm.ofKind? kind = some form)
    (operands : s.operands = [a, b]) (shown : s.shown = a.shown ++ mark ++ b.shown) (nonempty : s.shown ≠ "")
    (join : ∀ n, Signature.renderForm src form n = do return Text.joinWith mark (← Signature.operandTypes src kind n)) :
    (∀ n, Stands src s n → Signature.renderType src n = pure s.shown) ∧ OperandRendered src kind mark s := by
  have opened : ∀ n, Stands src s n → ∃ texts,
      Signature.operandTypes src kind n = pure texts ∧ texts ≠ [] ∧ Text.joinWith mark texts = s.shown := by
    intro n stands
    have together := stands.operands
    rw [operands] at together
    rw [Signature.operandTypes_eq]
    generalize n.operands = ns at together ⊢
    -- Each operand adds a list: its own operands if it is of the same kind, else itself.
    rcases together with _ | ⟨first, _ | ⟨second, _ | _⟩⟩
    obtain ⟨xs, readLeft, someLeft, shownLeft⟩ := left _ first
    obtain ⟨ys, readRight, _, shownRight⟩ := right _ second
    refine ⟨xs ++ ys, ?_, by simp [someLeft], ?_⟩
    · simp only [Reading.collect, readLeft, readRight, pure_bind]
      simp
    · rw [Text.joinWith_append mark someLeft ‹_›, shownLeft, shownRight, shown]
  constructor
  · intro n stands
    obtain ⟨texts, read, _, joins⟩ := opened n stands
    refine Signature.renderType_of_form (by rw [stands.kind, isKind, known]) nonempty ?_
    rw [join, read, pure_bind, joins]
  · intro n stands
    rw [if_pos (stands.kind.trans isKind)]
    exact opened n stands

/-- Both operands of a union or intersection are found. -/
theorem operands_joinedType {kind mark : String} {a b : Sketch} (left : TypeRendered src a)
    (right : TypeRendered src b) : (Sketch.joinedType kind mark a b).operands = [a, b] :=
  Sketch.operands_of_named
    (by simp [Sketch.joinedType, Sketch.named_node, Sketch.namedIn_child left.named, Sketch.namedIn_child right.named])
    (by simp [left.operand, right.operand])

/-- A union is rendered as it is shown if both sides are; a union on either side is taken apart. -/
theorem union {a b : Sketch} (left : TypeRendered src a) (right : TypeRendered src b) :
    TypeRendered src (.unionType a b) := by
  have nonempty : (Sketch.unionType a b).shown ≠ "" := by simp [Sketch.shown_unionType]
  have kind : (Sketch.unionType a b).kind = "union_type" := rfl
  obtain ⟨renders, unions⟩ := joined left.unions right.unions kind rfl (operands_joinedType left right)
    (Sketch.shown_unionType a b) nonempty fun n => renderForm_eq src n .union
  exact {
    named := rfl
    operand := by simp [kind]
    noKeyword := by simp [kind]
    noClause := by simp [kind]
    renders, nonempty, unions
    intersections := .of_renders (by simp [kind]) renders }

theorem intersection {a b : Sketch} (left : TypeRendered src a) (right : TypeRendered src b) :
    TypeRendered src (.intersectionType a b) := by
  have nonempty : (Sketch.intersectionType a b).shown ≠ "" := by simp [Sketch.shown_intersectionType]
  have kind : (Sketch.intersectionType a b).kind = "intersection_type" := rfl
  obtain ⟨renders, intersections⟩ := joined left.intersections right.intersections kind rfl
    (operands_joinedType left right) (Sketch.shown_intersectionType a b) nonempty
    fun n => renderForm_eq src n .intersection
  exact {
    named := rfl
    operand := by simp [kind]
    noKeyword := by simp [kind]
    noClause := by simp [kind]
    renders, nonempty, intersections
    unions := .of_renders (by simp [kind]) renders }

/-!
### Types with several parts
-/

/-- A list of types, given by the operands of a node. -/
theorem typeArguments {ts : List Sketch} (types : ∀ t ∈ ts, TypeRendered src t) (children : s.named = ts)
    (stands : Stands src s n) : Signature.typeArguments src n = pure (ts.map Sketch.shown) := by
  have operands : s.operands = ts := Sketch.operands_of_named children fun t mem => (types t mem).operand
  have together := stands.operands
  rw [operands] at together
  rw [Signature.typeArguments_eq, Rendered.collect (fun t mem => (types t mem).toRendered) together]

theorem generic {ts : List Sketch} (name : TypeName s) (arguments : ∀ a ∈ t :: ts, TypeRendered src a) :
    TypeRendered src (.genericType s (t :: ts)) := by
  have children : (Sketch.angled "type_arguments" (t :: ts)).named = t :: ts := by
    simp [Sketch.angled, Sketch.named_node, Sketch.namedIn_separated fun a mem => (arguments a mem).named]
  refine .of_form "generic_type" .generic rfl rfl (by simp) rfl (by simp [Sketch.shown_genericType])
    fun n stands => ?_
  obtain ⟨m, nameField, named⟩ := stands.of_field "name" (c := s) rfl
  obtain ⟨l, listField, list⟩ := stands.of_field "type_arguments" (c := .angled "type_arguments" (t :: ts)) rfl
  rw [renderForm_eq]
  simp only [nameField, listField, Option.some_or, Reading.readOrEmpty, named.read, pure_bind,
    typeArguments arguments children list, Text.compact_solid name.isWord.2, Sketch.shown_genericType, name.shown]
  simp [Signature.typeParameterList, String.append_assoc]

theorem tuple {ms : List Sketch} (members : ∀ m ∈ ms, TypeRendered src m) : TypeRendered src (.tupleType ms) := by
  have children : (Sketch.tupleType ms).named = ms := by
    simp [Sketch.tupleType, Sketch.named_node, Sketch.namedIn_separated fun m mem => (members m mem).named]
  refine .of_form "tuple_type" .tuple rfl rfl (by simp) rfl (by simp [Sketch.shown_tupleType]) fun n stands => ?_
  rw [renderForm_eq]
  simp only [typeArguments members children stands, pure_bind, Sketch.shown_tupleType]

theorem conditional {c e a b : Sketch} (checked : TypeRendered src c) (bound : TypeRendered src e)
    (yes : TypeRendered src a) (no : TypeRendered src b) : TypeRendered src (.conditionalType c e a b) := by
  refine .of_form "conditional_type" .conditional rfl rfl (by simp) rfl (by simp [Sketch.shown_conditionalType])
    fun n stands => ?_
  have left := stands.renderField "left" (t := c) rfl checked
  have right := stands.renderField "right" (t := e) rfl bound
  have consequence := stands.renderField "consequence" (t := a) rfl yes
  have alternative := stands.renderField "alternative" (t := b) rfl no
  rw [renderForm_eq]
  simp only [left, right, consequence, alternative, pure_bind, Sketch.shown_conditionalType]

theorem lookup {k : Sketch} (object : TypeRendered src t) (key : TypeRendered src k) :
    TypeRendered src (.lookupType t k) := by
  have children : (Sketch.lookupType t k).named = [t, k] := by
    simp [Sketch.lookupType, Sketch.named_node, Sketch.namedIn_child object.named, Sketch.namedIn_child key.named]
  have operands := Sketch.operands_of_named children (by simp [object.operand, key.operand])
  refine .of_form "lookup_type" .lookup rfl rfl (by simp) rfl (by simp [Sketch.shown_lookupType]) fun n stands => ?_
  have together := stands.operands
  rw [operands] at together
  rw [renderForm_eq]
  generalize n.operands = ns at together ⊢
  rcases together with _ | ⟨first, _ | ⟨second, _ | _⟩⟩
  simp only [object.renders _ first, key.renders _ second, pure_bind, Sketch.shown_lookupType]

theorem typeOf {a : Sketch} (path : Path a) : TypeRendered src (.typeQuery a) := by
  have operands : (Sketch.typeQuery a).operands = [a] := by
    cases path <;> rfl
  refine .of_form "type_query" .typeOf rfl rfl (by simp) rfl (by simp [Sketch.shown_typeQuery]) fun n stands => ?_
  obtain ⟨m, first, target⟩ := stands.of_first operands
  rw [renderForm_eq]
  simp only [first, target.read, pure_bind, Text.compact_solid path.isWord.2, Sketch.shown_typeQuery, path.shown]

/-- A type predicate, alone or in an assertion. -/
theorem typePredicate {x : Sketch} (subject : Subject x) (type : TypeRendered src t)
    (stands : Stands src (.typePredicate x t) n) :
    Signature.typePredicate src n = pure (Sketch.typePredicate x t).shown := by
  have name := stands.readOrEmpty "name" (c := x) (by simp [Sketch.typePredicate])
  have rendered := stands.renderField "type" (t := t) (by simp [Sketch.typePredicate]) type
  rw [Signature.typePredicate_eq]
  simp only [name, rendered, pure_bind, Signature.orElse, if_neg subject.text_ne, Sketch.shown_typePredicate,
    subject.shown]

/-- A predicate is rendered as it is shown if its type is. -/
theorem predicate {x : Sketch} (subject : Subject x) (type : TypeRendered src t) :
    TypeRendered src (.typePredicate x t) := by
  refine .of_form "type_predicate" .predicate rfl rfl (by simp) rfl (by simp [Sketch.shown_typePredicate])
    fun n stands => ?_
  rw [renderForm_eq]
  exact typePredicate subject type stands

theorem asserts {x : Sketch} (subject : Subject x) : TypeRendered src (.asserts x) := by
  have operands : (Sketch.asserts x).operands = [x] := by
    cases subject <;> rfl
  have noPredicate : x.kind ≠ "type_predicate" := by
    cases subject <;> simp [Sketch.identifier, Sketch.self, Sketch.kind]
  refine .of_form "asserts" .assertion rfl rfl (by simp) rfl (by simp [Sketch.shown_asserts]) fun n stands => ?_
  obtain ⟨m, first, target⟩ := stands.of_first operands
  rw [renderForm_eq]
  simp only [first, target.kind, if_neg noPredicate, target.read, pure_bind, Sketch.shown_asserts, subject.shown]

theorem assertsIs {x : Sketch} (subject : Subject x) (type : TypeRendered src t) :
    TypeRendered src (.asserts (.typePredicate x t)) := by
  refine .of_form "asserts" .assertion rfl rfl (by simp) rfl (by simp [Sketch.shown_asserts]) fun n stands => ?_
  have operands : (Sketch.asserts (.typePredicate x t)).operands = [.typePredicate x t] := rfl
  obtain ⟨m, first, target⟩ := stands.of_first operands
  have isPredicate : m.kind = "type_predicate" := target.kind
  rw [renderForm_eq]
  simp only [first]
  rw [if_pos isPredicate, typePredicate subject type target, pure_bind, Sketch.shown_asserts]

theorem infer (w : String) : TypeRendered src (.inferType w) := by
  refine .of_form "infer_type" .infer rfl rfl (by simp) rfl (by simp [Sketch.shown_inferType]) fun n stands => ?_
  have together : List.Forall₂ (Stands src) [Sketch.typeIdentifier w] n.operands := stands.operands
  rw [renderForm_eq]
  generalize n.operands = ns at together ⊢
  rcases together with _ | ⟨name, _ | _⟩
  simp only [name.read, pure_bind, Sketch.shown_inferType, Sketch.typeIdentifier, Sketch.text_leaf]

theorem inferBounded (w : String) (bound : TypeRendered src t) :
    TypeRendered src (.inferBoundedType w t) := by
  have children : (Sketch.inferBoundedType w t).named = [.typeIdentifier w, t] := by
    have name : (Sketch.typeIdentifier w).isNamed = true := rfl
    simp [Sketch.inferBoundedType, Sketch.named_node, Sketch.namedIn_child name, Sketch.namedIn_child bound.named]
  have operands := Sketch.operands_of_named children (by simp [bound.operand, Sketch.typeIdentifier])
  refine .of_form "infer_type" .infer rfl rfl (by simp) rfl (by simp [Sketch.shown_inferBoundedType])
    fun n stands => ?_
  have together := stands.operands
  rw [operands] at together
  rw [renderForm_eq]
  generalize n.operands = ns at together ⊢
  rcases together with _ | ⟨name, _ | ⟨type, _ | _⟩⟩
  simp only [name.read, bound.renders _ type, pure_bind, Sketch.shown_inferBoundedType, Sketch.typeIdentifier,
    Sketch.text_leaf]

/-- A literal type is rendered as its literal is written. -/
theorem literal {l : Sketch} (literal : Literal l) : TypeRendered src (.literalType l) := by
  have nonempty : (Sketch.literalType l).shown ≠ "" := by
    rw [Sketch.shown_literalType, literal.shown]
    exact literal.text_ne
  refine .of_form "literal_type" .literal rfl rfl (by simp) rfl nonempty fun n stands => ?_
  have together : List.Forall₂ (Stands src) [l] n.named := Sketch.namedIn_child literal.isNamed [] ▸ stands.named
  rw [renderForm_eq]
  generalize n.named = ns at together ⊢
  rcases together with _ | ⟨stands, _ | _⟩
  simp only [List.head?_cons, Option.getD_some, stands.kind, stands.read, pure_bind, Sketch.shown_literalType,
    literal.shown]
  rcases literal.text_cases with ⟨isString, t, quoted⟩ | ⟨other, word⟩
  · rw [if_pos isString, quoted, Signature.requote_quoted]
  · rw [if_neg other, Text.squash_solid word.2]

end TypeRendered

end Outline
