/-
Module: Outline.Signature.TypeForm
Layer: Signature
Purpose: The forms of type expressions, told by the kind of their node, and other classes of node kinds that
  signatures depend on.
Main exports: TypeForm, TypeForm.ofKind?, functionKinds, isFunction, isAsync, isGenerator, Node.ownReturns
-/
import Outline.Source
import Outline.Tree.Below

namespace Outline.Signature

/-- How a type expression is put together. -/
inductive TypeForm where
  /-- Shown as written, on one line. -/
  | word
  | this
  | existential
  /-- A dotted name. -/
  | qualified
  /-- A name with type arguments. -/
  | generic
  /-- A type behind a colon or a like mark. -/
  | wrapped
  | array
  | tuple
  | optional
  | rest
  /-- A member of a tuple with a name. -/
  | tupleMember
  | union
  | intersection
  | function
  | constructor
  | conditional
  /-- The type of a member, by its key. -/
  | lookup
  /-- The type of a value. -/
  | typeOf
  | predicate
  | assertion
  | literal
  | parenthesized
  | keyOf
  | readonly
  | infer
  | object
  | mapped
deriving DecidableEq, Repr, Inhabited

/-- Form of the type expressions of a kind; none for the kinds that are not modelled. -/
def TypeForm.ofKind? : String → Option TypeForm
  | "predefined_type" | "type_identifier" | "identifier" | "template_literal_type" => some .word
  | "this_type" | "this" => some .this
  | "existential_type" => some .existential
  | "nested_type_identifier" => some .qualified
  | "generic_type" => some .generic
  | "type_annotation" | "opting_type_annotation" | "omitting_type_annotation" | "adding_type_annotation"
  | "type_predicate_annotation" | "asserts_annotation" => some .wrapped
  | "array_type" => some .array
  | "tuple_type" => some .tuple
  | "optional_type" => some .optional
  | "rest_type" => some .rest
  | "required_parameter" | "optional_parameter" => some .tupleMember
  | "union_type" => some .union
  | "intersection_type" => some .intersection
  | "function_type" => some .function
  | "constructor_type" => some .constructor
  | "conditional_type" => some .conditional
  | "lookup_type" => some .lookup
  | "type_query" => some .typeOf
  | "type_predicate" => some .predicate
  | "asserts" => some .assertion
  | "literal_type" => some .literal
  | "parenthesized_type" => some .parenthesized
  | "index_type_query" => some .keyOf
  | "readonly_type" => some .readonly
  | "infer_type" => some .infer
  | "object_type" | "interface_body" => some .object
  | "mapped_type_clause" => some .mapped
  | _ => none

/-!
### Functions and their own return statements
-/

/-- Kinds of function-like nodes. -/
def functionKinds : List String :=
  ["function_declaration", "generator_function_declaration", "function_expression", "function",
   "generator_function", "arrow_function", "method_definition", "function_signature"]

/-- Kinds of nodes whose return statements are their own. -/
def scopeBoundaries : List String := functionKinds ++ ["class", "class_declaration", "class_body"]

/-- Is the node function-like? -/
def isFunction (n : Node) : Bool := functionKinds.contains n.kind

/-- Is the function marked asynchronous? -/
def isAsync (n : Node) : Bool := n.hasChild "async"

/-- Does one list occur in another as a run of neighbours? -/
def occursIn (part : List Char) : List Char → Bool
  | [] => part.isEmpty
  | c :: cs => part.isPrefixOf (c :: cs) || occursIn part cs

/-- Is the function a generator, by its kind or by a star? -/
def isGenerator (n : Node) : Bool :=
  occursIn "generator".toList n.kind.toList || n.hasChild "*"

mutual

/-- The returned expressions of the return statements that belong to the function with this body, in reading
    order; none stands for a bare return. Functions and classes inside keep theirs. -/
def ownReturns : Node → List (Option Node)
  | ⟨_, _, _, _, _, _, _, children⟩ => ownReturnsIn children

/-- The returned expressions among some children of a body. -/
def ownReturnsIn : List Node → List (Option Node)
  | [] => []
  | c :: cs =>
    (if !c.isNamed then []
     else if c.kind = "return_statement" then [c.firstOperand?]
     else if scopeBoundaries.contains c.kind then []
     else ownReturns c) ++ ownReturnsIn cs

end

mutual

/-- A returned expression weighs less than the body. -/
theorem weight_lt_of_mem_ownReturns (e : Node) :
    (n : Node) → some e ∈ ownReturns n → e.weight < n.weight
  | ⟨_, _, _, _, _, _, _, children⟩, h => by
    rw [ownReturns] at h
    rw [Node.weight]
    have := weight_le_of_mem_ownReturnsIn e children h
    omega

/-- A returned expression weighs at most as much as the children searched. -/
theorem weight_le_of_mem_ownReturnsIn (e : Node) :
    (cs : List Node) → some e ∈ ownReturnsIn cs → e.weight ≤ Node.weightAll cs
  | [], h => by rw [ownReturnsIn] at h; cases h
  | c :: cs, h => by
    rw [ownReturnsIn] at h
    rw [Node.weightAll]
    rcases List.mem_append.1 h with h | h
    · split at h
      · cases h
      · split at h
        · have := Node.weight_lt_of_firstOperand? (List.mem_singleton.1 h).symm
          omega
        · split at h
          · cases h
          · have := weight_lt_of_mem_ownReturns e c h
            omega
    · have := weight_le_of_mem_ownReturnsIn e cs h
      omega

end

/-- The returned expressions of a body, each with the fact that it weighs less. -/
def ownReturnsBelow (body : Node) : List (Option body.Below) :=
  (ownReturns body).attach.map fun ⟨e, h⟩ =>
    e.attachWith _ fun _ he => weight_lt_of_mem_ownReturns _ body (he ▸ h)

end Outline.Signature
