/-
Module: Outline.Signature.Render
Layer: Signature
Purpose: Rendering of types, type parameters and formal parameters, and the coarse inference of types from
  expressions. The functions call one another because a parameter may have a default value, which may be a
  function, which has parameters. Each ends because it goes to lighter nodes: the measure is sixteen times the
  weight of the node plus the place of the function in the order in which they call each other on one node.
  A type that cannot be read is `any`; this is decided at the innermost type around the unreadable text.
Main exports: mappedPlaceholder, renderType, renderType?, typeArguments, typeParameters, parameter, parameters,
  functionParameters, inferExpression, arrowSignature, returnType, inferReturn
-/
import Outline.Entries
import Outline.Reading
import Outline.Signature.Parameter
import Outline.Signature.TypeForm

namespace Outline.Signature

open Reading (read readOrEmpty collect note)

/-- How every mapped type is shown. -/
def mappedPlaceholder : String := "\x7b [key: string]: any \x7d"

/-- A text, or another one if it is empty. -/
def orElse (s other : String) : String := if s = "" then other else s

/-- A literal text between double quotes instead of its own. -/
def requote (s : String) : String :=
  "\"" ++ Text.dropLast 1 (Text.dropFirst 1 s) ++ "\""

/-- The members of an object type between braces. -/
def braced (members : List String) : String :=
  if members.isEmpty then "\x7b\x7d" else "\x7b " ++ Text.joinWith "; " members ++ " \x7d"

/-- Types joined without repetition, in the order of their first occurrence. -/
def unionOf (types : List String) : String := Text.joinWith " | " (distinct types)

/-- Has a text the form of a promise, judged by its beginning? -/
def isPromise (type : String) : Bool := Text.startsWith type "Promise<"

/-- The name that a parameter binds and the type that its shape alone suggests. -/
def bindingName (src : Source) (binding : Node) : Reading (String × String) :=
  if ["identifier", "this", "shorthand_property_identifier_pattern"].contains binding.kind then do
    return (← read src binding, "any")
  else if binding.kind = "object_pattern" then return ("_destructured_object", "object")
  else if binding.kind = "array_pattern" then return ("_destructured_array", "any[]")
  else do return (orElse (← read src binding) "_complex_param", "any")

/-- Is the member of an object type the clause of a mapped type? -/
def isMappedMember (m : Node) : Bool := m.kind == "index_signature" && m.hasChild "mapped_type_clause"

mutual

/-- Render a type expression. Kinds that are not modelled, and types that cannot be read, are `any`. -/
def renderType (src : Source) (n : Node) : Reading String :=
  match TypeForm.ofKind? n.kind with
  | none => do
    note (.unsupportedType n.kind (src.line n))
    return "any"
  | some form =>
    Reading.recover (do return orElse (← renderForm src form n) "any")
      (.unreadableType n.kind (src.line n)) "any"
termination_by 16 * n.weight + 15

/-- Render a type if there is one, else `any`. -/
def renderBelow (src : Source) (n : Node) : Option n.Below → Reading String
  | none => return "any"
  | some ⟨c, _⟩ => renderType src c
termination_by 16 * n.weight

/-- Render a type expression of a known form. -/
def renderForm (src : Source) (form : TypeForm) (n : Node) : Reading String :=
  match form with
  | .word => do return Text.squash (← read src n)
  | .this => return "this"
  | .existential => return "*"
  | .qualified => do return Text.compact (← read src n)
  | .generic => do
    let name := Text.compact (← readOrEmpty src ((n.field? "name").or n.firstOperand?))
    match (n.fieldBelow? "type_arguments").or (n.childBelow? ["type_arguments"]) with
    | none => return name
    | some ⟨list, _⟩ =>
      let arguments ← typeArguments src list
      return name ++ typeParameterList arguments
  | .wrapped => renderBelow src n n.firstBelow?
  | .array => do return (← renderBelow src n n.firstBelow?) ++ "[]"
  | .tuple => do
    let members ← typeArguments src n
    return "[" ++ Text.joinWith ", " members ++ "]"
  | .optional => do return (← renderBelow src n n.firstBelow?) ++ "?"
  | .rest => do return "..." ++ (← renderBelow src n n.firstBelow?)
  | .tupleMember => do
    let name := orElse (← readOrEmpty src (n.eitherField? "name" "pattern")) "_"
    let mark := if n.kind = "optional_parameter" || n.hasChild "?" then "?" else ""
    let type ← renderBelow src n ((n.fieldBelow? "type").or (n.childBelow? ["type_annotation"]))
    return name ++ mark ++ ": " ++ type
  | .union => do return Text.joinWith " | " (← operandTypes src "union_type" n)
  | .intersection => do return Text.joinWith " & " (← operandTypes src "intersection_type" n)
  | .function => functionType src n
  | .constructor => do
    let type ← functionType src n
    return (if n.hasChild "abstract" then "abstract new " else "new ") ++ type
  | .conditional => do
    let checked ← renderBelow src n (n.fieldBelow? "left")
    let bound ← renderBelow src n (n.fieldBelow? "right")
    let yes ← renderBelow src n (n.fieldBelow? "consequence")
    let no ← renderBelow src n (n.fieldBelow? "alternative")
    return checked ++ " extends " ++ bound ++ " ? " ++ yes ++ " : " ++ no
  | .lookup =>
    match n.operandsBelow with
    | ⟨object, _⟩ :: ⟨key, _⟩ :: _ => do
      let object ← renderType src object
      let key ← renderType src key
      return object ++ "[" ++ key ++ "]"
    | _ => return "any"
  | .typeOf =>
    match n.firstOperand? with
    | some target => do return "typeof " ++ Text.compact (← read src target)
    | none => return "any"
  | .predicate => typePredicate src n
  | .assertion =>
    match n.firstBelow? with
    | none => return "asserts"
    | some ⟨target, _⟩ =>
      if target.kind = "type_predicate" then do return "asserts " ++ (← typePredicate src target)
      else do return "asserts " ++ (← read src target)
  | .literal =>
    let lit := n.named.head?.getD n
    if lit.kind = "string" then do return requote (← read src lit)
    else do return Text.squash (← read src lit)
  | .parenthesized => do return "(" ++ (← renderBelow src n n.firstBelow?) ++ ")"
  | .keyOf => do return "keyof " ++ (← renderBelow src n n.firstBelow?)
  | .readonly => do return "readonly " ++ (← renderBelow src n n.firstBelow?)
  | .infer =>
    match n.operandsBelow with
    | [] => return "any"
    | [⟨name, _⟩] => do return "infer " ++ (← read src name)
    | ⟨name, _⟩ :: ⟨bound, _⟩ :: _ => do
      let name ← read src name
      let bound ← renderType src bound
      return "infer " ++ name ++ " extends " ++ bound
  | .object =>
    if n.operands.any isMappedMember then return mappedPlaceholder
    else do
      let members ← collect (fun (⟨m, _⟩ : n.Below) => objectMember src m) n.operandsBelow
      return braced (members.filter (· ≠ ""))
  | .mapped => return mappedPlaceholder
termination_by 16 * n.weight + 14

/-- Render the named children of a node, comments apart, as types. -/
def typeArguments (src : Source) (n : Node) : Reading (List String) :=
  collect (fun (⟨c, _⟩ : n.Below) => renderType src c) n.operandsBelow
termination_by 16 * n.weight + 1

/-- Render the operands of a union or intersection; operands of the same kind are opened up. -/
def operandTypes (src : Source) (kind : String) (n : Node) : Reading (List String) := do
  let groups ← collect (fun (⟨c, _⟩ : n.Below) =>
    if c.kind = kind then operandTypes src kind c else do return [← renderType src c]) n.operandsBelow
  return groups.flatten
termination_by 16 * n.weight + 1

/-- Render a type predicate. -/
def typePredicate (src : Source) (n : Node) : Reading String := do
  let name := orElse (← readOrEmpty src (n.field? "name")) "this"
  let type ← renderBelow src n (n.fieldBelow? "type")
  return name ++ " is " ++ type
termination_by 16 * n.weight + 1

/-- Render a function type. -/
def functionType (src : Source) (n : Node) : Reading String := do
  let ps ← parametersBelow src n (n.fieldBelow? "parameters")
  let ts ← typeParametersBelow src n (n.fieldBelow? "type_parameters")
  let result ← renderBelow src n ((n.fieldBelow? "return_type").or (n.fieldBelow? "type"))
  return typeParameterList ts ++ "(" ++ formatParameters ps ++ ") => " ++ result
termination_by 16 * n.weight + 2

/-- Render a member of an object type; nothing for nodes that are no member. -/
def objectMember (src : Source) (n : Node) : Reading String :=
  if n.kind = "property_signature" then do
    let name ← readOrEmpty src (n.field? "name")
    let type ← renderBelow src n (n.fieldBelow? "type")
    return (if n.hasChild "readonly" then "readonly " else "") ++ name ++
      (if n.hasChild "?" then "?" else "") ++ ": " ++ type
  else if ["method_signature", "call_signature", "construct_signature"].contains n.kind then do
    let ps ← parametersBelow src n (n.fieldBelow? "parameters")
    let result ← renderBelow src n (n.fieldBelow? "return_type")
    let name ← readOrEmpty src (n.field? "name")
    let ts ← typeParametersBelow src n (n.fieldBelow? "type_parameters")
    let head :=
      if n.kind = "method_signature" then name ++ (if n.hasChild "?" then "?" else "")
      else if n.kind = "construct_signature" then "new "
      else ""
    return head ++ typeParameterList ts ++ "(" ++ formatParameters ps ++ "): " ++ result
  else if n.kind = "index_signature" then do
    let key := orElse (← readOrEmpty src (n.field? "name")) "key"
    let index ← renderBelow src n (n.fieldBelow? "index_type")
    let value ← renderBelow src n (n.fieldBelow? "type")
    return "[" ++ key ++ ": " ++ index ++ "]: " ++ value
  else return ""
termination_by 16 * n.weight + 2

/-- Render type parameters if there are any. -/
def typeParametersBelow (src : Source) (n : Node) : Option n.Below → Reading (List String)
  | none => return []
  | some ⟨c, _⟩ => typeParameters src c
termination_by 16 * n.weight

/-- Render a list of type parameters. -/
def typeParameters (src : Source) (n : Node) : Reading (List String) :=
  collect (fun (⟨p, _⟩ : n.Below) => typeParameter src p) (n.namedOfBelow ["type_parameter"])
termination_by 16 * n.weight + 3

/-- Render a type parameter with its bound and its default. -/
def typeParameter (src : Source) (n : Node) : Reading String := do
  let name := orElse (← readOrEmpty src (n.field? "name")) "T"
  let bound ← boundBelow src n " extends " (n.fieldBelow? "constraint")
  let default ← boundBelow src n " = " (n.fieldBelow? "value")
  return (if n.hasChild "const" then "const " else "") ++ name ++ bound ++ default
termination_by 16 * n.weight + 2

/-- Render the type inside a bound or a default behind its mark; nothing when there is none. -/
def boundBelow (src : Source) (n : Node) (mark : String) : Option n.Below → Reading String
  | none => return ""
  | some ⟨c, _⟩ => do return mark ++ (← renderBelow src c c.firstBelow?)
termination_by 16 * n.weight

/-- Bring a formal parameter into normal form. A rest parameter keeps its name, a default value gives way to
    the name it is bound to, and a pattern becomes a made-up name. -/
def parameter (src : Source) (n : Node) : Reading Parameter := do
  let pattern := (n.field? "pattern").getD n
  let isRest := pattern.kind == "rest_pattern"
  let binding := if isRest then pattern.firstOperand?.getD pattern else pattern
  let (name, shape) ← bindingName src binding
  let type ← match n.fieldBelow? "type", n.fieldBelow? "value" with
    | some ⟨type, _⟩, _ => renderType src type
    | none, some ⟨value, _⟩ => if shape = "any" then inferExpression src value else pure shape
    | none, none => pure (if isRest && shape = "any" then "any[]" else shape)
  return { name, type, isOptional := n.kind == "optional_parameter", isRest }
termination_by 16 * n.weight + 1

/-- Bring a list of formal parameters into normal form; a single name may stand for the list. -/
def parameters (src : Source) (n : Node) : Reading (List Parameter) :=
  if n.kind = "identifier" then do return [{ name := ← read src n }]
  else collect (fun (⟨p, _⟩ : n.Below) => parameter src p)
    (n.namedOfBelow ["required_parameter", "optional_parameter"])
termination_by 16 * n.weight + 1

/-- Formal parameters if there is a list of them. -/
def parametersBelow (src : Source) (n : Node) : Option n.Below → Reading (List Parameter)
  | none => return []
  | some ⟨c, _⟩ => parameters src c
termination_by 16 * n.weight

/-- Formal parameters of a function. -/
def functionParameters (src : Source) (n : Node) : Reading (List Parameter) :=
  parametersBelow src n ((n.fieldBelow? "parameters").or (n.fieldBelow? "parameter"))
termination_by 16 * n.weight + 1

/-- Coarse type of an expression. -/
def inferExpression (src : Source) (n : Node) : Reading String :=
  match n.kind with
  | "string" | "template_string" => return "string"
  | "number" => return "number"
  | "true" | "false" => return "boolean"
  | "null" => return "null"
  | "array" => return "any[]"
  | "object" => return "object"
  | _ => if isFunction n then arrowSignature src n else return "any"
termination_by 16 * n.weight + 6

/-- Type of a function as a value. -/
def arrowSignature (src : Source) (n : Node) : Reading String := do
  let ps ← functionParameters src n
  let result ← returnType src n ps
  return "(" ++ formatParameters ps ++ ") => " ++ result
termination_by 16 * n.weight + 5

/-- Return type of a function: as annotated, else as its body suggests. What an asynchronous function returns
    is wrapped into a promise unless it looks like one. -/
def returnType (src : Source) (n : Node) (ps : List Parameter) : Reading String :=
  match n.fieldBelow? "return_type" with
  | some ⟨written, _⟩ => renderType src written
  | none =>
    if isGenerator n || (n.field? "body").isNone then return "any"
    else do
      let inferred ← inferReturn src n ps
      return if isAsync n && !isPromise inferred then "Promise<" ++ inferred ++ ">" else inferred
termination_by 16 * n.weight + 4

/-- Type that the body of a function returns: the union over its own return statements, `void` without any, or
    the type of the expression that the body is. -/
def inferReturn (src : Source) (n : Node) (ps : List Parameter) : Reading String :=
  match n.fieldBelow? "body" with
  | none => return "void"
  | some ⟨body, _⟩ =>
    if body.kind ≠ "statement_block" then returnedType src ps body
    else do
      let types ← collect (fun (e : Option body.Below) =>
        match e with
        | none => return "void"
        | some ⟨e, _⟩ => returnedType src ps e) (ownReturnsBelow body)
      return if types.isEmpty then "void" else unionOf types
termination_by 16 * n.weight + 3

/-- Type of a returned expression: that of the first parameter of its name, if it is one. -/
def returnedType (src : Source) (ps : List Parameter) (n : Node) : Reading String :=
  if n.kind = "identifier" then do
    let name ← read src n
    match ps.find? (·.name = name) with
    | some p => return p.type
    | none => inferExpression src n
  else inferExpression src n
termination_by 16 * n.weight + 7

end

/-- Render a type if there is one, else `any`. -/
def renderType? (src : Source) : Option Node → Reading String
  | some n => renderType src n
  | none => return "any"

end Outline.Signature
