/-
Module: Outline.Proofs.Signature.Equations
Layer: Proofs
Purpose: Rendering of types and names, said without the weights that make it end: what each function does in terms of
  the children it looks for. Later proofs rewrite with these equations and never meet the bounded children.
Main exports: renderForm_eq, typeArguments_eq, operandTypes_eq, functionType_eq, objectMember_eq, typeParameters_eq,
  typeParameter_eq, parameter_eq, parameters_eq, functionParameters_eq, returnType_eq, inferReturn_eq,
  expressionName_eq, heritageName_eq
-/
import Outline.Signature.Heritage
import Outline.Signature.Render

namespace Outline

theorem Reading.collect_map {α β γ : Type} (f : β → Reading γ) (g : α → β) (as : List α) :
    Reading.collect f (as.map g) = Reading.collect (fun a => f (g a)) as := by
  induction as with
  | nil => rfl
  | cons a as ih => simp only [List.map_cons, Reading.collect, ih]

/-- If each element is read to something with a property, then all of them are. -/
theorem Reading.exists_collect_eq_pure {α β : Type} {f : α → Reading β} {P : β → Prop} {as : List α}
    (each : ∀ a ∈ as, ∃ b, f a = pure b ∧ P b) : ∃ bs, Reading.collect f as = pure bs ∧ ∀ b ∈ bs, P b := by
  induction as with
  | nil => exact ⟨[], rfl, nofun⟩
  | cons a as ih =>
      rw [List.forall_mem_cons] at each
      obtain ⟨b, read, holds⟩ := each.1
      obtain ⟨bs, readAll, all⟩ := ih each.2
      refine ⟨b :: bs, ?_, List.forall_mem_cons.2 ⟨holds, all⟩⟩
      rw [Reading.collect, read, pure_bind, readAll, pure_bind]

namespace Signature

open Reading (read readOrEmpty collect note)

variable (src : Source) (n : Node)

/-- Type parameters if there are any. -/
def typeParameters? (src : Source) : Option Node → Reading (List String)
  | none => return []
  | some c => typeParameters src c

/-- Formal parameters if there is a list of them. -/
def parameters? (src : Source) : Option Node → Reading (List Parameter)
  | none => return []
  | some c => parameters src c

/-- The type inside a bound or a default behind its mark. -/
def bound? (src : Source) (mark : String) : Option Node → Reading String
  | none => return ""
  | some c => do return mark ++ (← renderType? src c.firstOperand?)

/-- A child with its bound is rendered like the child. -/
theorem renderBelow_eq (c : Option n.Below) : renderBelow src n c = renderType? src (c.map (·.1)) := by
  cases c with
  | none => rw [renderBelow]; rfl
  | some c => rw [renderBelow]; rfl

theorem typeParametersBelow_eq (c : Option n.Below) :
    typeParametersBelow src n c = typeParameters? src (c.map (·.1)) := by
  cases c with
  | none => rw [typeParametersBelow]; rfl
  | some c => rw [typeParametersBelow]; rfl

theorem parametersBelow_eq (c : Option n.Below) : parametersBelow src n c = parameters? src (c.map (·.1)) := by
  cases c with
  | none => rw [parametersBelow]; rfl
  | some c => rw [parametersBelow]; rfl

theorem boundBelow_eq (mark : String) (c : Option n.Below) :
    boundBelow src n mark c = bound? src mark (c.map (·.1)) := by
  cases c with
  | none => rw [boundBelow]; rfl
  | some c => rw [boundBelow, renderBelow_eq, Node.map_val_firstBelow?]; rfl

theorem map_val_or {p : Node → Prop} (c d : Option { c : Node // p c }) :
    (c.or d).map (·.1) = (c.map (·.1)).or (d.map (·.1)) := by
  cases c <;> rfl

theorem typeArguments_eq : typeArguments src n = collect (renderType src) n.operands := by
  rw [typeArguments, ← Node.map_val_operandsBelow, Reading.collect_map]

/-- Operands of the same kind are taken apart, and the others are rendered. -/
theorem operandTypes_eq (kind : String) :
    operandTypes src kind n = (do
      let groups ← collect (fun c =>
        if c.kind = kind then operandTypes src kind c else do return [← renderType src c]) n.operands
      return groups.flatten) := by
  rw [operandTypes, ← Node.map_val_operandsBelow, Reading.collect_map]

theorem typePredicate_eq :
    typePredicate src n = (do
      let name := orElse (← readOrEmpty src (n.field? "name")) "this"
      let type ← renderType? src (n.field? "type")
      return name ++ " is " ++ type) := by
  simp only [typePredicate, renderBelow_eq, Node.map_val_fieldBelow?]

/-- A function type is rendered from its three fields. -/
theorem functionType_eq :
    functionType src n = (do
      let ps ← parameters? src (n.field? "parameters")
      let ts ← typeParameters? src (n.field? "type_parameters")
      let result ← renderType? src (n.eitherField? "return_type" "type")
      return typeParameterList ts ++ "(" ++ formatParameters ps ++ ") => " ++ result) := by
  simp only [functionType, renderBelow_eq, parametersBelow_eq, typeParametersBelow_eq, map_val_or,
    Node.map_val_fieldBelow?, Node.eitherField?]

theorem objectMember_eq :
    objectMember src n =
      if n.kind = "property_signature" then do
        let name ← readOrEmpty src (n.field? "name")
        let type ← renderType? src (n.field? "type")
        return (if n.hasChild "readonly" then "readonly " else "") ++ name ++
          (if n.hasChild "?" then "?" else "") ++ ": " ++ type
      else if ["method_signature", "call_signature", "construct_signature"].contains n.kind then do
        let ps ← parameters? src (n.field? "parameters")
        let result ← renderType? src (n.field? "return_type")
        let name ← readOrEmpty src (n.field? "name")
        let ts ← typeParameters? src (n.field? "type_parameters")
        let head :=
          if n.kind = "method_signature" then name ++ (if n.hasChild "?" then "?" else "")
          else if n.kind = "construct_signature" then "new "
          else ""
        return head ++ typeParameterList ts ++ "(" ++ formatParameters ps ++ "): " ++ result
      else if n.kind = "index_signature" then do
        let key := orElse (← readOrEmpty src (n.field? "name")) "key"
        let index ← renderType? src (n.field? "index_type")
        let value ← renderType? src (n.field? "type")
        return "[" ++ key ++ ": " ++ index ++ "]: " ++ value
      else return "" := by
  rw [objectMember]
  simp only [renderBelow_eq, parametersBelow_eq, typeParametersBelow_eq, Node.map_val_fieldBelow?]

theorem typeParameters_eq : typeParameters src n = collect (typeParameter src) (n.namedOf ["type_parameter"]) := by
  rw [typeParameters, ← Node.map_val_namedOfBelow, Reading.collect_map]

theorem typeParameter_eq :
    typeParameter src n = (do
      let name := orElse (← readOrEmpty src (n.field? "name")) "T"
      let bound ← bound? src " extends " (n.field? "constraint")
      let default ← bound? src " = " (n.field? "value")
      return (if n.hasChild "const" then "const " else "") ++ name ++ bound ++ default) := by
  simp only [typeParameter, boundBelow_eq, Node.map_val_fieldBelow?]

/-- What a formal parameter binds: behind the dots of a rest parameter, or all of it without a pattern. -/
def boundBy (n : Node) : Node :=
  let pattern := (n.field? "pattern").getD n
  if pattern.kind == "rest_pattern" then pattern.firstOperand?.getD pattern else pattern

theorem parameter_eq :
    parameter src n = (do
      let isRest := ((n.field? "pattern").getD n).kind == "rest_pattern"
      let (name, shape) ← bindingName src (boundBy n)
      let type ← match n.field? "type", n.field? "value" with
        | some type, _ => renderType src type
        | none, some value => if shape = "any" then inferExpression src value else pure shape
        | none, none => pure (if isRest && shape = "any" then "any[]" else shape)
      return { name, type, isOptional := n.kind == "optional_parameter", isRest }) := by
  rw [parameter, ← Node.map_val_fieldBelow? n "type", ← Node.map_val_fieldBelow? n "value"]
  cases n.fieldBelow? "type" <;> cases n.fieldBelow? "value" <;> rfl

theorem parameters_eq :
    parameters src n =
      if n.kind = "identifier" then do return [{ name := ← read src n }]
      else collect (parameter src) (n.namedOf ["required_parameter", "optional_parameter"]) := by
  rw [parameters, ← Node.map_val_namedOfBelow, Reading.collect_map]

/-- A function has its parameters in one of two fields. -/
theorem functionParameters_eq :
    functionParameters src n = parameters? src (n.eitherField? "parameters" "parameter") := by
  rw [functionParameters, parametersBelow_eq, map_val_or, Node.map_val_fieldBelow?, Node.map_val_fieldBelow?]
  rfl

/-- The result is the annotation, or is found from the return statements. -/
theorem returnType_eq (ps : List Parameter) :
    returnType src n ps =
      match n.field? "return_type" with
      | some written => renderType src written
      | none =>
        if isGenerator n || (n.field? "body").isNone then return "any"
        else do
          let inferred ← inferReturn src n ps
          return if isAsync n && !isPromise inferred then "Promise<" ++ inferred ++ ">" else inferred := by
  rw [returnType, ← Node.map_val_fieldBelow? n "return_type"]
  cases n.fieldBelow? "return_type" <;> rfl

/-- The return statements of a function are those of its children. -/
theorem ownReturns_eq : ownReturns n = ownReturnsIn n.children := by
  cases n; rw [ownReturns]

/-- Type of a returned expression; a bare return gives `void`. -/
def returnedType? (src : Source) (ps : List Parameter) : Option Node → Reading String
  | none => return "void"
  | some e => returnedType src ps e

theorem map_val_ownReturnsBelow : (ownReturnsBelow n).map (·.map (·.1)) = ownReturns n := by
  calc (ownReturnsBelow n).map (·.map (·.1))
      = (ownReturns n).attach.map (·.1) := by
        rw [ownReturnsBelow, List.map_map]
        refine List.map_congr_left fun ⟨e, _⟩ _ => ?_
        cases e <;> rfl
    _ = ownReturns n := List.attach_map_subtype_val _

theorem inferReturn_eq (ps : List Parameter) :
    inferReturn src n ps =
      match n.field? "body" with
      | none => return "void"
      | some body =>
        if body.kind ≠ "statement_block" then returnedType src ps body
        else do
          let types ← collect (returnedType? src ps) (ownReturns body)
          return if types.isEmpty then "void" else unionOf types := by
  rw [inferReturn, ← Node.map_val_fieldBelow? n "body"]
  cases n.fieldBelow? "body" with
  | none => rfl
  | some body =>
      dsimp only [Option.map_some]
      split
      · rfl
      · rw [← map_val_ownReturnsBelow, Reading.collect_map]
        congr 2
        funext e
        cases e <;> rfl

theorem renderForm_eq (form : TypeForm) :
    renderForm src form n =
      match form with
      | .word => do return Text.squash (← read src n)
      | .this => return "this"
      | .existential => return "*"
      | .qualified => do return Text.compact (← read src n)
      | .generic => do
        let name := Text.compact (← readOrEmpty src ((n.field? "name").or n.firstOperand?))
        match (n.field? "type_arguments").or (n.child? ["type_arguments"]) with
        | none => return name
        | some list =>
          let arguments ← typeArguments src list
          return name ++ typeParameterList arguments
      | .wrapped => renderType? src n.firstOperand?
      | .array => do return (← renderType? src n.firstOperand?) ++ "[]"
      | .tuple => do
        let members ← typeArguments src n
        return "[" ++ Text.joinWith ", " members ++ "]"
      | .optional => do return (← renderType? src n.firstOperand?) ++ "?"
      | .rest => do return "..." ++ (← renderType? src n.firstOperand?)
      | .tupleMember => do
        let name := orElse (← readOrEmpty src (n.eitherField? "name" "pattern")) "_"
        let mark := if n.kind = "optional_parameter" || n.hasChild "?" then "?" else ""
        let type ← renderType? src ((n.field? "type").or (n.child? ["type_annotation"]))
        return name ++ mark ++ ": " ++ type
      | .union => do return Text.joinWith " | " (← operandTypes src "union_type" n)
      | .intersection => do return Text.joinWith " & " (← operandTypes src "intersection_type" n)
      | .function => functionType src n
      | .constructor => do
        let type ← functionType src n
        return (if n.hasChild "abstract" then "abstract new " else "new ") ++ type
      | .conditional => do
        let checked ← renderType? src (n.field? "left")
        let bound ← renderType? src (n.field? "right")
        let yes ← renderType? src (n.field? "consequence")
        let no ← renderType? src (n.field? "alternative")
        return checked ++ " extends " ++ bound ++ " ? " ++ yes ++ " : " ++ no
      | .lookup =>
        match n.operands with
        | object :: key :: _ => do
          let object ← renderType src object
          let key ← renderType src key
          return object ++ "[" ++ key ++ "]"
        | _ => return "any"
      | .typeOf =>
        match n.firstOperand? with
        | some target => do return "typeof " ++ Text.compact (← read src target)
        | none => return "any"
      | .predicate => typePredicate src n
      | .assertion =>
        match n.firstOperand? with
        | none => return "asserts"
        | some target =>
          if target.kind = "type_predicate" then do return "asserts " ++ (← typePredicate src target)
          else do return "asserts " ++ (← read src target)
      | .literal =>
        let lit := n.named.head?.getD n
        if lit.kind = "string" then do return requote (← read src lit)
        else do return Text.squash (← read src lit)
      | .parenthesized => do return "(" ++ (← renderType? src n.firstOperand?) ++ ")"
      | .keyOf => do return "keyof " ++ (← renderType? src n.firstOperand?)
      | .readonly => do return "readonly " ++ (← renderType? src n.firstOperand?)
      | .infer =>
        match n.operands with
        | [] => return "any"
        | [name] => do return "infer " ++ (← read src name)
        | name :: bound :: _ => do
          let name ← read src name
          let bound ← renderType src bound
          return "infer " ++ name ++ " extends " ++ bound
      | .object =>
        if n.operands.any isMappedMember then return mappedPlaceholder
        else do
          let members ← collect (objectMember src) n.operands
          return braced (members.filter (· ≠ ""))
      | .mapped => return mappedPlaceholder := by
  rw [renderForm.eq_def]
  cases form with
  | generic =>
      rw [← Node.map_val_fieldBelow? n "type_arguments", ← Node.map_val_childBelow?, ← map_val_or]
      cases (n.fieldBelow? "type_arguments").or (n.childBelow? ["type_arguments"]) <;> rfl
  | tupleMember => simp only [renderBelow_eq, map_val_or, Node.map_val_fieldBelow?, Node.map_val_childBelow?]
  | lookup =>
      rw [← Node.map_val_operandsBelow]
      rcases n.operandsBelow with _ | ⟨object, _ | ⟨key, rest⟩⟩ <;> rfl
  | assertion =>
      rw [← Node.map_val_firstBelow?]
      cases n.firstBelow? <;> rfl
  | infer =>
      rw [← Node.map_val_operandsBelow]
      rcases n.operandsBelow with _ | ⟨name, _ | ⟨bound, rest⟩⟩ <;> rfl
  | object => simp only [← Node.map_val_operandsBelow n, Reading.collect_map]
  | wrapped | array | optional | rest | parenthesized | keyOf | readonly =>
      simp only [renderBelow_eq, Node.map_val_firstBelow?]
  | conditional => simp only [renderBelow_eq, Node.map_val_fieldBelow?]
  | _ => rfl

theorem expressionName_eq :
    expressionName src n =
      if ["identifier", "property_identifier", "type_identifier"].contains n.kind then read src n
      else if n.kind = "member_expression" then
        match n.field? "object" with
        | none => return unknownName
        | some object => do
          let owner ← expressionName src object
          match n.field? "property" with
          | none => return unknownName
          | some property =>
            if owner = unknownName then return unknownName
            else do return owner ++ "." ++ (← read src property)
      else return unknownName := by
  rw [expressionName, ← Node.map_val_fieldBelow? n "object"]
  cases n.fieldBelow? "object" <;> rfl

theorem heritageName_eq :
    heritageName src n =
      if ["type_identifier", "identifier"].contains n.kind then read src n
      else if ["nested_type_identifier", "nested_identifier"].contains n.kind then do
        return Text.compact (← read src n)
      else if n.kind = "generic_type" then
        match n.field? "name" with
        | none => return unknownName
        | some name => heritageName src name
      else expressionName src n := by
  rw [heritageName, ← Node.map_val_fieldBelow? n "name"]
  cases n.fieldBelow? "name" <;> rfl

end Signature

end Outline
