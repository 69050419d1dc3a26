/-
Module: Outline.Proofs.Signature.Callables
Layer: Proofs
Purpose: Parameters, type parameters, function types and the members of object types in canonical layout. What a
  construct signature makes stands in a field that the renderer does not look at, and so is shown as `any`.
Main exports: TypeRendered.namedElement, ParameterRendered.plain, ParameterRendered.rest,
  TypeParameterRendered.of_clauses, TypeRendered.function, TypeRendered.constructor, MemberRendered.property,
  MemberRendered.method, MemberRendered.call, MemberRendered.construct, MemberRendered.index, TypeRendered.object
-/
import Outline.Proofs.Signature.Forms

namespace Outline

open Signature (renderForm_eq TypeForm)
open Sketch (Stands)

variable {src : Source} {s t : Sketch} {n : Node}

/-!
### Types behind a mark
-/

namespace Sketch

/-- Behind the word of a clause there is one operand. -/
theorem operands_clause {kind mark : String} (type : TypeRendered src t) : (clause kind mark t).operands = [t] :=
  operands_of_named (namedIn_child type.named []) (by simp [type.operand])

@[simp] theorem kind_ascription (t : Sketch) : (ascription t).kind = ascriptionKind t := rfl

theorem ascriptionKind_mem (t : Sketch) :
    ascriptionKind t ∈ ["type_predicate_annotation", "asserts_annotation", "type_annotation"] := by
  rw [ascriptionKind]
  split
  · simp
  · split <;> simp

theorem ascriptionKind_ne {kind : String}
    (other : kind ∉ ["type_predicate_annotation", "asserts_annotation", "type_annotation"]) (t : Sketch) :
    ascriptionKind t ≠ kind := by
  rintro rfl
  exact other (ascriptionKind_mem t)

/-- A type behind a colon is rendered without it. -/
theorem Stands.ascribed (stands : Stands src (ascription t) n) (type : TypeRendered src t) :
    Signature.renderType src n = pure t.shown := by
  have known : ∀ kind ∈ ["type_predicate_annotation", "asserts_annotation", "type_annotation"],
      TypeForm.ofKind? kind = some .wrapped := by decide
  refine Signature.renderType_of_form (by rw [stands.kind]; exact known _ (ascriptionKind_mem t)) type.nonempty ?_
  rw [renderForm_eq]
  exact stands.renderFirst (operands_clause type) type

/-- A field with an annotation is rendered as the type that it holds. -/
theorem Stands.ascribedField (stands : Stands src s n) (name : String) (found : s.field? name = some (ascription t))
    (type : TypeRendered src t) : Signature.renderType? src (n.field? name) = pure t.shown := by
  obtain ⟨m, node, child⟩ := stands.of_field name found
  rw [node]
  exact child.ascribed type

@[simp] theorem fieldIn_optionalParts (name : String) (isOptional : Bool) :
    fieldIn name (optionalParts isOptional) = none := by
  cases isOptional <;> rfl

@[simp] theorem hasIn_optionalParts (isOptional : Bool) : hasIn "?" (optionalParts isOptional) = isOptional := by
  cases isOptional <;> rfl

@[simp] theorem fieldIn_typeParameterParts {name : String} (other : name ≠ "type_parameters") (ts : List Sketch) :
    fieldIn name (typeParameterParts ts) = none := by
  cases ts with
  | nil => rfl
  | cons t ts => simp [typeParameterParts, other.symm]

/-- The parts of what can be called have fields for the type parameters and for the parameters. -/
@[simp] theorem fieldIn_callParts (name : String) (ts ps : List Sketch) :
    fieldIn name (callParts ts ps) =
      if name = "type_parameters" then fieldIn name (typeParameterParts ts)
      else if name = "parameters" then some (formalParameters ps) else none := by
  by_cases isList : name = "type_parameters"
  · simp [callParts, isList]
  · simp [callParts, isList, eq_comm]

@[simp] theorem hasIn_callParts {kind : String} (other : kind ∉ ["type_parameters", "formal_parameters"])
    (ts ps : List Sketch) : hasIn kind (callParts ts ps) = false := by
  simp only [List.mem_cons, List.not_mem_nil, or_false, not_or] at other
  have noList : "type_parameters" ≠ kind := Ne.symm other.1
  have noParameters : "formal_parameters" ≠ kind := Ne.symm other.2
  cases ts <;> simp [callParts, typeParameterParts, angled, formalParameters, noList, noParameters]

theorem fieldIn_clauseParts (field kind mark : String) (b : Option Sketch) :
    fieldIn field (clauseParts field kind mark b) = b.map (clause kind mark) := by
  cases b <;> simp [clauseParts]

@[simp] theorem fieldIn_clauseParts_of_ne {name field : String} (other : field ≠ name) (kind mark : String)
    (b : Option Sketch) : fieldIn name (clauseParts field kind mark b) = none := by
  cases b <;> simp [clauseParts, other]

end Sketch

/-!
### Parameters and named members of tuples
-/

/-- A named element of a tuple is rendered as it is shown. -/
theorem TypeRendered.namedElement (isOptional : Bool) {w : String} (word : IsWord w) (type : TypeRendered src t) :
    TypeRendered src (.namedElement "name" isOptional w t) := by
  have kind : (Sketch.namedElement "name" isOptional w t).kind = Sketch.parameterKind isOptional := rfl
  have known : TypeForm.ofKind? (Sketch.parameterKind isOptional) = some .tupleMember := by cases isOptional <;> rfl
  refine .of_form (Sketch.parameterKind isOptional) .tupleMember kind known ?_ rfl (by simp [Sketch.shown_namedElement])
    fun n stands => ?_
  · cases isOptional <;> simp [Sketch.parameterKind]
  · obtain ⟨m, named, name⟩ := stands.of_field "name" (c := .identifier w) (by simp [Sketch.namedElement])
    obtain ⟨a, typed, ascription⟩ := stands.of_field "type" (c := .ascription t) (by simp [Sketch.namedElement])
    have mark : (decide (n.kind = "optional_parameter") || n.hasChild "?") = isOptional := by
      rw [stands.kind, stands.hasChild]
      cases isOptional <;>
        simp [Sketch.namedElement, Sketch.parameterKind, Sketch.optionalParts, Sketch.identifier,
          Sketch.ascriptionKind_ne]
    rw [renderForm_eq]
    simp only [Node.eitherField?, named, typed, Option.some_or, Reading.readOrEmpty, name.read, pure_bind,
      Signature.renderType?, ascription.ascribed type, mark, Sketch.shown_namedElement, Sketch.identifier,
      Sketch.text_leaf, Signature.orElse, if_neg word.1]

theorem Signature.bindingName_identifier {w : String} (stands : Stands src (.identifier w) n) :
    Signature.bindingName src n = pure (w, "any") := by
  have kind : n.kind = "identifier" := stands.kind
  rw [bindingName, if_pos (by simp [kind]), stands.read]
  simp [Sketch.identifier]

namespace ParameterRendered

/-- A parameter with a name is rendered as it is shown. -/
theorem plain (isOptional : Bool) (w : String) (type : TypeRendered src t) :
    ParameterRendered src (.namedElement "pattern" isOptional w t) where
  named := rfl
  kind := by cases isOptional <;> simp [Sketch.namedElement, Sketch.parameterKind]
  renders n stands := by
    obtain ⟨m, pattern, name⟩ := stands.of_field "pattern" (c := .identifier w) (by simp [Sketch.namedElement])
    obtain ⟨a, typed, ascription⟩ := stands.of_field "type" (c := .ascription t) (by simp [Sketch.namedElement])
    have noRest : (m.kind == "rest_pattern") = false := by simp [name.kind, Sketch.identifier]
    have optional : (n.kind == "optional_parameter") = isOptional := by
      rw [stands.kind]
      cases isOptional <;> simp [Sketch.namedElement, Sketch.parameterKind]
    refine ⟨{ name := w, type := t.shown, isOptional, isRest := false }, ?_, ?_⟩
    · rw [Signature.parameter_eq, Signature.boundBy, pattern, typed]
      simp [noRest, Signature.bindingName_identifier name, ascription.ascribed type, optional]
    · simp [Signature.formatParameter, Sketch.shown_namedElement]

theorem rest (w : String) (type : TypeRendered src t) : ParameterRendered src (.restParameter w t) where
  named := rfl
  kind := by simp [Sketch.restParameter]
  renders n stands := by
    obtain ⟨m, pattern, dots⟩ := stands.of_field "pattern"
      (c := .node "rest_pattern" [.token "...", .child none (.identifier w)]) (by simp [Sketch.restParameter])
    obtain ⟨b, first, name⟩ := dots.of_first (c := .identifier w) rfl
    obtain ⟨a, typed, ascription⟩ := stands.of_field "type" (c := .ascription t) (by simp [Sketch.restParameter])
    have isRest : (m.kind == "rest_pattern") = true := by simp [dots.kind]
    have required : (n.kind == "optional_parameter") = false := by simp [stands.kind, Sketch.restParameter]
    refine ⟨{ name := w, type := t.shown, isOptional := false, isRest := true }, ?_, ?_⟩
    · rw [Signature.parameter_eq, Signature.boundBy, pattern, typed]
      simp [isRest, first, Signature.bindingName_identifier name, ascription.ascribed type, required]
    · simp [Signature.formatParameter, Sketch.shown_restParameter]

end ParameterRendered

/-!
### Type parameters
-/

/-- A bound or a default behind its mark, if there is one. -/
theorem Sketch.Stands.clause {kind mark : String} {b : Option Sketch} (stands : Stands src s n) (field lead : String)
    (found : s.field? field = b.map (Sketch.clause kind mark)) (types : ∀ t ∈ b, TypeRendered src t) :
    Signature.bound? src lead (n.field? field) = pure (b.elim "" fun t => lead ++ t.shown) := by
  cases b with
  | none =>
      rw [stands.of_no_field field found]
      rfl
  | some t =>
      have type := types t rfl
      obtain ⟨m, node, child⟩ := stands.of_field field found
      rw [node, Signature.bound?, child.renderFirst (Sketch.operands_clause type) type, pure_bind]
      rfl

/-- A type parameter is rendered as it is shown if its bound and its default are. -/
theorem TypeParameterRendered.of_clauses {w : String} {b d : Option Sketch} (word : IsWord w)
    (bounds : ∀ t ∈ b, TypeRendered src t) (defaults : ∀ t ∈ d, TypeRendered src t) :
    TypeParameterRendered src (.typeParameter w b d) where
  named := rfl
  operand := by simp [Sketch.typeParameter]
  kind := rfl
  renders n stands := by
    have name := stands.readOrEmpty "name" (c := .typeIdentifier w) (by simp [Sketch.typeParameter])
    have noConst : n.hasChild "const" = false := by
      rw [stands.hasChild]
      cases b <;> cases d <;> simp [Sketch.typeParameter, Sketch.clauseParts, Sketch.clause, Sketch.typeIdentifier]
    have constraint :
        (Sketch.typeParameter w b d).field? "constraint" = b.map (Sketch.clause "constraint" "extends") := by
      simp [Sketch.typeParameter, Sketch.fieldIn_clauseParts]
    have value : (Sketch.typeParameter w b d).field? "value" = d.map (Sketch.clause "default_type" "=") := by
      simp [Sketch.typeParameter, Sketch.fieldIn_clauseParts]
    have bound := stands.clause "constraint" " extends " constraint bounds
    have default := stands.clause "value" " = " value defaults
    rw [Signature.typeParameter_eq]
    simp only [name, bound, default, noConst, pure_bind, Signature.orElse, Sketch.typeIdentifier, Sketch.text_leaf,
      if_neg word.1, Sketch.shown_typeParameter]
    simp

/-!
### Function types
-/

theorem TypeParameterRendered.list {ts : List Sketch} (rendered : ∀ t ∈ ts, TypeParameterRendered src t)
    (stands : Stands src (.angled "type_parameters" ts) n) :
    Signature.typeParameters src n = pure (ts.map Sketch.shown) := by
  have listed : (Sketch.angled "type_parameters" ts).namedOf ["type_parameter"] = ts := by
    rw [Sketch.namedOf, Sketch.angled, Sketch.named_node]
    simpa [Sketch.namedIn_separated fun t mem => (rendered t mem).named] using fun t mem => (rendered t mem).kind
  have together := stands.namedOf ["type_parameter"]
  rw [listed] at together
  rw [Signature.typeParameters_eq, Rendered.collect (fun t mem => (rendered t mem).toRendered) together]

theorem ParameterRendered.list {ps : List Sketch} (rendered : ∀ p ∈ ps, ParameterRendered src p)
    (stands : Stands src (.formalParameters ps) n) :
    ∃ qs, Signature.parameters src n = pure qs ∧
      Signature.formatParameters qs = Text.joinWith ", " (ps.map Sketch.shown) := by
  have listed : (Sketch.formalParameters ps).namedOf ["required_parameter", "optional_parameter"] = ps := by
    rw [Sketch.namedOf, Sketch.formalParameters, Sketch.named_node]
    simpa [Sketch.namedIn_separated fun p mem => (rendered p mem).named] using fun p mem => (rendered p mem).kind
  have together := stands.namedOf ["required_parameter", "optional_parameter"]
  rw [listed] at together
  obtain ⟨qs, collected, shown⟩ := collect_shown (fun p mem => (rendered p mem).renders) together
  have noName : n.kind ≠ "identifier" := by simp [stands.kind, Sketch.formalParameters]
  exact ⟨qs, by rw [Signature.parameters_eq, if_neg noName, collected], by rw [Signature.formatParameters, shown]⟩

/-- A construct with these type parameters and parameters. -/
structure Sketch.Calls (ts ps : List Sketch) (s : Sketch) : Prop where
  listed : s.field? "type_parameters" = fieldIn "type_parameters" (typeParameterParts ts)
  bound : s.field? "parameters" = some (formalParameters ps)

/-- What is shown between the brackets of a callable. -/
theorem Sketch.Calls.renders {ts ps : List Sketch} (calls : s.Calls ts ps)
    (typeParameters : ∀ t ∈ ts, TypeParameterRendered src t) (parameters : ∀ p ∈ ps, ParameterRendered src p)
    (stands : Stands src s n) :
    Signature.typeParameters? src (n.field? "type_parameters") = pure (ts.map Sketch.shown) ∧
      ∃ qs, Signature.parameters? src (n.field? "parameters") = pure qs ∧
        Signature.formatParameters qs = Text.joinWith ", " (ps.map Sketch.shown) := by
  constructor
  · cases ts with
    | nil =>
        rw [stands.of_no_field "type_parameters" calls.listed]
        rfl
    | cons t ts =>
        obtain ⟨m, node, list⟩ := stands.of_field "type_parameters" calls.listed
        rw [node]
        exact TypeParameterRendered.list typeParameters list
  · obtain ⟨m, node, list⟩ := stands.of_field "parameters" calls.bound
    rw [node]
    exact ParameterRendered.list parameters list

namespace TypeRendered

/-- What is common to function types and constructor types, which give their result in different fields. -/
theorem functionType {ts ps : List Sketch} {r : Sketch} (calls : s.Calls ts ps)
    (typeParameters : ∀ t ∈ ts, TypeParameterRendered src t) (parameters : ∀ p ∈ ps, ParameterRendered src p)
    (result : TypeRendered src r) (stands : Stands src s n)
    (returned : s.field? "return_type" = some r ∨ s.field? "return_type" = none ∧ s.field? "type" = some r) :
    Signature.functionType src n = pure (Sketch.functionType ts ps r).shown := by
  obtain ⟨lists, qs, reads, shown⟩ := calls.renders typeParameters parameters stands
  have results : Signature.renderType? src (n.eitherField? "return_type" "type") = pure r.shown := by
    rw [Node.eitherField?]
    rcases returned with given | ⟨missing, made⟩
    · obtain ⟨m, node, child⟩ := stands.of_field "return_type" given
      rw [node]
      exact result.renders m child
    · rw [stands.of_no_field "return_type" missing]
      exact stands.renderField "type" made result
  rw [Signature.functionType_eq]
  simp only [reads, lists, results, pure_bind, shown, Sketch.shown_functionType]

/-- A function type is rendered as it is shown if its parts are. -/
theorem function {ts ps : List Sketch} {r : Sketch} (typeParameters : ∀ t ∈ ts, TypeParameterRendered src t)
    (parameters : ∀ p ∈ ps, ParameterRendered src p) (result : TypeRendered src r) :
    TypeRendered src (.functionType ts ps r) := by
  have calls : (Sketch.functionType ts ps r).Calls ts ps := by constructor <;> simp [Sketch.functionType]
  refine .of_form "function_type" .function rfl rfl (by simp) rfl (by simp [Sketch.shown_functionType])
    fun n stands => ?_
  rw [renderForm_eq]
  exact functionType calls typeParameters parameters result stands (.inl (by simp [Sketch.functionType]))

theorem constructor (isAbstract : Bool) {ts ps : List Sketch} {r : Sketch}
    (typeParameters : ∀ t ∈ ts, TypeParameterRendered src t) (parameters : ∀ p ∈ ps, ParameterRendered src p)
    (result : TypeRendered src r) : TypeRendered src (.constructorType isAbstract ts ps r) := by
  have calls : (Sketch.constructorType isAbstract ts ps r).Calls ts ps := by
    constructor <;> cases isAbstract <;> simp [Sketch.constructorType, Sketch.abstractParts]
  refine .of_form "constructor_type" .constructor rfl rfl (by simp) rfl ?_ fun n stands => ?_
  · simp [Sketch.shown_constructorType, Sketch.shown_functionType]
  · have keyword : n.hasChild "abstract" = isAbstract := by
      rw [stands.hasChild]
      cases isAbstract <;> simp [Sketch.constructorType, Sketch.abstractParts, result.noKeyword]
    have returned : (Sketch.constructorType isAbstract ts ps r).field? "return_type" = none ∧
        (Sketch.constructorType isAbstract ts ps r).field? "type" = some r := by
      cases isAbstract <;> simp [Sketch.constructorType, Sketch.abstractParts]
    rw [renderForm_eq]
    simp only [functionType calls typeParameters parameters result stands (.inr returned), pure_bind, keyword,
      Sketch.shown_constructorType]

end TypeRendered

/-!
### Members of object types
-/

namespace MemberRendered

/-- A property is rendered as it is shown if its type is. -/
theorem property (isReadonly isOptional : Bool) {w : String} (type : TypeRendered src t) :
    MemberRendered src (.propertySignature isReadonly isOptional w t) where
  named := rfl
  operand := by simp [Sketch.propertySignature]
  nonempty := by simp [Sketch.shown_propertySignature]
  isMember n stands := by simp [Signature.isMappedMember, stands.kind, Sketch.propertySignature]
  renders n stands := by
    have kind : n.kind = "property_signature" := stands.kind
    have name := stands.readOrEmpty "name" (c := .propertyIdentifier w) (by
      cases isReadonly <;> simp [Sketch.propertySignature, Sketch.readonlyParts])
    have typed := stands.ascribedField "type" (t := t) (by
      cases isReadonly <;> simp [Sketch.propertySignature, Sketch.readonlyParts]) type
    have readonly : n.hasChild "readonly" = isReadonly := by
      rw [stands.hasChild]
      cases isReadonly <;> cases isOptional <;>
        simp [Sketch.propertySignature, Sketch.readonlyParts, Sketch.optionalParts, Sketch.propertyIdentifier,
          Sketch.ascriptionKind_ne]
    have optional : n.hasChild "?" = isOptional := by
      rw [stands.hasChild]
      cases isReadonly <;>
        simp [Sketch.propertySignature, Sketch.readonlyParts, Sketch.propertyIdentifier, Sketch.ascriptionKind_ne]
    rw [Signature.objectMember_eq, if_pos kind]
    simp only [name, typed, readonly, optional, pure_bind, Sketch.shown_propertySignature, Sketch.propertyIdentifier,
      Sketch.text_leaf]

/-- What is common to the members that are called, with what is read as their name and as their result. -/
theorem callable {ts ps : List Sketch} {name result : String} (calls : s.Calls ts ps)
    (typeParameters : ∀ t ∈ ts, TypeParameterRendered src t) (parameters : ∀ p ∈ ps, ParameterRendered src p)
    (stands : Stands src s n) (isCallable : n.kind ∈ ["method_signature", "call_signature", "construct_signature"])
    (named : Reading.readOrEmpty src (n.field? "name") = pure name)
    (results : Signature.renderType? src (n.field? "return_type") = pure result) :
    Signature.objectMember src n = pure (
      (if n.kind = "method_signature" then name ++ (if n.hasChild "?" then "?" else "")
        else if n.kind = "construct_signature" then "new " else "") ++
      Signature.typeParameterList (ts.map Sketch.shown) ++ "(" ++ Text.joinWith ", " (ps.map Sketch.shown) ++ "): " ++
      result) := by
  obtain ⟨lists, qs, reads, shown⟩ := calls.renders typeParameters parameters stands
  have noProperty : n.kind ≠ "property_signature" := by
    rintro isProperty
    simp [isProperty] at isCallable
  rw [Signature.objectMember_eq, if_neg noProperty, if_pos (List.contains_iff_mem.2 isCallable)]
  simp only [reads, results, named, lists, pure_bind, shown]

theorem method (isOptional : Bool) {w : String} {ts ps : List Sketch} {r : Sketch} (word : IsWord w)
    (typeParameters : ∀ t ∈ ts, TypeParameterRendered src t) (parameters : ∀ p ∈ ps, ParameterRendered src p)
    (result : TypeRendered src r) : MemberRendered src (.methodSignature isOptional w ts ps r) where
  named := rfl
  operand := by simp [Sketch.methodSignature]
  nonempty := by simp [Sketch.shown_methodSignature, word.1]
  isMember n stands := by simp [Signature.isMappedMember, stands.kind, Sketch.methodSignature]
  renders n stands := by
    have kind : n.kind = "method_signature" := stands.kind
    have calls : (Sketch.methodSignature isOptional w ts ps r).Calls ts ps := by
      constructor <;> simp [Sketch.methodSignature]
    have name := stands.readOrEmpty "name" (c := .propertyIdentifier w) (by simp [Sketch.methodSignature])
    have returned := stands.ascribedField "return_type" (t := r) (by simp [Sketch.methodSignature]) result
    have optional : n.hasChild "?" = isOptional := by
      rw [stands.hasChild]
      simp [Sketch.methodSignature, Sketch.propertyIdentifier, Sketch.ascriptionKind_ne]
    rw [callable calls typeParameters parameters stands (by simp [kind]) name returned, if_pos kind, optional]
    simp [Sketch.shown_methodSignature, Sketch.shown_callSignature, Sketch.propertyIdentifier, String.append_assoc]

theorem call {ts ps : List Sketch} {r : Sketch} (typeParameters : ∀ t ∈ ts, TypeParameterRendered src t)
    (parameters : ∀ p ∈ ps, ParameterRendered src p) (result : TypeRendered src r) :
    MemberRendered src (.callSignature ts ps r) where
  named := rfl
  operand := by simp [Sketch.callSignature]
  nonempty := by simp [Sketch.shown_callSignature]
  isMember n stands := by simp [Signature.isMappedMember, stands.kind, Sketch.callSignature]
  renders n stands := by
    have kind : n.kind = "call_signature" := stands.kind
    have calls : (Sketch.callSignature ts ps r).Calls ts ps := by constructor <;> simp [Sketch.callSignature]
    have noName : Reading.readOrEmpty src (n.field? "name") = pure "" := by
      rw [stands.of_no_field "name" (by simp [Sketch.callSignature])]
      rfl
    have returned := stands.ascribedField "return_type" (t := r) (by simp [Sketch.callSignature]) result
    rw [callable calls typeParameters parameters stands (by simp [kind]) noName returned]
    simp [kind, Sketch.shown_callSignature]

/-- What a construct signature makes is not found, whatever it is. -/
theorem construct {ts ps : List Sketch} {r : Sketch} (typeParameters : ∀ t ∈ ts, TypeParameterRendered src t)
    (parameters : ∀ p ∈ ps, ParameterRendered src p) : MemberRendered src (.constructSignature ts ps r) where
  named := rfl
  operand := by simp [Sketch.constructSignature]
  nonempty := by simp [Sketch.shown_constructSignature]
  isMember n stands := by simp [Signature.isMappedMember, stands.kind, Sketch.constructSignature]
  renders n stands := by
    have kind : n.kind = "construct_signature" := stands.kind
    have calls : (Sketch.constructSignature ts ps r).Calls ts ps := by constructor <;> simp [Sketch.constructSignature]
    have noName : Reading.readOrEmpty src (n.field? "name") = pure "" := by
      rw [stands.of_no_field "name" (by simp [Sketch.constructSignature])]
      rfl
    have unseen : Signature.renderType? src (n.field? "return_type") = pure "any" := by
      rw [stands.of_no_field "return_type" (by simp [Sketch.constructSignature])]
      rfl
    rw [callable calls typeParameters parameters stands (by simp [kind]) noName unseen]
    simp [kind, Sketch.shown_constructSignature]

theorem index {w : String} {k : Sketch} (word : IsWord w) (key : TypeRendered src k) (type : TypeRendered src t) :
    MemberRendered src (.indexSignature w k t) where
  named := rfl
  operand := by simp [Sketch.indexSignature]
  nonempty := by simp [Sketch.shown_indexSignature]
  isMember n stands := by
    rw [Signature.isMappedMember, stands.kind, stands.hasChild]
    simp [Sketch.indexSignature, Sketch.identifier, key.noClause, Sketch.ascriptionKind_ne]
  renders n stands := by
    have kind : n.kind = "index_signature" := stands.kind
    have name := stands.readOrEmpty "name" (c := .identifier w) (by simp [Sketch.indexSignature])
    have indexed := stands.renderField "index_type" (t := k) (by simp [Sketch.indexSignature]) key
    have typed := stands.ascribedField "type" (t := t) (by simp [Sketch.indexSignature]) type
    rw [Signature.objectMember_eq, if_neg (by simp [kind]), if_neg (by simp [kind]), if_pos kind]
    simp only [name, indexed, typed, pure_bind, Signature.orElse, Sketch.identifier, Sketch.text_leaf, if_neg word.1,
      Sketch.shown_indexSignature]

/-- Members of an object type are no clause of a mapped type. -/
theorem noneMapped {ms : List Sketch} {ns : List Node} (members : ∀ m ∈ ms, MemberRendered src m)
    (together : List.Forall₂ (Stands src) ms ns) : ns.any Signature.isMappedMember = false := by
  induction together with
  | nil => rfl
  | cons head _ ih =>
      rw [List.forall_mem_cons] at members
      rw [List.any_cons, members.1.isMember _ head, ih members.2]
      rfl

end MemberRendered

theorem TypeRendered.object {ms : List Sketch} (members : ∀ m ∈ ms, MemberRendered src m) :
    TypeRendered src (.objectType ms) := by
  have kind : (Sketch.objectType ms).kind = "object_type" := by cases ms <;> rfl
  have children : (Sketch.objectType ms).named = ms := by
    cases ms with
    | nil => rfl
    | cons m ms =>
        simp [Sketch.objectType, Sketch.named_node, Sketch.namedIn_separated fun m mem => (members m mem).named]
  have operands := Sketch.operands_of_named children fun m mem => (members m mem).operand
  have nonempty : (Sketch.objectType ms).shown ≠ "" := by
    rw [Sketch.shown_objectType, Signature.braced]
    split <;> simp
  refine .of_form "object_type" .object kind rfl (by simp) (by cases ms <;> rfl) nonempty fun n stands => ?_
  have together := stands.operands
  rw [operands] at together
  have allShown : (ms.map Sketch.shown).filter (· ≠ "") = ms.map Sketch.shown := by
    rw [List.filter_eq_self]
    simpa using fun m mem => (members m mem).nonempty
  rw [renderForm_eq]
  simp only [MemberRendered.noneMapped members together,
    Rendered.collect (fun m mem => (members m mem).toRendered) together, pure_bind, allShown,
    Sketch.shown_objectType]
  rfl

end Outline
