/-
Module: Outline.Signature.Heritage
Layer: Signature
Purpose: Names in the clauses that say what a class or an interface builds on. Only names and dotted names are
  rendered; everything else is unknown.
Main exports: expressionName, heritageName
-/
import Outline.Reading
import Outline.Tree.Below

namespace Outline.Signature

open Reading (read)

/-- What stands for a name that cannot be rendered. -/
def unknownName : String := "unknown"

/-- A name, or names joined by dots. -/
def expressionName (src : Source) (n : Node) : Reading String :=
  if ["identifier", "property_identifier", "type_identifier"].contains n.kind then read src n
  else if n.kind = "member_expression" then
    match n.fieldBelow? "object" with
    | none => return unknownName
    | some ⟨object, _⟩ => do
      let owner ← expressionName src object
      match n.field? "property" with
      | none => return unknownName
      | some property =>
        if owner = unknownName then return unknownName
        else do return owner ++ "." ++ (← read src property)
  else return unknownName
termination_by n.weight

/-- Name of a type in a heritage clause, without type arguments. -/
def heritageName (src : Source) (n : Node) : Reading String :=
  if ["type_identifier", "identifier"].contains n.kind then read src n
  else if ["nested_type_identifier", "nested_identifier"].contains n.kind then do
    return Text.compact (← read src n)
  else if n.kind = "generic_type" then
    match n.fieldBelow? "name" with
    | none => return unknownName
    | some ⟨name, _⟩ => heritageName src name
  else expressionName src n
termination_by n.weight

/-- Name of an expression if there is one. -/
def expressionName? (src : Source) : Option Node → Reading String
  | some n => expressionName src n
  | none => return unknownName

/-- Name of a type in a heritage clause if there is one. -/
def heritageName? (src : Source) : Option Node → Reading String
  | some n => heritageName src n
  | none => return unknownName

end Outline.Signature
