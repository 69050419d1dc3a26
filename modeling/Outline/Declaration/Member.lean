/-
Module: Outline.Declaration.Member
Layer: Declaration
Purpose: The members of a class. Overload signatures give way to the implementation of the same name, and among
  several constructors an implementation is preferred.
Main exports: methodOf, constructorOf, propertyOf, implementedNames, addMember, classMembers
-/
import Outline.Declaration.Site
import Outline.Signature.Render

namespace Outline

open Signature

/-- The access modifier of a member, empty if it has none. -/
def accessibility (site : Site) (n : Node) : Reading String :=
  site.readOrEmpty (n.child? ["accessibility_modifier"])

/-- Which accessor a method is, if it is one. -/
def accessorOf (n : Node) : Option Accessor :=
  if n.hasChild "get" then some .get else if n.hasChild "set" then some .set else none

/-- Type parameters of a node. -/
def typeParametersOf (site : Site) (n : Node) : Reading (List String) :=
  match n.field? "type_parameters" with
  | some list => typeParameters site.source list
  | none => return []

/-- Is a member hidden by its modifier or by the mark in front of its name? -/
def isHidden (access name : String) : Bool := access == "private" || Text.startsWith name "#"

/-- A method or accessor of the class `owner`. -/
def methodOf (site : Site) (owner : String) (n : Node) : Reading Method := do
  let name ← site.declaredName n
  let access ← accessibility site n
  let ps ← functionParameters site.source n
  let accessor := accessorOf n
  let result ← returnType site.source n ps
  let dependencies ← site.dependencies n
  let typeParameters ← typeParametersOf site n
  return {
    name
    uri := site.uri (owner ++ "." ++ name)
    position := site.position n
    signature := methodSignature name ps (some result) accessor (isAsync n) (n.hasChild "*")
    dependencies
    isStatic := n.hasChild "static"
    isPrivate := isHidden access name
    isProtected := access == "protected"
    isAsync := isAsync n
    isGenerator := n.hasChild "*"
    isAbstract := n.kind == "abstract_method_signature" || n.hasChild "abstract"
    accessor
    parameters := ps
    returnType := some result
    typeParameters }

/-- The constructor of the class `owner`. -/
def constructorOf (site : Site) (owner : String) (n : Node) : Reading Method := do
  let ps ← functionParameters site.source n
  let dependencies ← site.dependencies n
  let access ← accessibility site n
  return {
    name := "constructor"
    uri := site.uri (owner ++ ".constructor")
    position := site.position n
    signature := methodSignature "constructor" ps none none false false
    dependencies
    isPrivate := access == "private"
    isProtected := access == "protected"
    parameters := ps
    returnType := none }

/-- Type of a variable or property: as annotated, else as its value suggests; none without either. -/
def annotatedOrInferred (site : Site) (n : Node) : Reading (Option String) :=
  match n.field? "type", n.field? "value" with
  | some type, _ => do return some (← renderType site.source type)
  | none, some value => do return some (← inferExpression site.source value)
  | none, none => return none

/-- A property of the class `owner`. -/
def propertyOf (site : Site) (owner : String) (n : Node) : Reading Property := do
  let name ← site.declaredName n
  let access ← accessibility site n
  let type := (← annotatedOrInferred site n).getD "any"
  let initializer ← match n.field? "value" with
    | some value => do pure (some (← site.read value))
    | none => pure none
  let dependencies ← site.dependencies n
  return {
    name
    uri := site.uri (owner ++ "." ++ name)
    position := site.position n
    signature := propertySignature name type (n.hasChild "readonly") (n.hasChild "?") initializer
    dependencies
    type
    isStatic := n.hasChild "static"
    isPrivate := isHidden access name
    isProtected := access == "protected"
    isReadonly := n.hasChild "readonly"
    isOptional := n.hasChild "?"
    initializer }

/-- Kinds of method-like members. -/
def methodKinds : List String := ["method_definition", "method_signature", "abstract_method_signature"]

/-- Kinds of properties. -/
def propertyKinds : List String := ["public_field_definition", "property_signature"]

/-- The names of the methods of a class body that are implemented there. -/
def implementedNames (site : Site) (body : Node) : Reading (List String) :=
  Reading.collect site.declaredName (body.namedOf ["method_definition"])

/-- Add what a child of a class body declares to the members before it. -/
def addMember (site : Site) (owner : String) (implemented : List String) (members : ClassMembers) (n : Node) :
    Reading ClassMembers :=
  if methodKinds.contains n.kind then do
    let name ← site.declaredName n
    if name = "constructor" then
      -- A signature never replaces what is already there.
      if members.constructor.isNone || n.kind = "method_definition" then
        return { members with constructor := some (← constructorOf site owner n) }
      else return members
    else if n.kind = "method_signature" && implemented.contains name then return members
    else return { members with methods := members.methods ++ [← methodOf site owner n] }
  else if propertyKinds.contains n.kind then do
    return { members with properties := members.properties ++ [← propertyOf site owner n] }
  else return members

/-- Add what some children of a class body declare, one after the other. -/
def addMembers (site : Site) (owner : String) (implemented : List String) :
    ClassMembers → List Node → Reading ClassMembers
  | members, [] => return members
  | members, n :: rest => do
    addMembers site owner implemented (← addMember site owner implemented members n) rest

/-- The members that a class body declares. -/
def classMembers (site : Site) (owner : String) (body : Node) : Reading ClassMembers := do
  let implemented ← implementedNames site body
  addMembers site owner implemented {} body.named

/-- The members of a class, none without a body. -/
def classMembers? (site : Site) (owner : String) : Option Node → Reading ClassMembers
  | some body => classMembers site owner body
  | none => return {}

end Outline
