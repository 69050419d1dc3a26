/-
Module: Outline.Signature.Parameter
Layer: Signature
Purpose: Formal parameters and the signatures put together from names, parameters and types.
Main exports: Parameter, formatParameters, typeParameterList, Accessor, functionSignature, methodSignature,
  propertySignature, classSignature, interfaceSignature
-/
import Outline.Text.Blank

namespace Outline

/-- A formal parameter in normal form: one name and one type. -/
structure Parameter where
  name : String
  type : String := "any"
  isOptional : Bool := false
  isRest : Bool := false
deriving DecidableEq, Repr, Inhabited

namespace Signature

/-- One parameter as it stands in a signature. -/
def formatParameter (p : Parameter) : String :=
  (if p.isRest then "..." else "") ++ p.name ++ (if p.isOptional then "?" else "") ++ ": " ++ p.type

/-- Parameters as they stand between the parentheses of a signature. -/
def formatParameters (ps : List Parameter) : String :=
  Text.joinWith ", " (ps.map formatParameter)

/-- Type parameters in angle brackets; nothing when there are none. -/
def typeParameterList (ts : List String) : String :=
  if ts.isEmpty then "" else "<" ++ Text.joinWith ", " ts ++ ">"

/-- What an accessor does. -/
inductive Accessor where
  | get
  | set
deriving DecidableEq, Repr, Inhabited

/-- The keyword of an accessor. -/
def Accessor.keyword : Accessor → String
  | .get => "get"
  | .set => "set"

/-- Signature of a function. -/
def functionSignature (parameters : List Parameter) (returnType : String) (typeParameters : List String)
    (isAsync isGenerator : Bool) : String :=
  (if isAsync then "async " else "") ++ "function" ++ (if isGenerator then "*" else "") ++
    typeParameterList typeParameters ++ "(" ++ formatParameters parameters ++ "): " ++ returnType

/-- How a return type is shown; there is a word for none. -/
def shownReturnType (returnType : Option String) : String := returnType.getD "None"

/-- Signature of a method, an accessor or a constructor. A constructor has no return type, and a setter one
    parameter at most. -/
def methodSignature (name : String) (parameters : List Parameter) (returnType : Option String)
    (accessor : Option Accessor) (isAsync isGenerator : Bool) : String :=
  if name = "constructor" then "constructor(" ++ formatParameters parameters ++ ")"
  else match accessor with
    | some .get => "get " ++ name ++ "(): " ++ shownReturnType returnType
    | some .set => "set " ++ name ++ "(" ++ formatParameters (parameters.take 1) ++ ")"
    | none =>
      (if isAsync then "async " else "") ++ (if isGenerator then "*" else "") ++ name ++ "(" ++
        formatParameters parameters ++ "): " ++ shownReturnType returnType

/-- Signature of a property; an empty initializer is left out like an absent one. -/
def propertySignature (name type : String) (isReadonly isOptional : Bool) (initializer : Option String) :
    String :=
  (if isReadonly then "readonly " else "") ++ name ++ (if isOptional then "?" else "") ++ ": " ++ type ++
    match initializer with
    | some value => if value = "" then "" else " = " ++ value
    | none => ""

/-- A keyword and a list of names; nothing when there are no names. -/
def nameClause (keyword : String) (names : List String) : String :=
  if names.isEmpty then "" else " " ++ keyword ++ " " ++ Text.joinWith ", " names

/-- Signature of a class; an empty superclass name is left out like an absent one. -/
def classSignature (keyword : String) (typeParameters : List String) (superclass : Option String)
    (interfaces : List String) : String :=
  keyword ++ typeParameterList typeParameters ++
    (match superclass with
      | some name => if name = "" then "" else " extends " ++ name
      | none => "") ++
    nameClause "implements" interfaces

/-- Signature of an interface. -/
def interfaceSignature (typeParameters supertypes : List String) : String :=
  "interface" ++ typeParameterList typeParameters ++ nameClause "extends" supertypes

end Signature

end Outline
