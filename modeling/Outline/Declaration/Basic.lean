/-
Module: Outline.Declaration.Basic
Layer: Declaration
Purpose: The declarations of a module as records: a head that all kinds share, and what each kind adds to it.
Main exports: Head, Method, Property, ClassMembers, EnumMember, VariableKeyword, Declaration, Declaration.head,
  Declaration.mapHead, Declaration.flatten, declarationUri
-/
import Outline.Dependency
import Outline.Position
import Outline.Signature.Parameter

namespace Outline

open Signature (Accessor)

/-- What all declarations have. -/
structure Head where
  /-- Name, qualified by the namespaces around it. -/
  name : String
  isExported : Bool := false
  isDefault : Bool := false
  position : Position
  uri : String
  signature : String
  typeParameters : List String := []
  dependencies : List Dependency := []
deriving DecidableEq, Repr, Inhabited

/-- A method, accessor or constructor of a class. -/
structure Method where
  name : String
  uri : String
  position : Position
  signature : String
  dependencies : List Dependency
  isStatic : Bool := false
  isPrivate : Bool := false
  isProtected : Bool := false
  isAsync : Bool := false
  isGenerator : Bool := false
  isAbstract : Bool := false
  accessor : Option Accessor := none
  parameters : List Parameter
  /-- Constructors have none. -/
  returnType : Option String
  typeParameters : List String := []
deriving DecidableEq, Repr, Inhabited

/-- A property of a class. -/
structure Property where
  name : String
  uri : String
  position : Position
  signature : String
  dependencies : List Dependency
  type : String
  isStatic : Bool
  isPrivate : Bool
  isProtected : Bool
  isReadonly : Bool
  isOptional : Bool
  /-- Initial value as written. -/
  initializer : Option String
deriving DecidableEq, Repr, Inhabited

/-- The members of a class. -/
structure ClassMembers where
  properties : List Property := []
  methods : List Method := []
  constructor : Option Method := none
deriving DecidableEq, Repr, Inhabited

/-- A member of an enumeration; its value is kept as written. -/
structure EnumMember where
  name : String
  initializer : Option String
deriving DecidableEq, Repr, Inhabited

/-- The keyword that declares a variable. -/
inductive VariableKeyword where
  | const
  | letBinding
  | var
deriving DecidableEq, Repr, Inhabited

/-- Spelling of a keyword. -/
def VariableKeyword.spelling : VariableKeyword → String
  | .const => "const"
  | .letBinding => "let"
  | .var => "var"

/-- A declaration of a module or a namespace. -/
inductive Declaration where
  | functionDecl (head : Head) (parameters : List Parameter) (returnType : String) (isAsync isGenerator : Bool)
  | classDecl (head : Head) (superclass : Option String) (interfaces : List String) (members : ClassMembers)
      (isAbstract : Bool)
  | interfaceDecl (head : Head) (supertypes : List String)
  | typeAlias (head : Head)
  | enumDecl (head : Head) (members : List EnumMember) (isConst : Bool)
  | variableDecl (head : Head) (keyword : VariableKeyword)
  /-- A name of another module, exported again. -/
  | reExport (head : Head) (source : String)
  | namespaceDecl (head : Head) (members : List Declaration)
deriving Repr, Inhabited

namespace Declaration

/-- What the declaration shares with all others. -/
def head : Declaration → Head
  | functionDecl head .. | classDecl head .. | interfaceDecl head _ | typeAlias head | enumDecl head .. => head
  | variableDecl head _ | reExport head _ | namespaceDecl head _ => head

/-- Change what the declaration shares with all others. -/
def mapHead (f : Head → Head) : Declaration → Declaration
  | functionDecl head ps type isAsync isGenerator => functionDecl (f head) ps type isAsync isGenerator
  | classDecl head superclass interfaces members isAbstract =>
    classDecl (f head) superclass interfaces members isAbstract
  | interfaceDecl head supertypes => interfaceDecl (f head) supertypes
  | typeAlias head => typeAlias (f head)
  | enumDecl head members isConst => enumDecl (f head) members isConst
  | variableDecl head keyword => variableDecl (f head) keyword
  | reExport head source => reExport (f head) source
  | namespaceDecl head members => namespaceDecl (f head) members

/-- Where a re-export comes from; nothing for other declarations. -/
def reExportSource? : Declaration → Option String
  | reExport _ source => some source
  | _ => none

/-- Name of the kind of a declaration. -/
def kindName : Declaration → String
  | functionDecl .. => "function"
  | classDecl .. => "class"
  | interfaceDecl .. => "interface"
  | typeAlias .. => "type"
  | enumDecl .. => "enum"
  | variableDecl _ keyword => keyword.spelling
  | reExport .. => "const"
  | namespaceDecl .. => "namespace"

mutual

/-- A declaration followed by those inside it. -/
def flattenOne : Declaration → List Declaration
  | namespaceDecl head members => namespaceDecl head members :: flatten members
  | d => [d]

/-- Declarations, each namespace followed by its members. -/
def flatten : List Declaration → List Declaration
  | [] => []
  | d :: ds => flattenOne d ++ flatten ds

end

end Declaration

/-- Identifier of a declaration: the file, with plain slashes and without one in front, and the name. -/
def declarationUri (file name : String) : String :=
  let path := file.toList.map fun c => if c = '\\' then '/' else c
  String.ofList (if path.head? = some '/' then path.drop 1 else path) ++ "#" ++ name

end Outline
