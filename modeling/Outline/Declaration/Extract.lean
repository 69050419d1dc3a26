/-
Module: Outline.Declaration.Extract
Layer: Declaration
Purpose: One declaration, or a few, read from the node that declares it. Dependencies are added afterwards, from
  the whole statement.
Main exports: functionOf, classOf, interfaceOf, typeAliasOf, enumOf, variablesOf
-/
import Outline.Declaration.Member
import Outline.Signature.Heritage

namespace Outline

open Signature

/-- The name of a declaration that may lack one. -/
def nameOrDefault (site : Site) (n : Node) : Reading String := do
  return orElse (← site.declaredName n) "default"

/-- A function declaration, an overload signature, or a function that is exported by default. -/
def functionOf (site : Site) (isExported isDefault : Bool) (n : Node) : Reading Declaration := do
  let name := site.qualify (← nameOrDefault site n)
  let typeParameters ← typeParametersOf site n
  let ps ← functionParameters site.source n
  let result ← returnType site.source n ps
  let head := {
    name
    isExported
    isDefault
    position := site.position n
    uri := site.uri name
    signature := functionSignature ps result typeParameters (isAsync n) (isGenerator n)
    typeParameters }
  return .functionDecl head ps result (isAsync n) (isGenerator n)

/-- Name of the class that a heritage clause extends. -/
def superclassOf (site : Site) (heritage : Option Node) : Reading (Option String) :=
  match heritage.bind (·.child? ["extends_clause"]) with
  | none => return none
  | some clause => do return some (← expressionName? site.source ((clause.field? "value").or clause.named.head?))

/-- Names of the types in a clause. -/
def heritageNames (site : Site) : Option Node → Reading (List String)
  | none => return []
  | some clause => Reading.collect (heritageName site.source) clause.operands

/-- A class declaration, or a class that is exported by default. -/
def classOf (site : Site) (isExported isDefault : Bool) (n : Node) : Reading Declaration := do
  let name := site.qualify (← nameOrDefault site n)
  let typeParameters ← typeParametersOf site n
  let heritage := n.child? ["class_heritage"]
  let superclass ← superclassOf site heritage
  let interfaces ← heritageNames site (heritage.bind (·.child? ["implements_clause"]))
  let members ← classMembers? site name (n.field? "body")
  let head := {
    name
    isExported
    isDefault
    position := site.position n
    uri := site.uri name
    signature := classSignature "class" typeParameters superclass interfaces
    typeParameters }
  return .classDecl head superclass interfaces members (n.kind == "abstract_class_declaration")

/-- An interface declaration. -/
def interfaceOf (site : Site) (isExported isDefault : Bool) (n : Node) : Reading Declaration := do
  let name := site.qualify (← site.declaredName n)
  let typeParameters ← typeParametersOf site n
  let supertypes ← heritageNames site (n.child? ["extends_type_clause"])
  let head := {
    name
    isExported
    isDefault
    position := site.position n
    uri := site.uri name
    signature := interfaceSignature typeParameters supertypes
    typeParameters }
  return .interfaceDecl head supertypes

/-- A type alias. -/
def typeAliasOf (site : Site) (isExported isDefault : Bool) (n : Node) : Reading Declaration := do
  let name := site.qualify (← site.declaredName n)
  let typeParameters ← typeParametersOf site n
  let type ← renderType? site.source (n.field? "value")
  let head := {
    name
    isExported
    isDefault
    position := site.position n
    uri := site.uri name
    signature := "type" ++ typeParameterList typeParameters ++ " = " ++ type
    typeParameters }
  return .typeAlias head

/-- A member of an enumeration; nothing for nodes that are none. -/
def enumMember? (site : Site) (n : Node) : Reading (Option EnumMember) :=
  if n.kind = "enum_assignment" then do
    let name ← site.declaredName n
    match n.field? "value" with
    | some value => do return some { name, initializer := some (← site.read value) }
    | none => return some { name, initializer := none }
  else if ["property_identifier", "string", "number"].contains n.kind then do
    return some { name := ← site.read n, initializer := none }
  else return none

/-- The members of an enumeration. -/
def enumMembers (site : Site) : Option Node → Reading (List EnumMember)
  | none => return []
  | some body => do return (← Reading.collect (enumMember? site) body.named).filterMap id

/-- An enumeration. -/
def enumOf (site : Site) (isExported isDefault : Bool) (n : Node) : Reading Declaration := do
  let short ← site.declaredName n
  let name := site.qualify short
  let members ← enumMembers site (n.field? "body")
  let head := {
    name
    isExported
    isDefault
    position := site.position n
    uri := site.uri name
    signature := "enum " ++ short }
  return .enumDecl head members (n.hasChild "const")

/-- The keyword of a variable statement. -/
def variableKeyword (site : Site) (n : Node) : Reading VariableKeyword :=
  if n.kind = "variable_declaration" then return .var
  else do
    return if (← site.readOrEmpty (n.field? "kind")) = "let" then .letBinding else .const

/-- One declarator of the variable statement `statement`; nothing for patterns. -/
def variableOf (site : Site) (isExported : Bool) (keyword : VariableKeyword) (statement n : Node) :
    Reading (Option Declaration) :=
  match n.field? "name" with
  | none => return none
  | some target =>
    if target.kind ≠ "identifier" then return none
    else do
      let short ← site.read target
      let name := site.qualify short
      let type ← annotatedOrInferred site n
      let head := {
        name
        isExported
        position := site.position statement
        uri := site.uri name
        signature := keyword.spelling ++ " " ++ short ++
          match type with
          | some type => ": " ++ type
          | none => "" }
      return some (.variableDecl head keyword)

/-- The variables that a statement declares. -/
def variablesOf (site : Site) (isExported : Bool) (n : Node) : Reading (List Declaration) := do
  let keyword ← variableKeyword site n
  let found ← Reading.collect (variableOf site isExported keyword n) (n.namedOf ["variable_declarator"])
  return found.filterMap id

end Outline
