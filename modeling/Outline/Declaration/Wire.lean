/-
Module: Outline.Declaration.Wire
Layer: Declaration
Purpose: Declarations as JSON. The order of the keys is part of the format; what a declaration lacks is left
  out.
Main exports: Position.toJson, Parameter.toJson, Dependency.toJson, ClassMembers.toJson, Declaration.toJson,
  Declaration.listToJson
-/
import Outline.Declaration.Basic
import Outline.Json.Value

namespace Outline

open Signature (Accessor)

/-- One key, if there is a value for it. -/
def optionalText (key : String) : Option String → List (String × Json)
  | some s => [(key, .text s)]
  | none => []

/-- A list of texts under a key; left out when empty. -/
def optionalTexts (key : String) (ss : List String) : List (String × Json) :=
  if ss.isEmpty then [] else [(key, Json.strings ss)]

/-- A line and a column as JSON. -/
def LineColumn.toJson (p : LineColumn) : Json :=
  .object [("line", .int p.line), ("column", .int p.column)]

/-- Start and end of a span as JSON. -/
def Position.toJson (p : Position) : Json :=
  .object [("start", p.start.toJson), ("end", p.stop.toJson)]

/-- A formal parameter as JSON. -/
def Parameter.toJson (p : Parameter) : Json :=
  .object [("name", .text p.name), ("type", .text p.type), ("isOptional", .bool p.isOptional),
    ("isRest", .bool p.isRest)]

/-- A dependency as JSON; its type tells whether it is a file of the project or a package. -/
def Dependency.toJson : Dependency → Json
  | .internal path names =>
    .object [("type", .text "internal"), ("filePath", .text path), ("dependsOn", Json.strings names)]
  | .external package specifier names =>
    .object [("type", .text "external"), ("packageName", .text package), ("importPath", .text specifier),
      ("dependsOn", Json.strings names)]

/-- A method, accessor or constructor as JSON. -/
def Method.toJson (m : Method) : Json :=
  .object <|
    [("name", .text m.name), ("uri", .text m.uri), ("position", m.position.toJson),
     ("typeSignature", .text m.signature), ("dependencies", .list (m.dependencies.map Dependency.toJson)),
     ("isStatic", .bool m.isStatic), ("isPrivate", .bool m.isPrivate), ("isProtected", .bool m.isProtected),
     ("isAsync", .bool m.isAsync), ("isGenerator", .bool m.isGenerator), ("isAbstract", .bool m.isAbstract)] ++
    optionalText "accessor" (m.accessor.map Accessor.keyword) ++
    [("parameters", .list (m.parameters.map Parameter.toJson))] ++
    optionalText "returnType" m.returnType ++ optionalTexts "typeParameters" m.typeParameters

/-- A property as JSON. -/
def Property.toJson (p : Property) : Json :=
  .object <|
    [("name", .text p.name), ("uri", .text p.uri), ("position", p.position.toJson),
     ("typeSignature", .text p.signature), ("dependencies", .list (p.dependencies.map Dependency.toJson)),
     ("type", .text p.type), ("isStatic", .bool p.isStatic), ("isPrivate", .bool p.isPrivate),
     ("isProtected", .bool p.isProtected), ("isReadonly", .bool p.isReadonly),
     ("isOptional", .bool p.isOptional)] ++
    optionalText "initializer" p.initializer

/-- The members of a class as JSON. -/
def ClassMembers.toJson (m : ClassMembers) : Json :=
  .object <|
    [("properties", .list (m.properties.map Property.toJson)), ("methods", .list (m.methods.map Method.toJson))] ++
    match m.constructor with
    | some c => [("constructor", c.toJson)]
    | none => []

/-- A member of an enumeration as JSON. -/
def EnumMember.toJson (m : EnumMember) : Json :=
  .object (("name", .text m.name) :: optionalText "initializer" m.initializer)

/-- The keys that all declarations have, in order. -/
def Declaration.headFields (d : Declaration) : List (String × Json) :=
  [("name", .text d.head.name), ("kind", .text d.kindName), ("isExported", .bool d.head.isExported),
   ("isDefault", .bool d.head.isDefault), ("isReExport", .bool d.reExportSource?.isSome)] ++
  optionalText "reExportSource" d.reExportSource? ++
  [("position", d.head.position.toJson), ("uri", .text d.head.uri), ("typeSignature", .text d.head.signature)] ++
  optionalTexts "typeParameters" d.head.typeParameters ++
  [("dependencies", .list (d.head.dependencies.map Dependency.toJson))]

namespace Declaration

mutual

/-- A declaration as JSON. -/
def toJson : Declaration → Json
  | functionDecl head ps type isAsync isGenerator =>
    .object ((functionDecl head ps type isAsync isGenerator).headFields ++
      [("parameters", .list (ps.map Parameter.toJson)), ("returnType", .text type), ("isAsync", .bool isAsync),
       ("isGenerator", .bool isGenerator)])
  | classDecl head superclass interfaces members isAbstract =>
    .object ((classDecl head superclass interfaces members isAbstract).headFields ++
      optionalText "extends" superclass ++
      [("implements", Json.strings interfaces), ("members", members.toJson), ("isAbstract", .bool isAbstract)])
  | interfaceDecl head supertypes =>
    .object ((interfaceDecl head supertypes).headFields ++ [("implements", Json.strings supertypes)])
  | enumDecl head members isConst =>
    .object ((enumDecl head members isConst).headFields ++
      [("enumMembers", .list (members.map EnumMember.toJson)), ("isConst", .bool isConst)])
  | namespaceDecl head members =>
    .object ((namespaceDecl head members).headFields ++ [("members", .list (toJsonAll members))])
  | typeAlias head => .object (typeAlias head).headFields
  | variableDecl head keyword => .object (variableDecl head keyword).headFields
  | reExport head source => .object (reExport head source).headFields

/-- Declarations as JSON, one by one. -/
def toJsonAll : List Declaration → List Json
  | [] => []
  | d :: ds => toJson d :: toJsonAll ds

end

/-- A list of declarations as JSON. -/
def listToJson (ds : List Declaration) : Json := .list (toJsonAll ds)

end Declaration

end Outline
