/-
Module: Outline.Module.Statement
Layer: Module
Purpose: The statements of a module or a namespace, in order. Imports fill the table of names, declarations are
  given out, exports of declared names are marked and applied when the scope ends. A statement with a syntax
  error is passed over, unless it declares a namespace, whose statements are then judged one by one; a statement
  that cannot be read is given up where it fails.
Main exports: StatementForm, Surroundings, Scope, prescan, applyExports, processScope, processStatement
-/
import Outline.Declaration.Extract
import Outline.Module.Specifiers
import Outline.Module.Walk

namespace Outline

open Specifier (Resolved Resolver packageName)

/-!
### Kinds of statements
-/

/-- What a statement does, by the kind of its node. -/
inductive StatementForm where
  | importing
  | exporting
  | function
  | functionSignature
  | classDecl
  | interfaceDecl
  | typeAlias
  | enumDecl
  | bindings
  | nameSpace
  /-- A `declare` around another statement. -/
  | ambient
  /-- An expression; namespaces at statement level are wrapped in one. -/
  | expression
deriving DecidableEq, Repr, Inhabited

/-- Form of the statements of a kind; none for the kinds that declare nothing. -/
def StatementForm.ofKind? : String → Option StatementForm
  | "import_statement" => some .importing
  | "export_statement" => some .exporting
  | "function_declaration" | "generator_function_declaration" => some .function
  | "function_signature" => some .functionSignature
  | "class_declaration" | "abstract_class_declaration" => some .classDecl
  | "interface_declaration" => some .interfaceDecl
  | "type_alias_declaration" => some .typeAlias
  | "enum_declaration" => some .enumDecl
  | "lexical_declaration" | "variable_declaration" => some .bindings
  | "internal_module" | "module" => some .nameSpace
  | "ambient_declaration" => some .ambient
  | "expression_statement" => some .expression
  | _ => none

/-- Kinds of statements that declare nothing and are not worth a line in the log. -/
def silentKinds : List String :=
  ["comment", "empty_statement", "hash_bang_line", "import_alias", "if_statement", "for_statement",
   "for_in_statement", "while_statement", "try_statement", "return_statement", "throw_statement",
   "statement_block"]

/-- Kinds of functions that can stand as a value. -/
def functionExpressionKinds : List String :=
  ["function_expression", "function", "generator_function", "arrow_function"]

/-!
### Scopes
-/

/-- What stays the same for all statements of a file or namespace body. -/
structure Surroundings where
  source : Source
  path : String
  resolver : Resolver := {}
  /-- Dotted names of the namespaces around. -/
  qualifier : String := ""

namespace Surroundings

/-- The place of a declaration, given the names imported so far. -/
def site (s : Surroundings) (imports : Entries Resolved) : Site :=
  { source := s.source, path := s.path, qualifier := s.qualifier, imports }

/-- A name behind the names of the namespaces around it. -/
def qualify (s : Surroundings) (name : String) : String :=
  if s.qualifier = "" then name else s.qualifier ++ "." ++ name

/-- The surroundings of the statements of a namespace. -/
def enter (s : Surroundings) (name : String) : Surroundings := { s with qualifier := s.qualify name }

/-- Read something, given the names imported so far. -/
def reading {α : Type} (s : Surroundings) (x : Site → Reading α) : Walk α :=
  Walk.reading fun imports => x (s.site imports)

/-- Text of a node if there is one. -/
def readOrEmpty (s : Surroundings) (n : Option Node) : Walk String := s.reading (·.readOrEmpty n)

/-- Text of a node. -/
def read (s : Surroundings) (n : Node) : Walk String := s.reading (·.read n)

/-- What a specifier refers to. -/
def resolve (s : Surroundings) (spec : String) : Walk Resolved := Walk.resolve s.resolver s.path spec

end Surroundings

/-- The names that the statements of a scope declare, known before they are walked. -/
structure Scope where
  /-- Every declared name. -/
  declared : List String := []
  /-- The functions that have an implementation. -/
  implemented : List String := []
deriving DecidableEq, Repr, Inhabited

/-- The declaration inside a statement: what an export or a `declare` wraps, else the statement itself. -/
def unwrapped? (n : Node) : Option Node :=
  if n.kind = "export_statement" then n.field? "declaration"
  else if n.kind = "ambient_declaration" then n.named.head?
  else some n

/-- Name that a node declares. -/
def nameIn (src : Source) (n : Node) : Except Undecodable String :=
  match n.field? "name" with
  | some name => src.textOf name
  | none => .ok ""

/-- The names that one statement declares. -/
def statementScope (src : Source) (n : Node) : Except Undecodable Scope :=
  match unwrapped? n with
  | none => .ok {}
  | some d =>
    if ["lexical_declaration", "variable_declaration"].contains d.kind then do
      return { declared := ← (d.namedOf ["variable_declarator"]).mapM (nameIn src) }
    else do
      let name ← nameIn src d
      return {
        declared := if name = "" then [] else [name]
        implemented :=
          if ["function_declaration", "generator_function_declaration"].contains d.kind then [name] else [] }

/-- The names that the statements of a body declare. -/
def prescan (src : Source) (body : Node) : Except Undecodable Scope := do
  let scopes ← body.named.mapM (statementScope src)
  return { declared := scopes.flatMap (·.declared), implemented := scopes.flatMap (·.implemented) }

/-- Mark a declaration as exported if an export clause names it, and as default if it is exported so. Re-exports
    are left alone. -/
def applyExportsTo (qualify : String → String) (exports : List LocalExport) (d : Declaration) : Declaration :=
  if d.reExportSource?.isSome then d
  else
    let hits := exports.filter fun e => qualify e.localName == d.head.name
    d.mapHead fun h => { h with
      isExported := h.isExported || !hits.isEmpty
      isDefault := h.isDefault || hits.any (·.exportedName == "default") }

/-- Apply the export clauses of a scope to its declarations. -/
def applyExports (qualify : String → String) (exports : List LocalExport) (ds : List Declaration) :
    List Declaration :=
  ds.map (applyExportsTo qualify exports)

/-!
### Statements without statements inside
-/

/-- First 200 characters of the text of a node. -/
def excerpt (s : Surroundings) (n : Node) : Walk String := do
  return Text.takeFirst 200 (← s.read n)

/-- Log a node that means nothing here. -/
def noteUnknown (s : Surroundings) (n : Node) (context : Option String) : Walk Unit := do
  let raw ← excerpt s n
  Walk.note (.unknownNode s.path n.kind (s.source.line n) raw context)

/-- Give out a declaration with the dependencies of a node. -/
def emitWith (s : Surroundings) (span : Node) (d : Declaration) : Walk Unit := do
  let dependencies ← s.reading (·.dependencies span)
  Walk.emit (d.mapHead fun h => { h with dependencies })

/-- Give out what a statement declares. -/
def declare (s : Surroundings) (n : Node) (x : Site → Reading Declaration) : Walk Unit := do
  emitWith s n (← s.reading x)

/-- Give out each of the variables that a statement declares. -/
def declareVariables (s : Surroundings) (n : Node) (isExported : Bool) : Walk Unit := do
  Walk.forEach (emitWith s n) (← s.reading (variablesOf · isExported n))

/-- Bind the name that a node holds. -/
def bindNode (s : Surroundings) (r : Resolved) (n : Option Node) : Walk Unit := do
  Walk.bindName (← s.readOrEmpty n) r

/-- Bind the names of one part of an import clause. -/
def bindPart (s : Surroundings) (r : Resolved) (part : Node) : Walk Unit :=
  if part.kind = "identifier" then bindNode s r (some part)
  else if part.kind = "namespace_import" then bindNode s r (part.child? ["identifier"])
  else if part.kind = "named_imports" then
    Walk.forEach (fun spec => bindNode s r (spec.eitherField? "alias" "name")) (part.namedOf ["import_specifier"])
  else pure ()

/-- Bind the names that an import statement introduces. -/
def processImport (s : Surroundings) (n : Node) : Walk Unit := do
  match ← s.reading fun _ => ⟨[], statementSpecifier s.source n⟩ with
  | none => pure ()
  | some spec =>
    let r ← s.resolve spec
    match n.child? ["import_require_clause"], n.child? ["import_clause"] with
    | some clause, _ => bindNode s r (clause.child? ["identifier"])
    | none, some clause => Walk.forEach (bindPart s r) clause.named
    | none, none => pure ()

/-- The dependency of a re-export on the one name it passes on. -/
def reExportDependency (r : Resolved) (name : String) : Dependency :=
  if r.isExternal then .external (packageName r.specifier) r.specifier [name] else .internal r.source [name]

/-- Give out the re-export of a name of another module under a name of this one. -/
def emitReExport (s : Surroundings) (n : Node) (exported passedOn : String) (r : Resolved) : Walk Unit := do
  let name := s.qualify exported
  let text ← s.read n
  Walk.emit <| .reExport {
      name
      isExported := true
      position := s.source.position n
      uri := declarationUri s.path name
      signature := String.ofList (Text.dropEndWhile (· = ';') (Text.squash text).toList)
      dependencies := [reExportDependency r passedOn] } r.source

/-- The local and the exported name of an export specifier. -/
def exportedNames (s : Surroundings) (spec : Node) : Walk (String × String) := do
  let name ← s.readOrEmpty (spec.field? "name")
  match spec.field? "alias" with
  | some renamed => return (name, ← s.read renamed)
  | none => return (name, name)

/-- Give out what an export from another module passes on: the names of its clause, everything under one name, or
    everything. -/
def processReExport (s : Surroundings) (n : Node) (r : Resolved) : Walk Unit :=
  match n.child? ["export_clause"], n.child? ["namespace_export"] with
  | some clause, _ =>
    Walk.forEach (fun spec => do
      let (passedOn, exported) ← exportedNames s spec
      emitReExport s n exported passedOn r) (clause.namedOf ["export_specifier"])
  | none, some whole => do
    let name ← s.readOrEmpty whole.named.head?
    emitReExport s n (Signature.orElse name "*") "*" r
  | none, none => emitReExport s n "*" "*" r

/-- An export clause without a source: declared names are marked, imported names are passed on. -/
def processExportClause (s : Surroundings) (scope : Scope) (n clause : Node) : Walk Unit :=
  Walk.forEach (fun spec => do
    let (localName, exportedName) ← exportedNames s spec
    if scope.declared.contains localName then Walk.exportLater { localName, exportedName }
    else
      match ← Walk.imported? localName with
      | some binding => emitReExport s n exportedName localName (← s.resolve binding.specifier)
      | none => noteUnknown s spec (some "export of undeclared name")) (clause.namedOf ["export_specifier"])

/-- The declaration that stands for a default export of a mere value. -/
def defaultValue (s : Surroundings) (n : Node) : Declaration :=
  let name := s.qualify "default"
  .variableDecl {
    name
    isExported := true
    isDefault := true
    position := s.source.position n
    uri := declarationUri s.path name
    signature := "export default" } .const

/-- A default export of a value: a function or class is declared by it, a declared name is marked, and anything
    else counts as a variable. -/
def processDefaultValue (s : Surroundings) (scope : Scope) (n value : Node) : Walk Unit :=
  if functionExpressionKinds.contains value.kind then declare s value (functionOf · true true value)
  else if value.kind = "class" then declare s value (classOf · true true value)
  else if value.kind = "identifier" then do
    let name ← s.read value
    if scope.declared.contains name then Walk.exportLater { localName := name, exportedName := "default" }
    else emitWith s n (defaultValue s n)
  else emitWith s n (defaultValue s n)

/-- A function without a body; it gives way to an implementation in the same scope. -/
def processFunctionSignature (s : Surroundings) (scope : Scope) (n : Node) (isExported isDefault : Bool) :
    Walk Unit := do
  let name ← s.readOrEmpty (n.field? "name")
  if scope.implemented.contains name then pure ()
  else declare s n (functionOf · isExported isDefault n)

/-- Is a statement passed over for a syntax error? Namespaces are not: their statements are judged one by one. -/
def isBroken (n : Node) : Bool := n.kind == "ERROR" || (n.hasError && n.namespaceOf?.isNone)

/-- The declaration of a namespace with given members. -/
def namespaceDeclaration (s : Surroundings) (n : Node) (name : String) (isExported : Bool)
    (members : List Declaration) : Declaration :=
  let qualified := s.qualify name
  .namespaceDecl {
    name := qualified
    isExported
    position := s.source.position n
    uri := declarationUri s.path qualified
    signature := "namespace " ++ name } members

/-!
### The walk
-/

mutual

/-- The declarations of a file or namespace body. -/
def processScope (s : Surroundings) (body : Node) : Walk (List Declaration) := do
  let scope ← s.reading fun _ => ⟨[], prescan s.source body⟩
  Walk.within (applyExports s.qualify) <|
    Walk.forEach (fun (⟨n, _⟩ : body.Below) => processStatement s scope n false false) body.namedBelow
termination_by 4 * body.weight

/-- Process a statement. -/
def processStatement (s : Surroundings) (scope : Scope) (n : Node) (isExported isDefault : Bool) : Walk Unit :=
  if isBroken n then do
    let raw ← excerpt s n
    Walk.note (.brokenStatement s.path n.kind (s.source.line n) raw)
  else
    match StatementForm.ofKind? n.kind with
    | none => if silentKinds.contains n.kind then pure () else noteUnknown s n none
    | some form =>
      Walk.absorb (.abandonedStatement s.path n.kind (s.source.line n))
        (processForm s scope form n isExported isDefault)
termination_by 4 * n.weight + 3

/-- Process a statement of a known form. -/
def processForm (s : Surroundings) (scope : Scope) (form : StatementForm) (n : Node)
    (isExported isDefault : Bool) : Walk Unit :=
  match form with
  | .importing => processImport s n
  | .exporting => processExport s scope n
  | .function => declare s n (functionOf · isExported isDefault n)
  | .functionSignature => processFunctionSignature s scope n isExported isDefault
  | .classDecl => declare s n (classOf · isExported isDefault n)
  | .interfaceDecl => declare s n (interfaceOf · isExported isDefault n)
  | .typeAlias => declare s n (typeAliasOf · isExported isDefault n)
  | .enumDecl => declare s n (enumOf · isExported isDefault n)
  | .bindings => declareVariables s n isExported
  | .nameSpace => processNamespace s n isExported
  | .ambient =>
    match n.namedBelow.head? with
    | some ⟨inner, _⟩ =>
      if (StatementForm.ofKind? inner.kind).isSome then processStatement s scope inner isExported isDefault
      else noteUnknown s n (some "declare")
    | none => noteUnknown s n (some "declare")
  | .expression =>
    match n.childBelow? Node.namespaceKinds with
    | some ⟨ns, _⟩ => processNamespace s ns isExported
    | none => pure ()
termination_by 4 * n.weight + 2

/-- Process an export: of a declaration, from another module, of a value by default, or of names. -/
def processExport (s : Surroundings) (scope : Scope) (n : Node) : Walk Unit :=
  match n.fieldBelow? "declaration" with
  | some ⟨declaration, _⟩ => processStatement s scope declaration true (n.hasChild "default")
  | none =>
    match n.field? "source" with
    | some source => do
      let spec := stripQuotes (← s.read source)
      processReExport s n (← s.resolve spec)
    | none =>
      match n.field? "value", n.hasChild "default", n.child? ["export_clause"] with
      | some value, true, _ => processDefaultValue s scope n value
      | _, _, some clause => processExportClause s scope n clause
      | _, _, none => noteUnknown s n (some "export")
termination_by 4 * n.weight + 1

/-- Process a namespace. One without a name, or named by a string, only adds to another module. -/
def processNamespace (s : Surroundings) (n : Node) (isExported : Bool) : Walk Unit :=
  match n.field? "name" with
  | none => noteUnknown s n (some "module augmentation")
  | some nameNode =>
    if nameNode.kind = "string" then noteUnknown s n (some "module augmentation")
    else do
      let name := Text.compact (← s.read nameNode)
      let members ← match n.fieldBelow? "body" with
        | some ⟨body, _⟩ => processScope (s.enter name) body
        | none => pure []
      emitWith s n (namespaceDeclaration s n name isExported members)
termination_by 4 * n.weight + 1

end

end Outline
