/-
Module: Outline.Module.Specifiers
Layer: Module
Purpose: The module specifiers that a file mentions in imports and re-exports, namespace bodies included. The
  statements of a scope come first, then those of the namespaces in it, one after the other.
Main exports: stripQuotes, statementSpecifier, Node.namespaceOf?, collectSpecifiers
-/
import Outline.Source
import Outline.Tree.Below

namespace Outline

/-- A string literal without the blanks and quotes around it. -/
def stripQuotes (s : String) : String :=
  String.ofList <|
    Text.trimWhile (fun c => c = '"' || c = '\'' || c = Char.ofNat 0x60)
      (Text.trimWhile Text.isBlank s.toList)

/-- The specifier that a node holds. -/
def specifierText (src : Source) (n : Node) : Except Undecodable String :=
  (src.textOf n).map stripQuotes

/-- Specifier of a node if there is one. -/
def specifierText? (src : Source) : Option Node → Except Undecodable (Option String)
  | some n => (specifierText src n).map some
  | none => .ok none

/-- The specifier that a statement mentions: an import, also one by `require`, or an export from another
    module. -/
def statementSpecifier (src : Source) (n : Node) : Except Undecodable (Option String) :=
  if n.kind = "import_statement" then
    match n.child? ["import_require_clause"] with
    | some clause => specifierText? src ((clause.field? "source").or (clause.child? ["string"]))
    | none => specifierText? src (n.field? "source")
  else if n.kind = "export_statement" then specifierText? src (n.field? "source")
  else .ok none

namespace Node

/-- Kinds of namespace declarations. -/
def namespaceKinds : List String := ["internal_module", "module"]

/-- The namespace that a statement declares, bare or wrapped in an expression, a `declare` or an export. -/
def namespaceOf? (n : Node) : Option Node :=
  if namespaceKinds.contains n.kind then some n
  else if ["expression_statement", "ambient_declaration"].contains n.kind then n.child? namespaceKinds
  else if n.kind = "export_statement" then
    match n.fieldBelow? "declaration" with
    | some ⟨declaration, _⟩ => namespaceOf? declaration
    | none => none
  else none
termination_by n.weight

/-- The namespace that a statement declares weighs no more than the statement. -/
theorem weight_le_of_namespaceOf? {n ns : Node} (h : n.namespaceOf? = some ns) : ns.weight ≤ n.weight := by
  fun_induction namespaceOf? n with
  | case1 => cases h; exact Nat.le_refl _
  | case2 => exact Nat.le_of_lt (weight_lt_of_child? h)
  | case3 n _ _ _ declaration lt _ ih => exact Nat.le_of_lt (Nat.lt_of_le_of_lt (ih h) lt)
  | case4 => cases h
  | case5 => cases h

/-- Body of the namespace that a statement declares. -/
def namespaceBody? (n : Node) : Option Node := n.namespaceOf?.bind (·.field? "body")

/-- The body of a namespace weighs less than the statement that declares it. -/
theorem weight_lt_of_namespaceBody? {n body : Node} (h : n.namespaceBody? = some body) :
    body.weight < n.weight := by
  obtain ⟨ns, hns, hbody⟩ := Option.bind_eq_some_iff.1 h
  exact Nat.lt_of_lt_of_le (weight_lt_of_field? hbody) (weight_le_of_namespaceOf? hns)

/-- The body of the namespace that a statement declares, with the fact that it weighs less. -/
def namespaceBodyBelow? (n : Node) : Option n.Below :=
  n.namespaceBody?.attachWith _ fun _ h => weight_lt_of_namespaceBody? h

end Node

/-- Every specifier that the statements of a scope mention, then those of the namespaces in it. A statement with
    a specifier of its own is not searched further. -/
def collectSpecifiers (src : Source) (scope : Node) : Except Undecodable (List String) := do
  let found ← scope.namedBelow.mapM fun statement => do
    return (statement, ← statementSpecifier src statement.1)
  let nested ← found.mapM fun (⟨⟨statement, _⟩, spec⟩ : scope.Below × Option String) =>
    match spec, statement.namespaceBodyBelow? with
    | none, some ⟨body, _⟩ => collectSpecifiers src body
    | _, _ => return []
  return found.filterMap (·.2) ++ nested.flatten
termination_by scope.weight

end Outline
