/-
Module: Outline.Proofs.Module.Equations
Layer: Proofs
Purpose: The walk over statements, said without the weights that make it end: which kinds have which form, what the
  scan ahead looks through, and what a scope, an ambient declaration, an expression, an export and a namespace do in
  terms of their children.
Main exports: StatementForm.ofKind?_eq_some_iff, unwrapped?_eq, Node.namespaceOf?_eq, processScope_eq, processForm_eq,
  processExport_eq, exportItem, processExportClause_eq, processNamespace_eq
-/
import Outline.Module.Statement

namespace Outline

/-- The kinds of the statements of a form. -/
def StatementForm.kinds : StatementForm → List String
  | .importing => ["import_statement"]
  | .exporting => ["export_statement"]
  | .function => ["function_declaration", "generator_function_declaration"]
  | .functionSignature => ["function_signature"]
  | .classDecl => ["class_declaration", "abstract_class_declaration"]
  | .interfaceDecl => ["interface_declaration"]
  | .typeAlias => ["type_alias_declaration"]
  | .enumDecl => ["enum_declaration"]
  | .bindings => ["lexical_declaration", "variable_declaration"]
  | .nameSpace => Node.namespaceKinds
  | .ambient => ["ambient_declaration"]
  | .expression => ["expression_statement"]

/-- A statement has the form whose kinds hold its kind. -/
theorem StatementForm.ofKind?_eq_some_iff {kind : String} {form : StatementForm} :
    ofKind? kind = some form ↔ kind ∈ form.kinds := by
  constructor
  · intro found
    unfold ofKind? at found
    split at found <;> cases found <;> decide
  · intro mem
    cases form <;> simp only [kinds, Node.namespaceKinds, List.mem_cons, List.not_mem_nil, or_false] at mem <;>
      rcases mem with rfl | rfl <;> rfl

/-- The scan ahead looks through exports and `declare`s alone. -/
theorem unwrapped?_eq (n : Node) :
    unwrapped? n =
      match StatementForm.ofKind? n.kind with
      | some .exporting => n.field? "declaration"
      | some .ambient => n.named.head?
      | _ => some n := by
  unfold unwrapped?
  by_cases exporting : n.kind = "export_statement"
  · have form : StatementForm.ofKind? n.kind = some .exporting := by rw [exporting]; rfl
    rw [form, if_pos exporting]
  · by_cases ambient : n.kind = "ambient_declaration"
    · have form : StatementForm.ofKind? n.kind = some .ambient := by rw [ambient]; rfl
      rw [form, if_neg exporting, if_pos ambient]
    · rw [if_neg exporting, if_neg ambient]
      split
      next form => exact absurd (List.mem_singleton.1 (StatementForm.ofKind?_eq_some_iff.1 form)) exporting
      next form => exact absurd (List.mem_singleton.1 (StatementForm.ofKind?_eq_some_iff.1 form)) ambient
      next => rfl

/-- A statement that wraps nothing is scanned itself. -/
theorem unwrapped?_eq_self {n : Node} (exporting : StatementForm.ofKind? n.kind ≠ some .exporting)
    (ambient : StatementForm.ofKind? n.kind ≠ some .ambient) : unwrapped? n = some n := by
  rw [unwrapped?_eq]
  split
  next form => exact absurd form exporting
  next form => exact absurd form ambient
  next => rfl

/-- A namespace is looked for in expressions and `declare`s, and in what exports wrap. -/
theorem Node.namespaceOf?_eq (n : Node) :
    n.namespaceOf? =
      match StatementForm.ofKind? n.kind with
      | some .nameSpace => some n
      | some .expression | some .ambient => n.child? Node.namespaceKinds
      | some .exporting => (n.field? "declaration").bind Node.namespaceOf?
      | _ => none := by
  rw [Node.namespaceOf?, ← Node.map_val_fieldBelow?]
  by_cases bare : n.kind ∈ Node.namespaceKinds
  · have form : StatementForm.ofKind? n.kind = some .nameSpace := StatementForm.ofKind?_eq_some_iff.2 bare
    rw [form, if_pos (List.contains_iff_mem.2 bare)]
  · rw [if_neg (mt List.contains_iff_mem.1 bare)]
    by_cases expression : n.kind = "expression_statement"
    · rw [expression]; rfl
    · by_cases ambient : n.kind = "ambient_declaration"
      · rw [ambient]; rfl
      · rw [if_neg (by simp [expression, ambient])]
        by_cases exporting : n.kind = "export_statement"
        · rw [exporting]
          cases n.fieldBelow? "declaration" <;> rfl
        · rw [if_neg exporting]
          split
          next form => exact absurd (StatementForm.ofKind?_eq_some_iff.1 form) bare
          next form => exact absurd (List.mem_singleton.1 (StatementForm.ofKind?_eq_some_iff.1 form)) expression
          next form => exact absurd (List.mem_singleton.1 (StatementForm.ofKind?_eq_some_iff.1 form)) ambient
          next form => exact absurd (List.mem_singleton.1 (StatementForm.ofKind?_eq_some_iff.1 form)) exporting
          next => rfl

/-- Walking over the images is walking with the composition. -/
theorem Walk.forEach_map {α β : Type} (f : β → Walk Unit) (g : α → β) (as : List α) :
    Walk.forEach f (as.map g) = Walk.forEach (fun a => f (g a)) as := by
  induction as with
  | nil => rfl
  | cons a as ih => simp only [List.map_cons, Walk.forEach, ih]

/-- A scope walks its statements in order, after the scan ahead. -/
theorem processScope_eq (s : Surroundings) (body : Node) :
    processScope s body = (do
      let scope ← s.reading fun _ => ⟨[], prescan s.source body⟩
      Walk.within (applyExports s.qualify) <|
        Walk.forEach (fun n => processStatement s scope n false false) body.named) := by
  rw [processScope, ← Node.map_val_namedBelow]
  simp only [Walk.forEach_map]

/-- An ambient declaration does what its first child does, if that is a statement, and an expression counts for the
    namespace in it. -/
theorem processForm_eq (s : Surroundings) (scope : Scope) (form : StatementForm) (n : Node)
    (isExported isDefault : Bool) :
    processForm s scope form n isExported isDefault =
      match form with
      | .importing => processImport s n
      | .exporting => processExport s scope n
      | .function => declare s n (functionOf · isExported isDefault n)
      | .functionSignature => processFunctionSignature s scope n isExported isDefault
      | .classDecl => declare s n (classOf · isExported isDefault n)
      | .interfaceDecl => declare s n (interfaceOf · isExported isDefault n)
      | .typeAlias => declare s n (typeAliasOf · isExported isDefault n)
      | .enumDecl => declare s n (enumOf · isExported isDefault n)
      | .bindings => declareVariables s n isExported
      | .nameSpace => processNamespace s n isExported
      | .ambient =>
        match n.named.head? with
        | some inner =>
          if (StatementForm.ofKind? inner.kind).isSome then processStatement s scope inner isExported isDefault
          else noteUnknown s n (some "declare")
        | none => noteUnknown s n (some "declare")
      | .expression =>
        match n.child? Node.namespaceKinds with
        | some ns => processNamespace s ns isExported
        | none => pure () := by
  rw [processForm.eq_def]
  cases form with
  | ambient =>
      rw [← Node.map_val_namedBelow, List.head?_map]
      cases n.namedBelow.head? <;> rfl
  | expression =>
      rw [← Node.map_val_childBelow?]
      cases n.childBelow? Node.namespaceKinds <;> rfl
  | _ => rfl

/-- What an export statement comes to, by what it holds: a declaration, a value, a source or a clause. -/
theorem processExport_eq (s : Surroundings) (scope : Scope) (n : Node) :
    processExport s scope n =
      match n.field? "declaration" with
      | some declaration => processStatement s scope declaration true (n.hasChild "default")
      | none =>
        match n.field? "source" with
        | some source => do
          let spec := stripQuotes (← s.read source)
          processReExport s n (← s.resolve spec)
        | none =>
          match n.field? "value", n.hasChild "default", n.child? ["export_clause"] with
          | some value, true, _ => processDefaultValue s scope n value
          | _, _, some clause => processExportClause s scope n clause
          | _, _, none => noteUnknown s n (some "export") := by
  rw [processExport, ← Node.map_val_fieldBelow? n "declaration"]
  cases n.fieldBelow? "declaration" <;> rfl

/-- What an export clause without a source does with one of its items. -/
def exportItem (s : Surroundings) (scope : Scope) (n item : Node) : Walk Unit := do
  let (localName, exportedName) ← exportedNames s item
  if scope.declared.contains localName then Walk.exportLater { localName, exportedName }
  else
    match ← Walk.imported? localName with
    | some binding => emitReExport s n exportedName localName (← s.resolve binding.specifier)
    | none => noteUnknown s item (some "export of undeclared name")

theorem processExportClause_eq (s : Surroundings) (scope : Scope) (n clause : Node) :
    processExportClause s scope n clause =
      Walk.forEach (exportItem s scope n) (clause.namedOf ["export_specifier"]) := rfl

/-- What a namespace comes to, by the name it has and the body that is found. -/
theorem processNamespace_eq (s : Surroundings) (n : Node) (isExported : Bool) :
    processNamespace s n isExported =
      match n.field? "name" with
      | none => noteUnknown s n (some "module augmentation")
      | some nameNode =>
        if nameNode.kind = "string" then noteUnknown s n (some "module augmentation")
        else (do
          let name := Text.compact (← s.read nameNode)
          let members ← match n.field? "body" with
            | some body => processScope (s.enter name) body
            | none => pure []
          emitWith s n (namespaceDeclaration s n name isExported members)) := by
  rw [processNamespace, ← Node.map_val_fieldBelow? n "body"]
  cases n.fieldBelow? "body" <;> rfl

end Outline
