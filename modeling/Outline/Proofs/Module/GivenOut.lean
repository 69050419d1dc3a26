/-
Module: Outline.Proofs.Module.GivenOut
Layer: Proofs
Purpose: What a statement can leave behind, whatever it looks like. Its declarations are re-exports, or exported by
  default, or go by a name that the statement gives out; its export marks name what the scan ahead found.
Main exports: GivenBy, Scope.Declares, processStatement_ensures
-/
import Outline.Proofs.Declaration.Heads
import Outline.Proofs.Module.Prescan
import Outline.Proofs.Walk.Ensures

namespace Outline

open Signature (orElse)
open Specifier (Resolved)

/-- How a declaration can come from the statement `n`. -/
inductive GivenBy (s : Surroundings) (n : Node) (d : Declaration) : Prop where
  | reExport (source : d.reExportSource?.isSome)
  | byDefault (isExported : d.head.isExported) (isDefault : d.head.isDefault)
  | under {name : String} (gives : Gives s.source n name) (named : d.head.name = s.qualify name)

/-- The scan ahead found the name that is exported. -/
def Scope.Declares (scope : Scope) (e : LocalExport) : Prop := e.localName ∈ scope.declared

section Steps

variable {D : Declaration → Prop} {E : LocalExport → Prop} (s : Surroundings)

/-- What is read in the walk has the properties that it has at each site. -/
theorem reading_ensures {α : Type} {R : α → Prop} {x : Site → Reading α}
    (value : ∀ imports, (x (s.site imports)).Ensures R) : Walk.Ensures D E R (s.reading x) :=
  .reading value

theorem read_ensures (n : Node) : Walk.Ensures D E (fun text => s.source.textOf n = .ok text) (s.read n) :=
  reading_ensures s fun _ => .read s.source n

theorem readOrEmpty_ensures (n : Option Node) : Walk.Ensures D E (fun _ => True) (s.readOrEmpty n) :=
  reading_ensures s fun _ _ _ => trivial

theorem noteUnknown_ensures (n : Node) (context : Option String) :
    Walk.Ensures D E (fun _ => True) (noteUnknown s n context) := by
  apply Walk.Ensures.after
  · exact .bind (read_ensures s n) fun _ _ => .pure trivial
  · exact fun raw => .note _

/-- What is given out has the properties that it has with any dependencies. -/
theorem emitWith_ensures (span : Node) {d : Declaration}
    (given : ∀ dependencies, D (d.mapHead fun h => { h with dependencies })) :
    Walk.Ensures D E (fun _ => True) (emitWith s span d) := by
  apply Walk.Ensures.after
  · exact reading_ensures s fun _ _ _ => trivial
  · exact fun dependencies => .emit (given dependencies)

theorem declare_ensures (n : Node) {x : Site → Reading Declaration}
    (each : ∀ imports, (x (s.site imports)).Ensures fun d =>
      ∀ dependencies, D (d.mapHead fun h => { h with dependencies })) :
    Walk.Ensures D E (fun _ => True) (declare s n x) := by
  apply Walk.Ensures.bind (reading_ensures s each)
  intro d given
  exact emitWith_ensures s n given

theorem declareVariables_ensures (n : Node) (isExported : Bool)
    (each : ∀ imports, (variablesOf (s.site imports) isExported n).Ensures fun ds =>
      ∀ d ∈ ds, ∀ dependencies, D (d.mapHead fun h => { h with dependencies })) :
    Walk.Ensures D E (fun _ => True) (declareVariables s n isExported) := by
  apply Walk.Ensures.bind (reading_ensures s each)
  intro ds given
  apply Walk.Ensures.forEach
  intro d mem
  exact emitWith_ensures s n (given d mem)

theorem bindNode_ensures (r : Resolved) (n : Option Node) :
    Walk.Ensures D E (fun _ => True) (bindNode s r n) :=
  .after (readOrEmpty_ensures s n) fun name => .bindName name r

theorem bindPart_ensures (r : Resolved) (part : Node) : Walk.Ensures D E (fun _ => True) (bindPart s r part) := by
  unfold bindPart
  split
  · exact bindNode_ensures s r _
  · split
    · exact bindNode_ensures s r _
    · split
      · exact .forEach fun spec _ => bindNode_ensures s r _
      · exact .pure trivial

/-- Imports leave behind nothing but tables. -/
theorem processImport_ensures (n : Node) : Walk.Ensures D E (fun _ => True) (processImport s n) := by
  unfold processImport
  apply Walk.Ensures.after
  · exact reading_ensures s fun _ _ _ => trivial
  · intro found
    cases found with
    | none => exact .pure trivial
    | some spec =>
        apply Walk.Ensures.after (.resolve _ _ _)
        intro r
        split
        · exact bindNode_ensures s r _
        · exact .forEach fun part _ => bindPart_ensures s r part
        · exact .pure trivial

theorem exportedNames_ensures (spec : Node) : Walk.Ensures D E (fun _ => True) (exportedNames s spec) := by
  apply Walk.Ensures.after (readOrEmpty_ensures s _)
  intro name
  split
  · exact .bind (read_ensures s _) fun _ _ => .pure trivial
  · exact .pure trivial

/-- An inner scope gives out nothing by itself. -/
theorem processScope_ensures (body : Node) : Walk.Ensures D E (fun _ => True) (processScope s body) := by
  rw [processScope_eq]
  apply Walk.Ensures.after
  · exact reading_ensures s fun _ _ _ => trivial
  · exact fun scope => .within _ _

end Steps

section ReExports

variable {D : Declaration → Prop} {E : LocalExport → Prop} (s : Surroundings) (n : Node)
  (given : ∀ head source, head.position = s.source.position n → D (.reExport head source))

include given

theorem emitReExport_ensures (exported passedOn : String) (r : Resolved) :
    Walk.Ensures D E (fun _ => True) (emitReExport s n exported passedOn r) :=
  .bind (read_ensures s n) fun _ _ => .emit (given _ _ rfl)

theorem processReExport_ensures (r : Resolved) :
    Walk.Ensures D E (fun _ => True) (processReExport s n r) := by
  unfold processReExport
  split
  · apply Walk.Ensures.forEach
    intro spec _
    exact .after (exportedNames_ensures s spec) fun names => emitReExport_ensures s n given _ _ r
  · exact .after (readOrEmpty_ensures s _) fun name => emitReExport_ensures s n given _ _ r
  · exact emitReExport_ensures s n given _ _ r

/-- Declared names are marked, and what is given out are re-exports. -/
theorem processExportClause_ensures (scope : Scope) (clause : Node) :
    Walk.Ensures D scope.Declares (fun _ => True) (processExportClause s scope n clause) := by
  apply Walk.Ensures.forEach
  intro spec _
  apply Walk.Ensures.after (exportedNames_ensures s spec)
  intro names
  dsimp only
  split
  next declared => exact .exportLater (List.contains_iff_mem.1 declared)
  next =>
    apply Walk.Ensures.after (.imported? _)
    intro binding
    cases binding with
    | none => exact noteUnknown_ensures s spec _
    | some binding =>
        apply Walk.Ensures.after (.resolve _ _ _)
        exact fun r => emitReExport_ensures s n given _ _ r

end ReExports

/-!
### Statements
-/

variable (s : Surroundings) (scope : Scope) (n : Node) (isExported isDefault : Bool)

/-- What the inner statement gives is given by the one that wraps it. -/
theorem GivenBy.wrapped {s : Surroundings} {n inner : Node} {d : Declaration} (given : GivenBy s inner d)
    (wraps : ∀ name, Gives s.source inner name → Gives s.source n name) : GivenBy s n d := by
  cases given with
  | reExport source => exact .reExport source
  | byDefault isExported isDefault => exact .byDefault isExported isDefault
  | under gives named => exact .under (wraps _ gives) named

/-- The scan ahead and the readers of declarations look for the name in the same place. -/
theorem declaredName_result (site : Site) (n : Node) : (site.declaredName n).result = nameIn site.source n := by
  unfold Site.declaredName nameIn
  cases n.field? "name" <;> rfl

/-- A reader whose declarations go by the name of the node, perhaps changed, gives them out under that name. -/
theorem declare_givenBy {E : LocalExport → Prop} {x : Site → Reading Declaration} {f : String → String}
    (heads : ∀ site, (x site).Ensures fun d =>
      ∃ short, (site.declaredName n).result = .ok short ∧ site.Heads (f short) isExported isDefault d)
    (gives : ∀ short, nameIn s.source n = .ok short → Gives s.source n (f short)) :
    Walk.Ensures (GivenBy s n) E (fun _ => True) (declare s n x) := by
  apply declare_ensures
  intro imports d ended dependencies
  obtain ⟨short, declared, headed⟩ := heads (s.site imports) d ended
  rw [declaredName_result] at declared
  exact .under (gives short declared) (headed.withDependencies dependencies).name

/-- Variables are given by the statement that declares them. -/
theorem declareVariables_givenBy {E : LocalExport → Prop} (form : StatementForm.ofKind? n.kind = some .bindings) :
    Walk.Ensures (GivenBy s n) E (fun _ => True) (declareVariables s n isExported) := by
  apply declareVariables_ensures
  intro imports ds ended d mem dependencies
  obtain ⟨c, declarator, target, short, named, plain, text, headed⟩ :=
    variablesOf_heads (s.site imports) isExported n ds ended d mem
  exact .under (.binding form declarator named plain text) (headed.withDependencies dependencies).name

/-- What is read from the value of a default export is exported by default. -/
theorem declare_byDefault {E : LocalExport → Prop} (value : Node) {x : Site → Reading Declaration}
    {f : String → String} (heads : ∀ site, (x site).Ensures fun d =>
      ∃ short, (site.declaredName value).result = .ok short ∧ site.Heads (f short) true true d) :
    Walk.Ensures (GivenBy s n) E (fun _ => True) (declare s value x) := by
  apply declare_ensures
  intro imports d ended dependencies
  obtain ⟨short, _, headed⟩ := heads (s.site imports) d ended
  have flagged := headed.withDependencies dependencies
  exact .byDefault flagged.isExported flagged.isDefault

theorem processDefaultValue_ensures (value : Node) :
    Walk.Ensures (GivenBy s n) scope.Declares (fun _ => True) (processDefaultValue s scope n value) := by
  have mere : Walk.Ensures (GivenBy s n) scope.Declares (fun _ => True) (emitWith s n (defaultValue s n)) :=
    emitWith_ensures s n fun _ => .byDefault rfl rfl
  unfold processDefaultValue
  split
  · exact declare_byDefault s n value fun site => functionOf_heads site true true value
  · split
    · exact declare_byDefault s n value fun site => classOf_heads site true true value
    · split
      · apply Walk.Ensures.bind (read_ensures s value)
        intro name _
        split
        next declared => exact .exportLater (List.contains_iff_mem.1 declared)
        next => exact mere
      · exact mere

/-- A function without a body is given by its statement. -/
theorem processFunctionSignature_ensures (form : StatementForm.ofKind? n.kind = some .functionSignature) :
    Walk.Ensures (GivenBy s n) scope.Declares (fun _ => True)
      (processFunctionSignature s scope n isExported isDefault) := by
  apply Walk.Ensures.after (readOrEmpty_ensures s _)
  intro name
  split
  · exact .pure trivial
  · exact declare_givenBy s n isExported isDefault (functionOf_heads · isExported isDefault n)
      fun _ => .orDefault (by simp [form])

/-- A namespace is given by its statement, and its members by theirs. -/
theorem processNamespace_ensures (form : StatementForm.ofKind? n.kind = some .nameSpace) :
    Walk.Ensures (GivenBy s n) scope.Declares (fun _ => True) (processNamespace s n isExported) := by
  rw [processNamespace_eq]
  cases named : n.field? "name" with
  | none => exact noteUnknown_ensures s n _
  | some target =>
      dsimp only
      split
      next => exact noteUnknown_ensures s n _
      next plain =>
        apply Walk.Ensures.bind (read_ensures s target)
        intro text read
        have emitted : ∀ members, Walk.Ensures (GivenBy s n) scope.Declares (fun _ => True)
            (emitWith s n (namespaceDeclaration s n (Text.compact text) isExported members)) := by
          intro members
          apply emitWith_ensures
          exact fun dependencies => .under (.nameSpace form named plain read) rfl
        cases n.field? "body" with
        | none => exact .after (.pure trivial) emitted
        | some body => exact .after (processScope_ensures _ body) emitted

mutual

/-- Whatever a statement wraps, its declarations and marks are as described. The recursion is that of the walk: down
    to the statement inside an export or a `declare`. -/
theorem processStatement_ensures (s : Surroundings) (scope : Scope) (n : Node) (isExported isDefault : Bool) :
    Walk.Ensures (GivenBy s n) scope.Declares (fun _ => True)
      (processStatement s scope n isExported isDefault) := by
  rw [processStatement]
  split
  · apply Walk.Ensures.after
    · exact .bind (read_ensures s n) fun _ _ => .pure trivial
    · exact fun raw => .note _
  · split
    next =>
      split
      · exact .pure trivial
      · exact noteUnknown_ensures s n none
    next form known => exact .absorb _ (processForm_ensures s scope form n isExported isDefault known)
termination_by 4 * n.weight + 3

/-- Statements of each form give what their names tell. -/
theorem processForm_ensures (s : Surroundings) (scope : Scope) (form : StatementForm) (n : Node)
    (isExported isDefault : Bool) (known : StatementForm.ofKind? n.kind = some form) :
    Walk.Ensures (GivenBy s n) scope.Declares (fun _ => True)
      (processForm s scope form n isExported isDefault) := by
  rw [processForm_eq]
  cases form with
  | ambient =>
      dsimp only
      cases wraps : n.named.head? with
      | none => exact noteUnknown_ensures s n _
      | some inner =>
          have lighter := Node.weight_lt_of_mem_named (List.mem_of_head? wraps)
          dsimp only
          split
          · apply (processStatement_ensures s scope inner isExported isDefault).mono
            exact fun d given => given.wrapped fun _ => .ambient known wraps
          · exact noteUnknown_ensures s n _
  | expression =>
      dsimp only
      cases wraps : n.child? Node.namespaceKinds with
      | none => exact .pure trivial
      | some ns =>
          have form : StatementForm.ofKind? ns.kind = some .nameSpace :=
            StatementForm.ofKind?_eq_some_iff.2 (Node.kind_mem_of_child? wraps)
          apply (processNamespace_ensures s scope ns isExported form).mono
          exact fun d given => given.wrapped fun _ => .expression known wraps
  | exporting => exact processExport_ensures s scope n known
  | importing => exact processImport_ensures s n
  | function =>
      exact declare_givenBy s n isExported isDefault (functionOf_heads · isExported isDefault n)
        fun _ => .orDefault (by simp [known])
  | functionSignature => exact processFunctionSignature_ensures s scope n isExported isDefault known
  | classDecl =>
      exact declare_givenBy s n isExported isDefault (classOf_heads · isExported isDefault n)
        fun _ => .orDefault (by simp [known])
  | interfaceDecl =>
      exact declare_givenBy s n isExported isDefault (interfaceOf_heads · isExported isDefault n)
        fun _ => .named (by simp [known])
  | typeAlias =>
      exact declare_givenBy s n isExported isDefault (typeAliasOf_heads · isExported isDefault n)
        fun _ => .named (by simp [known])
  | enumDecl =>
      exact declare_givenBy s n isExported isDefault (enumOf_heads · isExported isDefault n)
        fun _ => .named (by simp [known])
  | bindings => exact declareVariables_givenBy s n isExported known
  | nameSpace => exact processNamespace_ensures s scope n isExported known
termination_by 4 * n.weight + 2

theorem processExport_ensures (s : Surroundings) (scope : Scope) (n : Node)
    (known : StatementForm.ofKind? n.kind = some .exporting) :
    Walk.Ensures (GivenBy s n) scope.Declares (fun _ => True) (processExport s scope n) := by
  rw [processExport_eq]
  cases wraps : n.field? "declaration" with
  | some inner =>
      have lighter := Node.weight_lt_of_field? wraps
      apply (processStatement_ensures s scope inner true (n.hasChild "default")).mono
      exact fun d given => given.wrapped fun _ => .exported known wraps
  | none =>
      dsimp only
      split
      · apply Walk.Ensures.bind (read_ensures s _)
        intro text _
        apply Walk.Ensures.after (.resolve _ _ _)
        exact fun r => processReExport_ensures s n (fun _ _ _ => .reExport rfl) r
      · split
        · exact processDefaultValue_ensures s scope n _
        · exact processExportClause_ensures s n (fun _ _ _ => .reExport rfl) scope _
        · exact noteUnknown_ensures s n _
termination_by 4 * n.weight + 1

end

end Outline
