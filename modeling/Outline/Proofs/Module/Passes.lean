/-
Module: Outline.Proofs.Module.Passes
Layer: Proofs
Purpose: One file walked over and over, each pass from the tables that the one before it left. The walk is steady:
  which specifiers it asks for and which names it binds does not depend on the tables, so that the tables stand still
  after the first pass, and everything given out stands still after the second. Where all imports come first, the
  first pass gives out what all others do.
Main exports: Answers.Around, Permits, Allows, processScope_steady, pass, ImportsFirst, passes_settle
-/
import Mathlib.Data.List.TakeWhile
import Outline.Proofs.Module.GivenOut
import Outline.Proofs.Module.Probing
import Outline.Proofs.Walk.Steady

namespace Outline

open Specifier (Resolved Resolver)

/-- The surroundings are those of the file that the answers are for. -/
structure Answers.Around (a : Answers) (s : Surroundings) : Prop where
  resolver : s.resolver = a.resolver
  path : s.path = a.file

theorem Answers.Around.enter {a : Answers} {s : Surroundings} (around : a.Around s) (name : String) :
    a.Around (s.enter name) :=
  ⟨around.resolver, around.path⟩

theorem Answers.Around.resolve_eq {a : Answers} {s : Surroundings} (around : a.Around s) (spec : String) :
    s.resolve spec = Walk.resolve a.resolver a.file spec := by
  rw [Surroundings.resolve, around.resolver, around.path]

/-- The steps that a walk over a tree takes are allowed: to ask for a specifier, and, if there is an import in the
    tree, to bind names. -/
structure Permits (allowed : LinkStep → Prop) (root : Node) : Prop where
  asking : ∀ spec, allowed ⟨spec, []⟩
  importing : ∀ n, root.Inside n → n.kind = "import_statement" → ∀ step, allowed step

/-!
### Statements without statements inside
-/

section Steps

variable {a : Answers} {allowed : LinkStep → Prop} {s : Surroundings}

theorem read_constant (n : Node) : Walk.Constant (s.source.textOf n) (s.read n) :=
  .reading fun _ => rfl

theorem readOrEmpty_constant (n : Option Node) :
    Walk.Constant (Reading.readOrEmpty s.source n).result (s.readOrEmpty n) :=
  .reading fun _ => rfl

/-- What is quoted of a node does not depend on the tables. -/
theorem excerpt_constant (n : Node) :
    Walk.Constant ((s.source.textOf n).map (Text.takeFirst 200)) (excerpt s n) :=
  (read_constant n).map _

/-- An unknown statement is noted in the same way in every pass. -/
theorem noteUnknown_steady (n : Node) (context : Option String) :
    Walk.Steady a allowed (noteUnknown s n context) :=
  .after (excerpt_constant n) fun _ _ => .note _

theorem noteUnknown_quiet (n : Node) (context : Option String) : Walk.Quiet a (noteUnknown s n context) :=
  .bind (.bind (.reading _) fun _ => .pure _) fun _ => .note _

/-- Giving out a declaration leaves the tables as they are. -/
theorem emitWith_quiet (span : Node) (d : Declaration) : Walk.Quiet a (emitWith s span d) :=
  .bind (.reading _) fun _ => .emit _

theorem declare_quiet (n : Node) (x : Site → Reading Declaration) : Walk.Quiet a (declare s n x) :=
  .bind (.reading _) fun d => emitWith_quiet n d

theorem declareVariables_quiet (n : Node) (isExported : Bool) : Walk.Quiet a (declareVariables s n isExported) :=
  .bind (.reading _) fun _ => .forEach fun d _ => emitWith_quiet n d

theorem emitReExport_quiet (n : Node) (exported passedOn : String) (r : Resolved) :
    Walk.Quiet a (emitReExport s n exported passedOn r) :=
  .bind (.reading _) fun _ => .emit _

theorem exportedNames_quiet (spec : Node) : Walk.Quiet a (exportedNames s spec) := by
  refine .bind (.reading _) fun name => ?_
  split
  · exact .bind (.reading _) fun _ => .pure _
  · exact .pure _

/-- So does a re-export, once its specifier is resolved. -/
theorem processReExport_quiet (n : Node) (r : Resolved) : Walk.Quiet a (processReExport s n r) := by
  unfold processReExport
  split
  · exact .forEach fun spec _ => .bind (exportedNames_quiet spec) fun _ => emitReExport_quiet n _ _ r
  · exact .bind (.reading _) fun _ => emitReExport_quiet n _ _ r
  · exact emitReExport_quiet n _ _ r

/-- An imported name that is passed on goes by a specifier that the table holds. -/
theorem exportItem_quiet (around : a.Around s) (scope : Scope) (n item : Node) :
    Walk.Quiet a (exportItem s scope n item) := by
  refine .bind (exportedNames_quiet item) fun names => ?_
  dsimp only
  split
  · exact .exportLater _
  · simp only [around.resolve_eq]
    exact .resolve_imported _ (noteUnknown_quiet item _) (fun x => rfl) fun x y => emitReExport_quiet n _ _ y

/-- An export clause asks only for modules that are imported already. -/
theorem processExportClause_quiet (around : a.Around s) (scope : Scope) (n clause : Node) :
    Walk.Quiet a (processExportClause s scope n clause) := by
  rw [processExportClause_eq]
  exact .forEach fun item _ => exportItem_quiet around scope n item

theorem processDefaultValue_quiet (scope : Scope) (n value : Node) :
    Walk.Quiet a (processDefaultValue s scope n value) := by
  unfold processDefaultValue
  split
  · exact declare_quiet value _
  · split
    · exact declare_quiet value _
    · split
      · refine .bind (.reading _) fun name => ?_
        split
        · exact .exportLater _
        · exact emitWith_quiet n _
      · exact emitWith_quiet n _

theorem processFunctionSignature_quiet (scope : Scope) (n : Node) (isExported isDefault : Bool) :
    Walk.Quiet a (processFunctionSignature s scope n isExported isDefault) := by
  refine .bind (.reading _) fun name => ?_
  split
  · exact .pure _
  · exact declare_quiet n _

/-- Binding a name changes the table of imports only. -/
theorem bindNode_binds (x : Resolved) (n : Option Node) : Walk.Binds x (bindNode s x n) :=
  .after (readOrEmpty_constant n) fun name _ => .bindName name

theorem bindPart_binds (x : Resolved) (part : Node) : Walk.Binds x (bindPart s x part) := by
  unfold bindPart
  split
  · exact bindNode_binds x _
  · split
    · exact bindNode_binds x _
    · split
      · exact .forEach fun spec _ => bindNode_binds x _
      · exact .pure

/-- An import asks for its specifier and binds its names up to the first that cannot be read. -/
theorem processImport_moves (around : a.Around s) (n : Node) (permits : ∀ step, allowed step) :
    Walk.Moves a allowed (processImport s n) := by
  have scanned : Walk.Constant (statementSpecifier s.source n)
      (s.reading fun _ => ⟨[], statementSpecifier s.source n⟩) :=
    .reading fun _ => rfl
  refine .after scanned fun found _ => ?_
  cases found with
  | none => exact (Walk.Quiet.pure ()).moves
  | some spec =>
      dsimp only
      rw [around.resolve_eq]
      refine Walk.Binds.moves_after_resolve (fun names => permits _) ?_
      split
      · exact bindNode_binds _ _
      · exact .forEach fun part _ => bindPart_binds _ part
      · exact .pure

end Steps

/-!
### The walk
-/

section Walks

variable {a : Answers} {allowed : LinkStep → Prop}

/-- The steps that a walk over a tree takes are allowed: to ask for a specifier, and what the imports in the tree do. -/
structure Allows (a : Answers) (allowed : LinkStep → Prop) (src : Source) (root : Node) : Prop where
  asking : ∀ spec, allowed ⟨spec, []⟩
  importing : ∀ n, root.Inside n → n.kind = "import_statement" → ∀ s : Surroundings, a.Around s → s.source = src →
    Walk.Moves a allowed (processImport s n)

/-- What is allowed of a node is allowed of its children. -/
theorem Allows.child {src : Source} {root c : Node} (allows : Allows a allowed src root) (child : c ∈ root.children) :
    Allows a allowed src c :=
  ⟨allows.asking, fun n inside => allows.importing n (.of_child child inside)⟩

/-- What is permitted of a tree is allowed whatever its texts are. -/
theorem Permits.allows {root : Node} (permits : Permits allowed root) (src : Source) : Allows a allowed src root :=
  ⟨permits.asking, fun n inside kind _ around _ => processImport_moves around n (permits.importing n inside kind)⟩

mutual

/-- A scope takes the steps of its statements, which do not depend on the tables. The recursion is that of the walk. -/
theorem processScope_steady_of_allows {s : Surroundings} (around : a.Around s) (body : Node)
    (allows : Allows a allowed s.source body) : Walk.Steady a allowed (processScope s body) := by
  rw [processScope_eq]
  have scanned : Walk.Constant (prescan s.source body) (s.reading fun _ => ⟨[], prescan s.source body⟩) :=
    .reading fun _ => rfl
  refine .after scanned fun scope _ => .within _ (.forEach fun n mem => ?_)
  have lighter := Node.weight_lt_of_mem_named mem
  exact processStatement_steady_of_allows around scope n false false (allows.child (Node.mem_children_of_mem_named mem))
termination_by 4 * body.weight

/-- A statement takes its steps up to where it fails, and its failure is absorbed. -/
theorem processStatement_steady_of_allows {s : Surroundings} (around : a.Around s) (scope : Scope) (n : Node)
    (isExported isDefault : Bool) (allows : Allows a allowed s.source n) :
    Walk.Steady a allowed (processStatement s scope n isExported isDefault) := by
  rw [processStatement]
  split
  · exact .after (excerpt_constant n) fun _ _ => .note _
  · split
    next =>
      split
      · exact .pure _
      · exact noteUnknown_steady n none
    next form known => exact .absorb _ (processForm_moves around scope form n isExported isDefault known allows)
termination_by 4 * n.weight + 3

/-- A statement of each form moves the tables only as it is allowed. -/
theorem processForm_moves {s : Surroundings} (around : a.Around s) (scope : Scope) (form : StatementForm) (n : Node)
    (isExported isDefault : Bool) (known : StatementForm.ofKind? n.kind = some form)
    (allows : Allows a allowed s.source n) :
    Walk.Moves a allowed (processForm s scope form n isExported isDefault) := by
  rw [processForm_eq]
  cases form with
  | importing =>
      have kind := List.mem_singleton.1 (StatementForm.ofKind?_eq_some_iff.1 known)
      exact allows.importing n .here kind s around rfl
  | exporting => exact processExport_moves around scope n allows
  | nameSpace => exact processNamespace_moves around n isExported allows
  | ambient =>
      dsimp only
      cases wraps : n.named.head? with
      | none => exact (noteUnknown_quiet n _).moves
      | some inner =>
          have among := List.mem_of_head? wraps
          have lighter := Node.weight_lt_of_mem_named among
          have below := allows.child (Node.mem_children_of_mem_named among)
          dsimp only
          split
          · exact (processStatement_steady_of_allows around scope inner isExported isDefault below).moves
          · exact (noteUnknown_quiet n _).moves
  | expression =>
      dsimp only
      cases wraps : n.child? Node.namespaceKinds with
      | none => exact (Walk.Quiet.pure ()).moves
      | some ns =>
          have lighter := Node.weight_lt_of_child? wraps
          exact processNamespace_moves around ns isExported (allows.child (Node.mem_children_of_child? wraps))
  | functionSignature => exact (processFunctionSignature_quiet scope n isExported isDefault).moves
  | bindings => exact (declareVariables_quiet n isExported).moves
  | _ => exact (declare_quiet n _).moves
termination_by 4 * n.weight + 2

/-- An export moves the tables only as it is allowed. -/
theorem processExport_moves {s : Surroundings} (around : a.Around s) (scope : Scope) (n : Node)
    (allows : Allows a allowed s.source n) : Walk.Moves a allowed (processExport s scope n) := by
  rw [processExport_eq]
  cases wraps : n.field? "declaration" with
  | some declaration =>
      have lighter := Node.weight_lt_of_field? wraps
      have below := allows.child (Node.mem_children_of_field? wraps)
      exact (processStatement_steady_of_allows around scope declaration true _ below).moves
  | none =>
      dsimp only
      split
      · refine .after (read_constant _) fun text _ => ?_
        rw [around.resolve_eq]
        exact (Walk.Moves.resolve (allows.asking _)).bind_quiet fun r => processReExport_quiet n r
      · split
        · exact (processDefaultValue_quiet scope n _).moves
        · exact (processExportClause_quiet around scope n _).moves
        · exact (noteUnknown_quiet n _).moves
termination_by 4 * n.weight + 1

/-- A namespace moves the tables only as its members are allowed to. -/
theorem processNamespace_moves {s : Surroundings} (around : a.Around s) (n : Node) (isExported : Bool)
    (allows : Allows a allowed s.source n) : Walk.Moves a allowed (processNamespace s n isExported) := by
  rw [processNamespace_eq]
  cases named : n.field? "name" with
  | none => exact (noteUnknown_quiet n _).moves
  | some nameNode =>
      dsimp only
      split
      · exact (noteUnknown_quiet n _).moves
      · refine .after (read_constant nameNode) fun name _ => ?_
        cases holds : n.field? "body" with
        | none => exact (Walk.Quiet.bind (.pure []) fun members => emitWith_quiet n _).moves
        | some body =>
            have lighter := Node.weight_lt_of_field? holds
            have below := allows.child (Node.mem_children_of_field? holds)
            exact (processScope_steady_of_allows (around.enter _) body below).moves.bind_quiet fun members =>
              emitWith_quiet n _
termination_by 4 * n.weight + 1

end

/-- In particular, a scope takes its steps if imports may bind whatever they like. -/
theorem processScope_steady {s : Surroundings} (around : a.Around s) (body : Node) (permits : Permits allowed body) :
    Walk.Steady a allowed (processScope s body) :=
  processScope_steady_of_allows around body (permits.allows s.source)

/-- A statement gives the same in every pass if nothing in it asks for what a later one binds. -/
theorem processStatement_steady {s : Surroundings} (around : a.Around s) (scope : Scope) (n : Node)
    (isExported isDefault : Bool) (permits : Permits allowed n) :
    Walk.Steady a allowed (processStatement s scope n isExported isDefault) :=
  processStatement_steady_of_allows around scope n isExported isDefault (permits.allows s.source)

end Walks

/-!
### Statements after the imports
-/

/-- Two walks from tables that give the same answers and have the same names imported. -/
def Comparison.sameImports (a : Answers) : Comparison a.resolver a.resolver where
  toLikeness := .exact a.file
  qualifier := (· = ·)
  entered _ := True
  links l l' := l.imports = l'.imports ∧ a.Fits l.resolved ∧ a.Fits l'.resolved
  resolved := (· = ·)
  specifier := (· = ·)
  specifier_refl _ := rfl
  name_qualifiedBy := qualifiedBy_congr
  qualifier_enter := qualifiedBy_enter
  dependencies_find := by
    rintro l l' code ⟨same, _, _⟩
    rw [same]
    exact Likeness.exact_dependencies _ _
  dependencies_reExport := by
    rintro x _ n rfl
    exact Likeness.exact_dependencies _ _
  origin_source := by
    rintro x _ rfl
    exact Likeness.exact_origin _ _
  imported := by
    rintro l l' n ⟨same, _, _⟩
    rw [same]
    cases Entries.get? l'.imports n with
    | none => exact .none
    | some b => exact .some rfl
  links_bind := by
    rintro l l' x _ n ⟨same, fits, fits'⟩ rfl
    exact ⟨congrArg (Entries.put · n x) same, fits, fits'⟩
  resolve := by
    rintro spec _ rfl l l' ⟨same, fits, fits'⟩
    show Outcome.Agrees _ _ _ (Walk.resolve a.resolver a.file spec l) (Walk.resolve a.resolver a.file spec l')
    rw [fits.resolve, fits'.resolve]
    exact ⟨⟨same, fits.apply _, fits'.apply _⟩, .nil, rfl, rfl, .ok rfl⟩

/-- Statements walked from such tables give out the same. -/
theorem forEach_sameImports {a : Answers} {s : Surroundings} (around : a.Around s) (scope : Scope) (ns : List Node)
    {l l' : Links} (same : l.imports = l'.imports) (fits : a.Fits l.resolved) (fits' : a.Fits l'.resolved) :
    (Walk.forEach (fun n => processStatement s scope n false false) ns l).given =
      (Walk.forEach (fun n => processStatement s scope n false false) ns l').given := by
  obtain ⟨source, path, resolver, qualifier⟩ := s
  obtain ⟨rfl, rfl⟩ := around
  have alike : Surroundings.Alike (.sameImports a) ⟨source, a.file, a.resolver, qualifier⟩
      ⟨source, a.file, a.resolver, qualifier⟩ :=
    .intro source rfl
  have agree := Walk.Agrees.forEach_mem ns fun n _ =>
    alike.processStatement scope n false false (Source.namespaceNames_of_forall fun _ => trivial)
  obtain ⟨_, declarations, exports, _, result⟩ := agree l l' ⟨same, fits, fits'⟩
  have sameDeclarations := List.forall₂_eq_eq_eq ▸ declarations.imp fun _ _ => Declaration.Alike.eq
  simp only [Outcome.given, sameDeclarations, exports, result.eq]

/-- An import gives out nothing. -/
theorem processStatement_of_import {s : Surroundings} {scope : Scope} {n : Node} (kind : n.kind = "import_statement") :
    Walk.Ensures (fun _ => False) (fun _ => False) (fun _ => True) (processStatement s scope n false false) := by
  have form : StatementForm.ofKind? n.kind = some .importing := by
    rw [kind]
    rfl
  rw [processStatement, form]
  split
  · exact .after (.after (reading_ensures s fun _ _ _ => trivial) fun _ => .pure trivial) fun _ => .note _
  · dsimp only
    rw [processForm_eq]
    exact .absorb _ (processImport_ensures s n)

/-!
### Passes
-/

/-- What a pass over a file leaves behind. The first pass starts with a table of specifiers, and each other one with
    the tables that the one before it left. -/
def pass (r : Resolver) (src : Source) (path : String) (root : Node) (table : Entries Resolved) :
    Nat → Outcome (List Declaration)
  | 0 => outlineTree r src path root { resolved := table }
  | n + 1 => outlineTree r src path root (pass r src path root table n).links

/-- Imports stand at the top level only, before all other statements. -/
structure ImportsFirst (root : Node) : Prop where
  top : ∀ c ∈ root.children, ∀ g ∈ c.children, ∀ n, g.Inside n → n.kind ≠ "import_statement"
  first : root.named.Pairwise fun before after => after.kind = "import_statement" → before.kind = "import_statement"

section ImportsFirst

variable {a : Answers} {s : Surroundings} {root : Node}

/-- The statements up to the first that is no import are imports, and those from there on are none. -/
theorem ImportsFirst.split (imports : ImportsFirst root) : ∃ front rest, root.named = front ++ rest ∧
    (∀ n ∈ front, n.kind = "import_statement") ∧ ∀ n ∈ rest, n.kind ≠ "import_statement" := by
  have first := imports.first
  refine ⟨root.named.takeWhile (·.kind == "import_statement"), root.named.dropWhile (·.kind == "import_statement"),
    List.takeWhile_append_dropWhile.symm, fun n mem => by simpa using List.mem_takeWhile_imp mem, ?_⟩
  generalize root.named = ns at first
  induction ns with
  | nil => simp
  | cons n ns ih =>
      obtain ⟨before, first⟩ := List.pairwise_cons.1 first
      by_cases kind : n.kind = "import_statement"
      · simpa [kind] using ih first
      · simp only [List.dropWhile_cons, beq_iff_eq, kind, if_false, List.forall_mem_cons]
        exact ⟨kind, fun m mem importing => kind (before m mem importing)⟩

/-- No names are bound by what comes after the imports. -/
theorem ImportsFirst.permits (imports : ImportsFirst root) {n : Node} (among : n ∈ root.named)
    (kind : n.kind ≠ "import_statement") : Permits (·.names = []) n := by
  refine ⟨fun _ => rfl, fun m inside importing => ?_⟩
  rcases inside.eq_or_child with rfl | ⟨g, grandchild, inside⟩
  · exact absurd importing kind
  · exact absurd importing (imports.top n (Node.mem_children_of_mem_named among) g grandchild m inside)

/-- The imports bind again what they bound before, so that the statements after them meet the same names in the next
    pass. -/
theorem ImportsFirst.result_again (imports : ImportsFirst root) (around : a.Around s) {l : Links} (sound : a.Sound l) :
    (processScope s root (processScope s root l).links).result = (processScope s root l).result := by
  obtain ⟨front, rest, split, importing, others⟩ := imports.split
  rw [processScope_eq, split]
  cases scanned : prescan s.source root with
  | error e => simp only [Bind.bind, Walk.bind, Surroundings.reading, Walk.reading]
  | ok scope =>
      have anything : ∀ n, Permits (fun _ => True) n := fun n => ⟨fun _ => trivial, fun _ _ _ _ => trivial⟩
      have given := Walk.Steady.given_again
        (.forEach fun n _ => processStatement_steady around scope n false false (anything n))
        (.forEach fun n mem => processStatement_of_import (importing n mem))
        (.forEach fun n mem => processStatement_steady around scope n false false
          (imports.permits (split ▸ List.mem_append_right front mem) (others n mem)))
        (fun l l' same fits fits' => forEach_sameImports around scope rest same fits fits') sound
      rw [← Walk.forEach_append] at given
      obtain ⟨declarations, exports, result⟩ := by simpa only [Outcome.given, Prod.mk.injEq] using given
      simp only [Bind.bind, Walk.bind, Surroundings.reading, Walk.reading, Walk.within, declarations, exports, result]

end ImportsFirst

/-- Passes over a file settle. Each entry of the first table being stored under its own specifier: one pass succeeds if
    any other does; the tables, in their order, are the same after every pass; the second pass and all after it end
    with the same declarations; and so does the first, if imports come first. -/
theorem passes_settle (r : Resolver) (src : Source) (path : String) (root : Node) (table : Entries Resolved)
    (own : ∀ spec x, Entries.get? table spec = some x → x.specifier = spec) :
    (∀ n m, (pass r src path root table n).result.isOk → (pass r src path root table m).result.isOk) ∧
      (∀ n, (pass r src path root table n).links = (pass r src path root table 0).links) ∧
      (∀ n, (pass r src path root table (n + 1)).result = (pass r src path root table 1).result) ∧
      (ImportsFirst root → (pass r src path root table 0).result = (pass r src path root table 1).result) := by
  obtain ⟨a, rfl, rfl, rfl⟩ : ∃ a : Answers, a.resolver = r ∧ a.file = path ∧ a.table = table :=
    ⟨⟨r, path, table, own⟩, rfl, rfl, rfl⟩
  have around : a.Around { source := src, path := a.file, resolver := a.resolver } := ⟨rfl, rfl⟩
  have start := a.sound_start
  have walk : Walk.Steady a (fun _ => True) (outlineTree a.resolver src a.file root) :=
    processScope_steady around root ⟨fun _ => trivial, fun _ _ _ _ => trivial⟩
  obtain ⟨steps, _, ending, each⟩ := walk
  have links : ∀ n, (pass a.resolver src a.file root a.table n).links =
      LinkStep.applyAll a.look { resolved := a.table } steps := by
    intro n
    induction n with
    | zero => exact (each _ start).1
    | succ n ih => rw [pass, ih, (each _ (start.applyAll steps)).1, LinkStep.applyAll_twice]
  have ended : ∀ n, (pass a.resolver src a.file root a.table n).ending = ending := by
    intro n
    cases n with
    | zero => exact (each _ start).2
    | succ n =>
        rw [pass, links]
        exact (each _ (start.applyAll steps)).2
  have isOk : ∀ n, (pass a.resolver src a.file root a.table n).result.isOk = ending.isOk := by
    intro n
    rw [← ended n, Outcome.ending]
    cases (pass a.resolver src a.file root a.table n).result <;> rfl
  refine ⟨fun n m succeeded => ?_, fun n => (links n).trans (links 0).symm, fun n => ?_, fun imports => ?_⟩
  · rwa [isOk] at succeeded ⊢
  · rw [pass, pass, links n, links 0]
  · exact (imports.result_again around start).symm

instance (root : Node) : Decidable (ImportsFirst root) :=
  decidable_of_iff
    ((∀ c ∈ root.children, ∀ g ∈ c.children, ∀ n ∈ g.nodes, n.kind ≠ "import_statement") ∧
      root.named.Pairwise fun before after => after.kind = "import_statement" → before.kind = "import_statement") <| by
    simp only [← Node.inside_iff_mem_nodes]
    exact ⟨fun ⟨top, first⟩ => ⟨top, first⟩, fun ⟨top, first⟩ => ⟨top, first⟩⟩

/-- A file that exports a name before it imports it. -/
def lateSource : Source := ⟨"export{A};import{A}from'./m'"⟩

/-- The tree of `lateSource`. -/
def lateTree : Node :=
  .construct "program" none 0 28
    [.construct "export_statement" none 0 10
      [.construct "export_clause" none 6 9
        [.construct "export_specifier" none 7 8 [.construct "identifier" (some "name") 7 8 []]]],
     .construct "import_statement" none 10 28
      [.construct "import_clause" none 16 19
        [.construct "named_imports" none 16 19
          [.construct "import_specifier" none 17 18 [.construct "identifier" (some "name") 17 18 []]]],
       .construct "string" (some "source") 23 28 []]]

/-- Passed on from the second pass on where it is imported late, and from the first where it is imported first. -/
theorem passes_settle_late :
    ((pass {} lateSource "a.ts" lateTree [] 0).result.toOption.map (·.map (·.head.name)) = some [] ∧
      (pass {} lateSource "a.ts" lateTree [] 1).result.toOption.map (·.map (·.head.name)) = some ["A"]) ∧
    (∀ n, (pass {} lateSource "a.ts" lateTree [] n).links = (pass {} lateSource "a.ts" lateTree [] 0).links) ∧
    (∀ n, (pass {} lateSource "a.ts" lateTree [] (n + 1)).result = (pass {} lateSource "a.ts" lateTree [] 1).result) ∧
    (pass {} passedOnSource "a.ts" passedOnTree [] 0).result =
      (pass {} passedOnSource "a.ts" passedOnTree [] 1).result :=
  have late := passes_settle {} lateSource "a.ts" lateTree [] (by simp [Entries.get?])
  have early := passes_settle {} passedOnSource "a.ts" passedOnTree [] (by simp [Entries.get?])
  ⟨by decide +kernel, late.2.1, late.2.2.1, early.2.2.2 (by decide +kernel)⟩

end Outline
