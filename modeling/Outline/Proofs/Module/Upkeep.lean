/-
Module: Outline.Proofs.Module.Upkeep
Layer: Proofs
Purpose: One walk over the statements of a file, held to a standard. An `Upkeep` is a standard together with the few
  facts that keep it up: what resolving a specifier and binding a name do to the tables, and that the declarations
  made by the walk meet it. Whatever the tree looks like, the walk then meets the standard. The specifiers that it
  asks for are those that its statements mention, and no others; they are given by a relation on the tree alone.
Main exports: Mentions, Upkeep, Upkeep.processScope_meets, Upkeep.processStatement_keeps
-/
import Outline.Proofs.Declaration.Proper
import Outline.Proofs.Module.Equations
import Outline.Proofs.Tree.Inside
import Outline.Proofs.Walk.Standard

namespace Outline

open Specifier (Resolved Resolver)

/-- The walk over a statement may ask for a specifier: an import and an export from elsewhere for their own, a
    wrapper for those of what it wraps, a namespace for those of the statements in it. -/
inductive Mentions (src : Source) : Node → String → Prop where
  | importing {n : Node} {spec : String} (form : StatementForm.ofKind? n.kind = some .importing)
      (found : statementSpecifier src n = .ok (some spec)) : Mentions src n spec
  | source {n source : Node} {text : String} (form : StatementForm.ofKind? n.kind = some .exporting)
      (bare : n.field? "declaration" = none) (holds : n.field? "source" = some source)
      (read : src.textOf source = .ok text) : Mentions src n (stripQuotes text)
  | exported {n inner : Node} {spec : String} (form : StatementForm.ofKind? n.kind = some .exporting)
      (wraps : n.field? "declaration" = some inner) (mentions : Mentions src inner spec) : Mentions src n spec
  | ambient {n inner : Node} {spec : String} (form : StatementForm.ofKind? n.kind = some .ambient)
      (wraps : n.named.head? = some inner) (mentions : Mentions src inner spec) : Mentions src n spec
  | expression {n ns : Node} {spec : String} (form : StatementForm.ofKind? n.kind = some .expression)
      (wraps : n.child? Node.namespaceKinds = some ns) (mentions : Mentions src ns spec) : Mentions src n spec
  | nameSpace {n body statement : Node} {spec : String} (form : StatementForm.ofKind? n.kind = some .nameSpace)
      (holds : n.field? "body" = some body) (among : statement ∈ body.named)
      (mentions : Mentions src statement spec) : Mentions src n spec

/-- A standard, and what keeps it up in a walk over the file at `path` with the resolver `r`. -/
structure Upkeep (r : Resolver) (path : String) extends Standard where
  /-- Specifiers that may be asked for. -/
  asked : String → Prop
  /-- What they may be resolved to. -/
  resolution : Resolved → Prop
  resolve {spec : String} : asked spec → Walk.Meets toStandard (fun _ x => resolution x) (Walk.resolve r path spec)
  links_bind {l : Links} {x : Resolved} (name : String) : links l → resolution x →
    links { l with imports := Entries.put l.imports name x }
  /-- The specifiers of imported names may be asked for. -/
  imported {l : Links} {name : String} {b : Resolved} : links l → Entries.get? l.imports name = some b →
    asked b.specifier
  /-- A declaration of this file, once it has its dependencies. -/
  own {l : Links} {d : Declaration} (code : String) : links l → d.Proper path →
    (∀ m ∈ d.members, declaration l m) →
    declaration l (d.mapHead fun h => { h with dependencies := findDependencies l.imports code })
  reExport {l : Links} {x : Resolved} (name passedOn signature : String) (position : Position) : links l →
    resolution x → declaration l (.reExport {
      name
      isExported := true
      position
      uri := declarationUri path name
      signature
      dependencies := [reExportDependency x passedOn] } x.source)
  /-- Marks for export do no harm. -/
  marked {l : Links} {d : Declaration} (qualify : String → String) (es : List LocalExport) : declaration l d →
    declaration l (applyExportsTo qualify es d)

namespace Upkeep

variable {α : Type} {s : Surroundings} (k : Upkeep s.resolver s.path)

/-- The walk keeps to the standard, whatever its value. -/
abbrev Keeps {r : Resolver} {path : String} (k : Upkeep r path) (x : Walk α) : Prop :=
  Walk.Meets k.toStandard (fun _ _ => True) x

/-!
### Steps
-/

/-- What is read in the walk meets what it meets at each site. -/
theorem reading_meets {R : Links → α → Prop} {x : Site → Reading α}
    (value : ∀ l, k.links l → (x (s.site l.imports)).Ensures (R l)) :
    Walk.Meets k.toStandard R (s.reading x) :=
  .reading value

theorem reading_keeps (x : Site → Reading α) : k.Keeps (s.reading x) :=
  k.reading_meets fun _ _ _ _ => trivial

theorem read_meets (n : Node) :
    Walk.Meets k.toStandard (fun _ text => s.source.textOf n = .ok text) (s.read n) :=
  k.reading_meets fun _ _ => .read s.source n

theorem excerpt_keeps (n : Node) : k.Keeps (excerpt s n) :=
  .after (k.reading_keeps _) fun _ => .pure fun _ => trivial

theorem noteUnknown_keeps (n : Node) (context : Option String) : k.Keeps (noteUnknown s n context) :=
  .after (k.excerpt_keeps n) fun _ => .note _

/-- The dependencies given to a declaration are those of the tables at the time. -/
theorem emitWith_meets {l : Links} {d : Declaration} (links : k.links l) (proper : d.Proper s.path)
    (members : ∀ m ∈ d.members, k.declaration l m) (span : Node) :
    (emitWith s span d l).Meets k.toStandard (fun _ _ => True) l := by
  have found : Walk.Meets k.toStandard (fun l found => ∃ code, found = findDependencies l.imports code)
      (s.reading (·.dependencies span)) :=
    k.reading_meets fun l _ => .after _ fun code => .pure ⟨code, rfl⟩
  apply Walk.Meets.bind_at (found l links)
  rintro _ l' links grown ⟨code, rfl⟩
  exact Walk.Meets.emit links (k.own code links proper fun m mem => k.lasting grown (members m mem))

/-- A statement whose declarations are read for the path of the file keeps what is kept up. -/
theorem declare_keeps (n : Node) {x : Site → Reading Declaration}
    (read : ∀ imports, (x (s.site imports)).Ensures (Declaration.Read s.path)) : k.Keeps (declare s n x) := by
  apply Walk.Meets.bind (k.reading_meets fun l _ => read l.imports)
  intro d l links read
  apply k.emitWith_meets links read.toProper
  simp [read.noMembers]

theorem declareVariables_keeps (n : Node) (isExported : Bool) : k.Keeps (declareVariables s n isExported) := by
  apply Walk.Meets.bind (k.reading_meets fun l _ => variablesOf_read (s.site l.imports) n)
  intro ds l links read
  refine Walk.Meets.forEach (fun d mem l links => ?_) l links
  apply k.emitWith_meets links (read d mem).toProper
  simp [(read d mem).noMembers]

/-- Binding a name to a module that is as asked keeps what is kept up. -/
theorem bindName_keeps {x : Resolved} (resolution : k.resolution x) (name : String) :
    k.Keeps (Walk.bindName name x) := by
  intro l links
  unfold Walk.bindName
  split
  · exact ⟨links, .refl l, by simp, fun _ _ => trivial⟩
  · exact ⟨k.links_bind name links resolution, .put l name x, by simp, fun _ _ => trivial⟩

theorem bindNode_keeps {x : Resolved} (resolution : k.resolution x) (n : Option Node) :
    k.Keeps (bindNode s x n) :=
  .after (k.reading_keeps _) fun name => k.bindName_keeps resolution name

theorem bindPart_keeps {x : Resolved} (resolution : k.resolution x) (part : Node) :
    k.Keeps (bindPart s x part) := by
  unfold bindPart
  split
  · exact k.bindNode_keeps resolution _
  · split
    · exact k.bindNode_keeps resolution _
    · split
      · exact .forEach fun spec _ => k.bindNode_keeps resolution _
      · exact .pure fun _ => trivial

/-- An import whose specifier is asked for keeps what is kept up. -/
theorem processImport_keeps (n : Node)
    (asked : ∀ spec, statementSpecifier s.source n = .ok (some spec) → k.asked spec) :
    k.Keeps (processImport s n) := by
  have scanned : Walk.Meets k.toStandard (fun _ found => statementSpecifier s.source n = .ok found)
      (s.reading fun _ => ⟨[], statementSpecifier s.source n⟩) :=
    k.reading_meets fun _ _ _ ended => ended
  unfold processImport
  apply scanned.seq
  intro found read
  cases found with
  | none => exact .pure fun _ => trivial
  | some spec =>
      apply Walk.Meets.seq (k.resolve (asked spec read))
      intro x resolution
      split
      · exact k.bindNode_keeps resolution _
      · exact .forEach fun part _ => k.bindPart_keeps resolution part
      · exact .pure fun _ => trivial

/-- Passing on a name from a module that is as asked keeps what is kept up. -/
theorem emitReExport_keeps (n : Node) (exported passedOn : String) {x : Resolved} (resolution : k.resolution x) :
    k.Keeps (emitReExport s n exported passedOn x) :=
  .after (k.reading_keeps _) fun _ _ links => Walk.Meets.emit links (k.reExport _ _ _ _ links resolution)

theorem exportedNames_keeps (spec : Node) : k.Keeps (exportedNames s spec) := by
  apply Walk.Meets.after (k.reading_keeps _)
  intro name
  split
  · exact .after (k.reading_keeps _) fun _ => .pure fun _ => trivial
  · exact .pure fun _ => trivial

theorem processReExport_keeps (n : Node) {x : Resolved} (resolution : k.resolution x) :
    k.Keeps (processReExport s n x) := by
  unfold processReExport
  split
  · apply Walk.Meets.forEach
    intro spec _
    exact .after (k.exportedNames_keeps spec) fun names => k.emitReExport_keeps n _ _ resolution
  · exact .after (k.reading_keeps _) fun name => k.emitReExport_keeps n _ _ resolution
  · exact k.emitReExport_keeps n _ _ resolution

/-- What is asked for here is the specifier of a name imported before. -/
theorem processExportClause_keeps (scope : Scope) (n clause : Node) :
    k.Keeps (processExportClause s scope n clause) := by
  apply Walk.Meets.forEach
  intro spec _
  apply Walk.Meets.after (k.exportedNames_keeps spec)
  intro names
  dsimp only
  split
  · exact .exportLater _
  · apply Walk.Meets.bind (.imported? _)
    intro binding l links bound
    cases binding with
    | none => exact k.noteUnknown_keeps spec _ l links
    | some binding =>
        have passedOn := k.resolve (k.imported links bound)
        exact passedOn.seq (fun x resolution => k.emitReExport_keeps n _ _ resolution) l links

theorem defaultValue_proper (n : Node) : (defaultValue s n).Proper s.path :=
  ⟨rfl, fun _ => rfl, rfl, by simp [defaultValue, Declaration.memberUris]⟩

theorem processDefaultValue_keeps (scope : Scope) (n value : Node) :
    k.Keeps (processDefaultValue s scope n value) := by
  have mere : k.Keeps (emitWith s n (defaultValue s n)) := fun l links =>
    k.emitWith_meets links (defaultValue_proper n) (by simp [defaultValue, Declaration.members]) n
  unfold processDefaultValue
  split
  · exact k.declare_keeps value fun imports => functionOf_read _ value fun _ => rfl
  · split
    · exact k.declare_keeps value fun imports => classOf_read _ value fun _ => rfl
    · split
      · apply Walk.Meets.after (k.reading_keeps _)
        intro name
        split
        · exact .exportLater _
        · exact mere
      · exact mere

theorem processFunctionSignature_keeps (scope : Scope) (n : Node) {isExported isDefault : Bool}
    (flags : isDefault → isExported) : k.Keeps (processFunctionSignature s scope n isExported isDefault) := by
  apply Walk.Meets.after (k.reading_keeps _)
  intro name
  split
  · exact .pure fun _ => trivial
  · exact k.declare_keeps n fun imports => functionOf_read _ n flags

/-!
### The walk
-/

mutual

/-- The declarations of a scope meet the standard. The recursion is that of the walk: down to the statements inside a
    wrapper or a namespace, each with the specifiers that it mentions. -/
theorem processScope_meets {s : Surroundings} (k : Upkeep s.resolver s.path) (body : Node)
    (asked : ∀ n ∈ body.named, ∀ spec, Mentions s.source n spec → k.asked spec) :
    Walk.Meets k.toStandard (fun l ds => ∀ d ∈ ds, k.declaration l d) (processScope s body) := by
  rw [processScope_eq]
  apply Walk.Meets.after (k.reading_keeps _)
  intro scope
  apply Walk.Meets.within
  · apply Walk.Meets.forEach
    intro n mem
    have lighter := Node.weight_lt_of_mem_named mem
    exact processStatement_keeps k scope n (fun impossible => by cases impossible) (asked n mem)
  · intro l es ds each d mem
    obtain ⟨d, among, rfl⟩ := List.mem_map.1 mem
    exact k.marked s.qualify es (each d among)
termination_by 4 * body.weight

/-- A statement that mentions only specifiers that are asked for keeps what is kept up. -/
theorem processStatement_keeps {s : Surroundings} (k : Upkeep s.resolver s.path) (scope : Scope) (n : Node)
    {isExported isDefault : Bool} (flags : isDefault → isExported)
    (asked : ∀ spec, Mentions s.source n spec → k.asked spec) :
    k.Keeps (processStatement s scope n isExported isDefault) := by
  rw [processStatement]
  split
  · exact .after (k.excerpt_keeps n) fun raw => .note _
  · split
    next =>
      split
      · exact .pure fun _ => trivial
      · exact k.noteUnknown_keeps n none
    next form known => exact .absorb _ (processForm_keeps k scope form n flags known asked)
termination_by 4 * n.weight + 3

theorem processForm_keeps {s : Surroundings} (k : Upkeep s.resolver s.path) (scope : Scope) (form : StatementForm)
    (n : Node) {isExported isDefault : Bool} (flags : isDefault → isExported)
    (known : StatementForm.ofKind? n.kind = some form) (asked : ∀ spec, Mentions s.source n spec → k.asked spec) :
    k.Keeps (processForm s scope form n isExported isDefault) := by
  rw [processForm_eq]
  cases form with
  | ambient =>
      dsimp only
      cases wraps : n.named.head? with
      | none => exact k.noteUnknown_keeps n _
      | some inner =>
          have lighter := Node.weight_lt_of_mem_named (List.mem_of_head? wraps)
          dsimp only
          split
          · exact processStatement_keeps k scope inner flags fun spec mentions => asked spec (.ambient known wraps mentions)
          · exact k.noteUnknown_keeps n _
  | expression =>
      dsimp only
      cases wraps : n.child? Node.namespaceKinds with
      | none => exact .pure fun _ => trivial
      | some ns =>
          have lighter := Node.weight_lt_of_child? wraps
          have form : StatementForm.ofKind? ns.kind = some .nameSpace :=
            StatementForm.ofKind?_eq_some_iff.2 (Node.kind_mem_of_child? wraps)
          exact processNamespace_keeps k ns isExported form fun spec mentions =>
            asked spec (.expression known wraps mentions)
  | exporting => exact processExport_keeps k scope n known asked
  | nameSpace => exact processNamespace_keeps k n isExported known asked
  | importing => exact k.processImport_keeps n fun spec found => asked spec (.importing known found)
  | function => exact k.declare_keeps n fun imports => functionOf_read _ n flags
  | functionSignature => exact k.processFunctionSignature_keeps scope n flags
  | classDecl => exact k.declare_keeps n fun imports => classOf_read _ n flags
  | interfaceDecl => exact k.declare_keeps n fun imports => interfaceOf_read _ n flags
  | typeAlias => exact k.declare_keeps n fun imports => typeAliasOf_read _ n flags
  | enumDecl => exact k.declare_keeps n fun imports => enumOf_read _ n flags
  | bindings => exact k.declareVariables_keeps n isExported
termination_by 4 * n.weight + 2

theorem processExport_keeps {s : Surroundings} (k : Upkeep s.resolver s.path) (scope : Scope) (n : Node)
    (known : StatementForm.ofKind? n.kind = some .exporting)
    (asked : ∀ spec, Mentions s.source n spec → k.asked spec) : k.Keeps (processExport s scope n) := by
  rw [processExport_eq]
  cases wraps : n.field? "declaration" with
  | some declaration =>
      have lighter := Node.weight_lt_of_field? wraps
      -- What is exported by default is exported.
      exact processStatement_keeps k scope declaration (fun _ => rfl) fun spec mentions =>
        asked spec (.exported known wraps mentions)
  | none =>
      dsimp only
      cases holds : n.field? "source" with
      | some source =>
          apply (k.read_meets source).seq
          intro text read
          have mentioned := asked _ (.source known wraps holds read)
          exact .seq (k.resolve mentioned) fun x resolution => k.processReExport_keeps n resolution
      | none =>
          dsimp only
          split
          · exact k.processDefaultValue_keeps scope n _
          · exact k.processExportClause_keeps scope n _
          · exact k.noteUnknown_keeps n _
termination_by 4 * n.weight + 1

theorem processNamespace_keeps {s : Surroundings} (k : Upkeep s.resolver s.path) (n : Node) (isExported : Bool)
    (known : StatementForm.ofKind? n.kind = some .nameSpace)
    (asked : ∀ spec, Mentions s.source n spec → k.asked spec) : k.Keeps (processNamespace s n isExported) := by
  rw [processNamespace_eq]
  cases n.field? "name" with
  | none => exact k.noteUnknown_keeps n _
  | some nameNode =>
      dsimp only
      split
      next => exact k.noteUnknown_keeps n _
      next =>
        apply Walk.Meets.after (k.reading_keeps _)
        intro text
        have emitted : ∀ ds l, k.links l → (∀ d ∈ ds, k.declaration l d) →
            (emitWith s n (namespaceDeclaration s n (Text.compact text) isExported ds) l).Meets k.toStandard
              (fun _ _ => True) l := by
          intro ds l links members
          have proper : (namespaceDeclaration s n (Text.compact text) isExported ds).Proper s.path :=
            ⟨rfl, nofun, rfl, by simp [namespaceDeclaration, Declaration.memberUris]⟩
          exact k.emitWith_meets links proper members n
        cases holds : n.field? "body" with
        | none => exact .bind (.pure fun l d mem => absurd mem List.not_mem_nil) emitted
        | some body =>
            have lighter := Node.weight_lt_of_field? holds
            have inside := processScope_meets (s := s.enter (Text.compact text)) k body
              fun statement among spec mentions => asked spec (.nameSpace known holds among mentions)
            exact .bind inside emitted
termination_by 4 * n.weight + 1

end

end Upkeep

end Outline
