/-
Module: Outline.Proofs.Module.Containment
Layer: Proofs
Purpose: What contains a declaration depends on all that the declaration depends on. Members and owners are scanned
  separately, a member of a class over a part of the text of the class, with the same imports, and a member of a
  namespace over a part of the text of the namespace, with imports of an earlier time, some of which may have been
  bound anew since. The walk over a statement is held to a standard that is about the text of the statement; what is
  given out by a statement inside another one meets the standard of the outer one as well.
Main exports: Declaration.Contained, Source.WellCut, Enclosed, Standard.enclosed, processScope_encloses,
  contained_of_extract
-/
import Outline.Proofs.Declaration.Drawing
import Outline.Proofs.Dependency.Words
import Outline.Proofs.Module.Envelope
import Outline.Proofs.Module.GivenOut

namespace Outline

open Specifier (Aliases Probe Resolved Resolver SearchOptions)

/-- The members of a class depend on nothing that the class does not depend on, module by module; what is declared in
    a namespace, at any depth, uses no imported name that the namespace does not use. -/
structure Declaration.Contained (d : Declaration) : Prop where
  classMembers : ∀ deps ∈ d.memberDependencies, Covers d.head.dependencies deps
  members : ∀ m ∈ flatten d.members, m.reExportSource? = none →
    nameSet m.head.dependencies ⊆ nameSet d.head.dependencies

/-- Nothing is declared inside a re-export. -/
theorem Declaration.members_of_reExport {d : Declaration} (source : d.reExportSource? ≠ none) : d.members = [] := by
  cases d with
  | namespaceDecl => exact absurd rfl source
  | _ => rfl

/-!
### Texts inside texts
-/

namespace Source

/-- Spans are well nested and can be read, and none cuts a word. -/
structure WellCut (src : Source) (root : Node) : Prop where
  nested : root.Nested
  readable : src.Readable root
  whole : src.WholeWords root

/-- A name is among the identifiers of a node. -/
def Uses (src : Source) (n : Node) (name : String) : Prop :=
  ∃ text, src.textOf n = .ok text ∧ name ∈ identifiers text

variable {src : Source} {n m : Node}

theorem WellCut.of_inside (cut : src.WellCut n) (inside : n.Inside m) : src.WellCut m :=
  ⟨cut.nested.of_inside inside, cut.readable.of_inside inside, cut.whole.of_inside inside⟩

/-- What is used inside a node is used in it. -/
theorem Uses.widen {name : String} (uses : src.Uses m name) (cut : src.WellCut n) (inside : n.Inside m) :
    src.Uses n name := by
  obtain ⟨inner, readInner, occurs⟩ := uses
  obtain ⟨outer, readOuter⟩ := cut.readable n .here
  exact ⟨outer, readOuter, identifiers_inside inside cut.nested cut.whole readOuter readInner occurs⟩

end Source

/-!
### Single declarations
-/

/-- What is declared in the text of `n`: owners contain their members at every depth, and all the names that the
    declaration depends on are used in the text and imported. -/
structure Enclosed (src : Source) (n : Node) (imports : Entries Resolved) (d : Declaration) : Prop where
  contained : ∀ e ∈ d.flattenOne, e.Contained
  own : d.reExportSource? = none → ∀ name ∈ nameSet d.head.dependencies,
    src.Uses n name ∧ (Entries.get? imports name).isSome

namespace Enclosed

variable {src : Source} {n m : Node} {imports : Entries Resolved} {d : Declaration}

/-- What encloses its members does so still when more is imported. -/
theorem lasting {l l' : Links} (enclosed : Enclosed src n l.imports d) (grown : l.Extends l') :
    Enclosed src n l'.imports d := by
  refine ⟨enclosed.contained, ?_⟩
  intro declaredHere name mem
  obtain ⟨uses, imported⟩ := enclosed.own declaredHere name mem
  exact ⟨uses, grown name imported⟩

/-- What is enclosed in a node is enclosed in each node around it. -/
theorem widen (enclosed : Enclosed src m imports d) (cut : src.WellCut n) (inside : n.Inside m) :
    Enclosed src n imports d := by
  refine ⟨enclosed.contained, ?_⟩
  intro declaredHere name mem
  obtain ⟨uses, imported⟩ := enclosed.own declaredHere name mem
  exact ⟨uses.widen cut inside, imported⟩

theorem reExport (head : Head) (source : String) : Enclosed src n imports (.reExport head source) := by
  constructor
  · rw [Declaration.flattenOne_eq, List.forall_mem_cons]
    exact ⟨⟨nofun, nofun⟩, nofun⟩
  · exact nofun

/-- The names of whatever is declared inside a declaration are used in the text and imported, too. -/
theorem inner (enclosed : Enclosed src n imports d) {e : Declaration} (inside : e ∈ d.flattenOne)
    (declaredHere : e.reExportSource? = none) :
    ∀ name ∈ nameSet e.head.dependencies, src.Uses n name ∧ (Entries.get? imports name).isSome := by
  have contained := enclosed.contained d (by rw [Declaration.flattenOne_eq]; exact List.mem_cons_self)
  intro name mem
  rw [Declaration.flattenOne_eq] at inside
  rcases List.mem_cons.1 inside with rfl | deeper
  · exact enclosed.own declaredHere name mem
  · by_cases own : d.reExportSource? = none
    · exact enclosed.own own name (contained.members e deeper declaredHere mem)
    · rw [Declaration.members_of_reExport own] at deeper
      cases deeper

/-- A declaration with the dependencies of the text of `n`, whose members are declared in that text. -/
theorem of_scanned {site : Site} {text : String} (cut : site.source.WellCut n)
    (coherent : ∀ name b, Entries.get? site.imports name = some b → b.Coherent)
    (read : site.source.textOf n = .ok text)
    (drawn : ∀ deps ∈ d.memberDependencies, ∃ m, n.Inside m ∧ site.Scanned m deps)
    (members : ∀ m ∈ d.members, Enclosed site.source n site.imports m) :
    Enclosed site.source n site.imports
      (d.mapHead fun h => { h with dependencies := findDependencies site.imports text }) := by
  have contained : (d.mapHead fun h => { h with dependencies := findDependencies site.imports text }).Contained := by
    constructor
    · rw [Declaration.memberDependencies_mapHead, Declaration.head_mapHead]
      intro deps mem
      obtain ⟨m, inside, inner, readInner, rfl⟩ := drawn deps mem
      apply findDependencies_covers coherent
      exact Source.identifiers_inside inside cut.nested cut.whole read readInner
    · rw [Declaration.members_mapHead, Declaration.head_mapHead]
      intro e mem declaredHere name holds
      obtain ⟨m, among, inside⟩ := Declaration.mem_flatten.1 mem
      obtain ⟨⟨text', read', occurs⟩, imported⟩ := (members m among).inner inside declaredHere name holds
      cases read.symm.trans read'
      exact mem_nameSet_findDependencies.2 ⟨occurs, imported⟩
  constructor
  · rw [Declaration.flattenOne_eq, List.forall_mem_cons, Declaration.members_mapHead]
    refine ⟨contained, ?_⟩
    intro e mem
    obtain ⟨m, among, inside⟩ := Declaration.mem_flatten.1 mem
    exact (members m among).contained e inside
  · rw [Declaration.head_mapHead]
    intro _ name mem
    obtain ⟨occurs, imported⟩ := mem_nameSet_findDependencies.1 mem
    exact ⟨⟨text, read, occurs⟩, imported⟩

/-- Marks for export leave dependencies and members alone. -/
theorem applyExportsTo (enclosed : Enclosed src n imports d) (qualify : String → String) (es : List LocalExport) :
    Enclosed src n imports (applyExportsTo qualify es d) := by
  unfold Outline.applyExportsTo
  split
  next => exact enclosed
  next =>
    obtain ⟨contained, own⟩ := enclosed
    rw [Declaration.flattenOne_eq, List.forall_mem_cons] at contained
    obtain ⟨⟨classMembers, members⟩, inner⟩ := contained
    constructor
    · rw [Declaration.flattenOne_eq, List.forall_mem_cons, Declaration.members_mapHead]
      refine ⟨⟨?_, ?_⟩, inner⟩
      · rw [Declaration.memberDependencies_mapHead, Declaration.head_mapHead]
        exact classMembers
      · rw [Declaration.members_mapHead, Declaration.head_mapHead]
        exact members
    · rw [Declaration.head_mapHead, Declaration.reExportSource?_mapHead]
      exact own

end Enclosed

/-!
### Steps
-/

/-- Tables are coherent, and what is given out is declared in the text of `n`. -/
def Standard.enclosed (src : Source) (n : Node) : Standard where
  links := Links.Coherent
  declaration l d := Enclosed src n l.imports d
  lasting grown enclosed := enclosed.lasting grown

/-- Whatever the walk gives out is declared in the text of `n`. -/
abbrev Encloses {α : Type} (src : Source) (n : Node) (x : Walk α) : Prop :=
  Walk.Meets (.enclosed src n) (fun _ _ => True) x

section Steps

variable {α : Type} {s : Surroundings} {n m : Node}

/-- What is given out inside a node is given out in it. -/
theorem Encloses.widen {R : Links → α → Prop} {x : Walk α} (inner : Walk.Meets (.enclosed s.source m) R x)
    (cut : s.source.WellCut n) (inside : n.Inside m) : Walk.Meets (.enclosed s.source n) R x := by
  refine inner.recast ?_ ?_
  · exact fun _ => .rfl
  · exact fun _ _ _ enclosed => enclosed.widen cut inside

/-- A walk that keeps its tables coherent and gives out re-exports at most. -/
theorem Encloses.of_keeps (E : LocalExport → Prop) {x : Walk Unit}
    (keeps : (Upkeep.envelope s.resolver s.path).Keeps x)
    (given : Walk.Ensures (fun d => ∃ head source, d = .reExport head source) E (fun _ => True) x) :
    Encloses s.source n x := by
  refine keeps.recast ?_ ?_
  · exact fun _ => .rfl
  · intro l d mem _
    obtain ⟨head, source, rfl⟩ := (given l).declarations d mem
    exact .reExport head source

theorem reading_encloses (x : Site → Reading α) : Encloses s.source n (s.reading x) :=
  .reading fun _ _ _ _ => trivial

theorem excerpt_encloses : Encloses s.source n (excerpt s m) :=
  .after (reading_encloses _) fun _ => .pure fun _ => trivial

theorem noteUnknown_encloses (context : Option String) : Encloses s.source n (noteUnknown s m context) :=
  .after excerpt_encloses fun _ => .note _

theorem processImport_encloses : Encloses s.source n (processImport s n) :=
  .of_keeps (fun _ => True) ((Upkeep.envelope s.resolver s.path).processImport_keeps n fun _ _ => trivial)
    (processImport_ensures s n)

theorem processExportClause_encloses (scope : Scope) (clause : Node) :
    Encloses s.source n (processExportClause s scope n clause) :=
  .of_keeps scope.Declares ((Upkeep.envelope s.resolver s.path).processExportClause_keeps scope n clause)
    (processExportClause_ensures s n (fun head source _ => ⟨head, source, rfl⟩) scope clause)

theorem processReExport_encloses {x : Resolved} (fits : x.Coherent) : Encloses s.source n (processReExport s n x) :=
  .of_keeps (fun _ => True) ((Upkeep.envelope s.resolver s.path).processReExport_keeps n fits)
    (processReExport_ensures s n (fun head source _ => ⟨head, source, rfl⟩) x)

/-- Whatever a specifier is resolved to is coherent. -/
theorem resolve_encloses (spec : String) :
    Walk.Meets (.enclosed s.source n) (fun _ => Resolved.Coherent) (s.resolve spec) := by
  apply Walk.Meets.resolve
  · exact fun l x coherent => coherent.resolved spec x
  · exact fun l coherent _ => coherent.store spec (s.resolver.resolve_coherent s.path spec)
  · exact s.resolver.resolve_coherent s.path spec

/-- A declaration encloses its members if their dependencies are drawn from nodes inside it. -/
theorem emitWith_encloses {l : Links} {d : Declaration} (coherent : l.Coherent) (cut : s.source.WellCut n)
    (drawn : ∀ deps ∈ d.memberDependencies, ∃ m, n.Inside m ∧ (s.site l.imports).Scanned m deps)
    (members : ∀ m ∈ d.members, Enclosed s.source n l.imports m) :
    (emitWith s n d l).Meets (.enclosed s.source n) (fun _ _ => True) l := by
  have read : ((s.reading (·.dependencies n)) l).Meets (.enclosed s.source n)
      (fun l' deps => l' = l ∧ (s.site l.imports).Scanned n deps) l :=
    Walk.Meets.reading_at coherent (dependencies_scanned _ n)
  apply Walk.Meets.bind_at read
  rintro _ _ _ _ ⟨rfl, text, readText, rfl⟩
  exact Walk.Meets.emit coherent (Enclosed.of_scanned cut coherent.imports readText drawn members)

/-- What a statement declares encloses its members if all of them are drawn from inside it. -/
theorem declare_encloses {x : Site → Reading Declaration} (cut : s.source.WellCut n)
    (drawn : ∀ site, (x site).Ensures (Declaration.DrawnAt site n)) : Encloses s.source n (declare s n x) := by
  intro l coherent
  have read : ((s.reading x) l).Meets (.enclosed s.source n)
      (fun l' d => l' = l ∧ d.DrawnAt (s.site l.imports) n) l :=
    Walk.Meets.reading_at coherent (drawn _)
  apply Walk.Meets.bind_at read
  rintro d _ _ _ ⟨rfl, drawn⟩
  exact emitWith_encloses coherent cut drawn.memberDependencies (by simp [drawn.noMembers])

theorem declareVariables_encloses (isExported : Bool) (cut : s.source.WellCut n) :
    Encloses s.source n (declareVariables s n isExported) := by
  have read : Walk.Meets (.enclosed s.source n) (fun _ ds => ∀ d ∈ ds, ∀ imports, d.DrawnAt (s.site imports) n)
      (s.reading (variablesOf · isExported n)) :=
    .reading fun l _ => variablesOf_drawnAt (s.site l.imports) n isExported
  apply read.seq
  intro ds drawn
  apply Walk.Meets.forEach
  intro d mem l coherent
  have drawn := drawn d mem l.imports
  exact emitWith_encloses coherent cut drawn.memberDependencies (by simp [drawn.noMembers])

theorem processDefaultValue_encloses (scope : Scope) {value : Node} (cut : s.source.WellCut n)
    (inside : n.Inside value) : Encloses s.source n (processDefaultValue s scope n value) := by
  have cutValue := cut.of_inside inside
  have mere : Encloses s.source n (emitWith s n (defaultValue s n)) := fun l coherent =>
    emitWith_encloses coherent cut nofun nofun
  unfold processDefaultValue
  split
  · apply Encloses.widen (declare_encloses cutValue _) cut inside
    exact fun site => functionOf_drawnAt site value true true
  · split
    · apply Encloses.widen (declare_encloses cutValue _) cut inside
      exact fun site => classOf_drawnAt site value true true
    · split
      · apply Walk.Meets.after (reading_encloses _)
        intro name
        split
        · exact .exportLater _
        · exact mere
      · exact mere

theorem processFunctionSignature_encloses (scope : Scope) (isExported isDefault : Bool) (cut : s.source.WellCut n) :
    Encloses s.source n (processFunctionSignature s scope n isExported isDefault) := by
  apply Walk.Meets.after (reading_encloses _)
  intro name
  split
  · exact .pure fun _ => trivial
  · exact declare_encloses cut fun site => functionOf_drawnAt site n isExported isDefault

end Steps

/-!
### The walk
-/

mutual

/-- What a scope declares is declared in the text of its body. The recursion is that of the walk: down to the
    statements inside a wrapper or a namespace, whose declarations are declared in the text around them as well. -/
theorem processScope_encloses (s : Surroundings) (body : Node) (cut : s.source.WellCut body) :
    Walk.Meets (.enclosed s.source body) (fun l ds => ∀ d ∈ ds, Enclosed s.source body l.imports d)
      (processScope s body) := by
  rw [processScope_eq]
  apply Walk.Meets.after (reading_encloses _)
  intro scope
  apply Walk.Meets.within
  · apply Walk.Meets.forEach
    intro n mem
    have lighter := Node.weight_lt_of_mem_named mem
    have inside : body.Inside n := .deeper .here (Node.mem_children_of_mem_named mem)
    exact Encloses.widen (processStatement_encloses s scope n false false (cut.of_inside inside)) cut inside
  · intro l es ds each d mem
    obtain ⟨d, among, rfl⟩ := List.mem_map.1 mem
    exact (each d among).applyExportsTo s.qualify es
termination_by 4 * body.weight

/-- A statement gives out declarations that enclose their members. -/
theorem processStatement_encloses (s : Surroundings) (scope : Scope) (n : Node) (isExported isDefault : Bool)
    (cut : s.source.WellCut n) : Encloses s.source n (processStatement s scope n isExported isDefault) := by
  rw [processStatement]
  split
  · exact .after excerpt_encloses fun raw => .note _
  · split
    next =>
      split
      · exact .pure fun _ => trivial
      · exact noteUnknown_encloses none
    next form known => exact .absorb _ (processForm_encloses s scope form n isExported isDefault cut)
termination_by 4 * n.weight + 3

theorem processForm_encloses (s : Surroundings) (scope : Scope) (form : StatementForm) (n : Node)
    (isExported isDefault : Bool) (cut : s.source.WellCut n) :
    Encloses s.source n (processForm s scope form n isExported isDefault) := by
  rw [processForm_eq]
  cases form with
  | ambient =>
      dsimp only
      cases wraps : n.named.head? with
      | none => exact noteUnknown_encloses _
      | some inner =>
          have among := List.mem_of_head? wraps
          have lighter := Node.weight_lt_of_mem_named among
          have inside : n.Inside inner := .deeper .here (Node.mem_children_of_mem_named among)
          have inner := processStatement_encloses s scope inner isExported isDefault (cut.of_inside inside)
          dsimp only
          split
          · exact Encloses.widen inner cut inside
          · exact noteUnknown_encloses _
  | expression =>
      dsimp only
      cases wraps : n.child? Node.namespaceKinds with
      | none => exact .pure fun _ => trivial
      | some ns =>
          have lighter := Node.weight_lt_of_child? wraps
          have inside : n.Inside ns := .deeper .here (Node.mem_children_of_child? wraps)
          exact Encloses.widen (processNamespace_encloses s ns isExported (cut.of_inside inside)) cut inside
  | exporting => exact processExport_encloses s scope n cut
  | nameSpace => exact processNamespace_encloses s n isExported cut
  | importing => exact processImport_encloses
  | function => exact declare_encloses cut fun site => functionOf_drawnAt site n isExported isDefault
  | functionSignature => exact processFunctionSignature_encloses scope isExported isDefault cut
  | classDecl => exact declare_encloses cut fun site => classOf_drawnAt site n isExported isDefault
  | interfaceDecl => exact declare_encloses cut fun site => interfaceOf_drawnAt site n isExported isDefault
  | typeAlias => exact declare_encloses cut fun site => typeAliasOf_drawnAt site n isExported isDefault
  | enumDecl => exact declare_encloses cut fun site => enumOf_drawnAt site n isExported isDefault
  | bindings => exact declareVariables_encloses isExported cut
termination_by 4 * n.weight + 2

theorem processExport_encloses (s : Surroundings) (scope : Scope) (n : Node) (cut : s.source.WellCut n) :
    Encloses s.source n (processExport s scope n) := by
  rw [processExport_eq]
  cases wraps : n.field? "declaration" with
  | some inner =>
      have lighter := Node.weight_lt_of_field? wraps
      have inside : n.Inside inner := .deeper .here (Node.mem_children_of_field? wraps)
      exact Encloses.widen (processStatement_encloses s scope inner true _ (cut.of_inside inside)) cut inside
  | none =>
      dsimp only
      cases holds : n.field? "source" with
      | some source =>
          apply Walk.Meets.after (reading_encloses _)
          intro text
          exact .seq (resolve_encloses _) fun x fits => processReExport_encloses fits
      | none =>
          dsimp only
          split
          next found _ =>
            exact processDefaultValue_encloses scope cut (.deeper .here (Node.mem_children_of_field? found))
          next => exact processExportClause_encloses scope _
          next => exact noteUnknown_encloses _
termination_by 4 * n.weight + 1

/-- So do namespaces, whose members stand inside them. -/
theorem processNamespace_encloses (s : Surroundings) (n : Node) (isExported : Bool) (cut : s.source.WellCut n) :
    Encloses s.source n (processNamespace s n isExported) := by
  rw [processNamespace_eq]
  cases n.field? "name" with
  | none => exact noteUnknown_encloses _
  | some nameNode =>
      dsimp only
      split
      next => exact noteUnknown_encloses _
      next =>
        apply Walk.Meets.after (reading_encloses _)
        intro text
        have emitted : ∀ ds l, l.Coherent → (∀ d ∈ ds, Enclosed s.source n l.imports d) →
            (emitWith s n (namespaceDeclaration s n (Text.compact text) isExported ds) l).Meets
              (.enclosed s.source n) (fun _ _ => True) l :=
          fun ds l coherent members => emitWith_encloses coherent cut nofun members
        cases holds : n.field? "body" with
        | none => exact .bind (.pure fun l d mem => absurd mem List.not_mem_nil) emitted
        | some body =>
            have lighter := Node.weight_lt_of_field? holds
            have inside : n.Inside body := .deeper .here (Node.mem_children_of_field? holds)
            have scope := processScope_encloses (s.enter (Text.compact text)) body (cut.of_inside inside)
            apply Walk.Meets.bind (Encloses.widen scope cut inside)
            intro ds l coherent members
            exact emitted ds l coherent fun d mem => (members d mem).widen cut inside
termination_by 4 * n.weight + 1

end

/-!
### Outlines
-/

variable {src : Source} {path : String} {root : Node} {ds : List Declaration}

/-- All declarations of an outline, at any depth, use what their members use. -/
theorem extractFrom_contained {r : Resolver} {table : Entries Resolved} (cut : src.WellCut root)
    (coherent : ∀ spec x, Entries.get? table spec = some x → x.Coherent)
    (done : (extractFrom r src path root table).result = .ok ds) : ∀ d ∈ Declaration.flatten ds, d.Contained := by
  have start : Links.Coherent { resolved := table } := ⟨nofun, coherent⟩
  have walk := processScope_encloses ⟨src, path, r, ""⟩ root cut _ start
  rw [extractFrom_result] at done
  intro d mem
  obtain ⟨e, among, inside⟩ := Declaration.mem_flatten.1 mem
  cases ended : (processScope ⟨src, path, r, ""⟩ root { resolved := table }).result with
  | error span =>
      rw [ended] at done
      cases done
  | ok given =>
      rw [ended] at done
      cases done
      exact (walk.value ds ended e among).contained d inside

/-- If spans are well nested, can be read and cut no word, then in every outline whatever a member depends on, its
    owner depends on as well, whether specifiers are resolved by text alone or through any probe. -/
theorem contained_of_extract (src : Source) (path : String) (root : Node) (aliases : Aliases) (options : SearchOptions)
    (probe : Probe) (ds : List Declaration) (nested : root.Nested) (readable : src.Readable root)
    (whole : src.WholeWords root)
    (done : (extractProbing src path root aliases options probe).1.result = .ok ds ∨
      (extract src path root aliases).result = .ok ds) :
    ∀ d ∈ Declaration.flatten ds, d.Contained := by
  have cut : src.WellCut root := ⟨nested, readable, whole⟩
  rcases done with probed | textual
  · obtain ⟨specs, table, _, ended, outlined⟩ := extractProbing_ok probed
    exact extractFrom_contained cut (fun spec x found =>
      Resolver.coherent_of_resolveProbing (Resolver.resolveProbing_of_get? _ _ path specs spec ended found)) outlined
  · obtain ⟨specs, _, outlined⟩ := extract_ok textual
    refine extractFrom_contained cut (fun spec x found => ?_) outlined
    rw [Resolver.get?_table] at found
    split at found <;> cases found
    exact Resolver.resolve_coherent _ path spec

/-- The property, its class and the namespace around it all depend on what is imported. -/
theorem contained_of_extract_shelf :
    ∃ ds, (extract shelfSource "a.ts" shelfTree []).result = .ok ds ∧
      (Declaration.flatten ds).map (fun d => (d.head.name, d.head.dependencies, d.memberDependencies)) =
        [("A", [.external "m" "m" ["A"]], []), ("N", [.external "m" "m" ["A"]], []),
          ("N.C", [.external "m" "m" ["A"]], [[.external "m" "m" ["A"]]])] ∧
      ∀ d ∈ Declaration.flatten ds, d.Contained := by
  have outlined : (extract shelfSource "a.ts" shelfTree []).result.toOption.map
      (fun ds => (Declaration.flatten ds).map fun d => (d.head.name, d.head.dependencies, d.memberDependencies)) =
      some [("A", [.external "m" "m" ["A"]], []), ("N", [.external "m" "m" ["A"]], []),
        ("N.C", [.external "m" "m" ["A"]], [[.external "m" "m" ["A"]]])] := by
    decide +kernel
  cases ended : (extract shelfSource "a.ts" shelfTree []).result with
  | error e =>
      rw [ended] at outlined
      cases outlined
  | ok ds =>
      rw [ended] at outlined
      refine ⟨ds, rfl, Option.some.inj outlined, ?_⟩
      exact contained_of_extract shelfSource "a.ts" shelfTree [] {} (fun _ => .absent) ds (by decide +kernel)
        (by decide +kernel) (by decide +kernel) (.inr ended)

end Outline
