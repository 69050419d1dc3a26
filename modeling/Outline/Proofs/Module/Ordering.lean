/-
Module: Outline.Proofs.Module.Ordering
Layer: Proofs
Purpose: Positions in an outline are ordered and nested if the spans of its tree are. All declarations of a statement
  stand where one node inside it does: the declared node, the export around it, or the whole variable statement. So
  the declarations of a scope follow one another like its statements, and those of a namespace stay inside it.
Main exports: StandsAt, ScopeOrder, processScope_order, processStatement_standsAt, positions_of_extract
-/
import Outline.Module.Extract
import Outline.Proofs.Declaration.Placement
import Outline.Proofs.Module.Attribution
import Outline.Proofs.Module.GivenOut
import Outline.Proofs.Module.Interruptions

namespace Outline

open Specifier (Aliases Probe Resolver SearchOptions)

/-- The declaration stands where the node `m` does, and everything in it is well placed. -/
structure StandsAt (src : Source) (m : Node) (d : Declaration) : Prop where
  position : d.head.position = src.position m
  wellPlaced : ∀ e ∈ d.flattenOne, e.WellPlaced

/-- The declarations of the scope with the given body are in order and inside it. -/
structure ScopeOrder (src : Source) (body : Node) (ds : List Declaration) : Prop where
  sorted : ds.Pairwise Declaration.StartsBefore
  each : ∀ d ∈ ds, ∃ m, body.Inside m ∧ StandsAt src m d

variable {src : Source}

/-- Whatever else of the head is changed. -/
theorem StandsAt.mapHead {m : Node} {d : Declaration} (stands : StandsAt src m d) {f : Head → Head}
    (same : (f d.head).position = d.head.position) : StandsAt src m (d.mapHead f) := by
  constructor
  · rw [Declaration.head_mapHead, same]
    exact stands.position
  · have each := stands.wellPlaced
    rw [Declaration.flattenOne_eq, List.forall_mem_cons] at each ⊢
    rw [Declaration.members_mapHead]
    exact ⟨each.1.mapHead same, each.2⟩

theorem StandsAt.applyExportsTo {m : Node} {d : Declaration} (stands : StandsAt src m d) (qualify : String → String)
    (es : List LocalExport) : StandsAt src m (applyExportsTo qualify es d) := by
  unfold Outline.applyExportsTo
  split
  · exact stands
  · exact stands.mapHead rfl

/-- Marking the declarations of a scope keeps their order. -/
theorem ScopeOrder.applyExports {body : Node} {ds : List Declaration} (order : ScopeOrder src body ds)
    (qualify : String → String) (es : List LocalExport) : ScopeOrder src body (applyExports qualify es ds) := by
  have kept : ∀ d, (applyExportsTo qualify es d).head.position = d.head.position := by
    intro d
    unfold applyExportsTo
    split
    · rfl
    · rw [Declaration.head_mapHead]
  constructor
  · apply List.pairwise_map.2
    apply order.sorted.imp
    intro d e before
    unfold Declaration.StartsBefore
    rw [kept, kept]
    exact before
  · intro d mem
    obtain ⟨d, among, rfl⟩ := List.mem_map.1 mem
    obtain ⟨m, inside, stands⟩ := order.each d among
    exact ⟨m, inside, stands.applyExportsTo qualify es⟩

/-!
### Single declarations
-/

section Single

variable {n : Node} (nested : n.Nested) (inText : n.stop ≤ src.text.utf8ByteSize)

include nested inText

/-- A declaration that was read from a node stands there. -/
theorem Declaration.ReadAt.standsAt {d : Declaration} (read : d.ReadAt src n) : StandsAt src n d := by
  refine ⟨read.position, ?_⟩
  rw [Declaration.flattenOne_eq, read.noMembers]
  simpa [Declaration.flatten] using read.wellPlaced nested inText

theorem standsAt_reExport (head : Head) (source : String) (position : head.position = src.position n) :
    StandsAt src n (.reExport head source) :=
  Declaration.ReadAt.standsAt nested inText ⟨position, by simp [Declaration.memberPositions], rfl⟩

/-- A namespace encloses the declarations of its body, which were in order before it. -/
theorem standsAt_namespaceDeclaration {s : Surroundings} (here : s.source = src) {body : Node}
    (holds : n.field? "body" = some body) {ds : List Declaration} (order : ScopeOrder src body ds) (name : String)
    (isExported : Bool) : StandsAt src n (namespaceDeclaration s n name isExported ds) := by
  subst here
  have enclosed : ∀ d ∈ ds, (s.source.position n).Within d.head.position := by
    intro d mem
    obtain ⟨m, inside, stands⟩ := order.each d mem
    rw [stands.position]
    exact Source.position_within nested inText (.of_child (Node.mem_children_of_field? holds) inside)
  have placed : (namespaceDeclaration s n name isExported ds).WellPlaced := by
    constructor
    · exact (Source.position_within nested inText .here).ordered
    · simp [namespaceDeclaration, Declaration.memberPositions]
    · exact enclosed
    · exact order.sorted
  refine ⟨rfl, ?_⟩
  rw [Declaration.flattenOne_eq, List.forall_mem_cons]
  refine ⟨placed, fun e mem => ?_⟩
  obtain ⟨d, among, inside⟩ := Declaration.mem_flatten.1 mem
  obtain ⟨_, _, stands⟩ := order.each d among
  exact stands.wellPlaced e inside

end Single

/-!
### Steps
-/

section Steps

variable {E : LocalExport → Prop} {s : Surroundings} {n : Node} (nested : n.Nested)
  (inText : n.stop ≤ s.source.text.utf8ByteSize)

include nested inText

/-- What a statement declares stands at the statement, if what is read from it does. -/
theorem declare_standsAt {x : Site → Reading Declaration}
    (read : ∀ site : Site, site.source = s.source → (x site).Ensures (Declaration.ReadAt s.source n)) :
    Walk.Ensures (StandsAt s.source n) E (fun _ => True) (declare s n x) := by
  apply declare_ensures
  intro imports d ended dependencies
  exact ((read (s.site imports) rfl d ended).standsAt nested inText).mapHead rfl

theorem declareVariables_standsAt (isExported : Bool) :
    Walk.Ensures (StandsAt s.source n) E (fun _ => True) (declareVariables s n isExported) := by
  apply declareVariables_ensures
  intro imports ds ended d mem dependencies
  have read := variablesOf_readAt (s.site imports) n isExported ds ended d mem
  exact (read.standsAt nested inText).mapHead rfl

theorem function_standsAt (isExported isDefault : Bool) :
    Walk.Ensures (StandsAt s.source n) E (fun _ => True) (declare s n (functionOf · isExported isDefault n)) :=
  declare_standsAt nested inText fun site same => same ▸ functionOf_readAt site n isExported isDefault

theorem class_standsAt (isExported isDefault : Bool) :
    Walk.Ensures (StandsAt s.source n) E (fun _ => True) (declare s n (classOf · isExported isDefault n)) :=
  declare_standsAt nested inText fun site same => same ▸ classOf_readAt site n isExported isDefault

/-- A function signature that is given out stands at its statement. -/
theorem processFunctionSignature_standsAt (scope : Scope) (isExported isDefault : Bool) :
    Walk.Ensures (StandsAt s.source n) E (fun _ => True)
      (processFunctionSignature s scope n isExported isDefault) := by
  apply Walk.Ensures.after (readOrEmpty_ensures s _)
  intro name
  split
  · exact .pure trivial
  · exact function_standsAt nested inText isExported isDefault

/-- A function or class that is exported as a value stands where it is written, anything else where the export
    does. -/
theorem processDefaultValue_standsAt (scope : Scope) {value : Node} (holds : n.field? "value" = some value) :
    ∃ m, n.Inside m ∧
      Walk.Ensures (StandsAt s.source m) scope.Declares (fun _ => True) (processDefaultValue s scope n value) := by
  have child := Node.mem_children_of_field? holds
  have inside : n.Inside value := .deeper .here child
  have valueInText : value.stop ≤ s.source.text.utf8ByteSize :=
    Nat.le_trans (nested.here.inside value child).2 inText
  have mere : Walk.Ensures (StandsAt s.source n) scope.Declares (fun _ => True) (emitWith s n (defaultValue s n)) := by
    apply emitWith_ensures
    intro dependencies
    have read : (defaultValue s n).ReadAt s.source n :=
      ⟨rfl, by simp [defaultValue, Declaration.memberPositions], rfl⟩
    exact (read.standsAt nested inText).mapHead rfl
  unfold processDefaultValue
  split
  · exact ⟨value, inside, function_standsAt (nested.child child) valueInText true true⟩
  · split
    · exact ⟨value, inside, class_standsAt (nested.child child) valueInText true true⟩
    · refine ⟨n, .here, ?_⟩
      split
      · apply Walk.Ensures.bind (read_ensures s value)
        intro name _
        split
        next declared => exact .exportLater (List.contains_iff_mem.1 declared)
        next => exact mere
      · exact mere

end Steps

/-!
### The walk
-/

mutual

/-- The declarations of a scope are in order and inside it. The recursion is that of the walk: down to the statements
    inside a wrapper or a namespace. -/
theorem processScope_order {D : Declaration → Prop} {E : LocalExport → Prop} (s : Surroundings) (body : Node)
    (nested : body.Nested) (inText : body.stop ≤ s.source.text.utf8ByteSize) :
    Walk.Ensures D E (ScopeOrder s.source body) (processScope s body) := by
  rw [processScope_eq]
  apply Walk.Ensures.after (reading_ensures s fun _ _ _ => trivial)
  intro scope
  have fits : ∀ n ∈ body.named, n.Nested ∧ n.stop ≤ s.source.text.utf8ByteSize := by
    intro n mem
    have child := Node.mem_children_of_mem_named mem
    exact ⟨nested.child child, Nat.le_trans (nested.here.inside n child).2 inText⟩
  have each : ∀ n ∈ body.named, ∃ m, n.Inside m ∧ Walk.Ensures (StandsAt s.source m) scope.Declares (fun _ => True)
      (processStatement s scope n false false) := by
    intro n mem
    have lighter := Node.weight_lt_of_mem_named mem
    exact processStatement_standsAt s scope n false false (fits n mem).1 (fits n mem).2
  -- The node at which all declarations of a statement stand.
  choose! place inside stands using each
  apply Walk.Ensures.within_value
  · intro l
    constructor
    · apply Walk.Ensures.forEach_pairwise stands
      · intro n mem d e first second
        unfold Declaration.StartsBefore
        rw [first.position, second.position]
      · have apart : body.named.Pairwise fun a b => a.stop ≤ b.start := nested.here.apart.filter _
        apply apart.imp_of_mem
        intro a b memA memB before d e first second
        unfold Declaration.StartsBefore
        rw [first.position, second.position]
        exact Source.position_start_le before (fits a memA).1 (fits b memB).1 (fits b memB).2 (inside a memA)
          (inside b memB)
    · have somewhere : Walk.Ensures (fun d => ∃ n ∈ body.named, StandsAt s.source (place n) d) scope.Declares
          (fun _ => True) (Walk.forEach (fun n => processStatement s scope n false false) body.named) :=
        .forEach fun n mem => (stands n mem).mono fun d stands => ⟨n, mem, stands⟩
      intro d mem
      obtain ⟨n, among, stands⟩ := (somewhere l).declarations d mem
      exact ⟨place n, .of_child (Node.mem_children_of_mem_named among) (inside n among), stands⟩
  · exact fun es ds order => order.applyExports s.qualify es
termination_by 4 * body.weight

/-- All declarations of a statement stand at one node inside it. -/
theorem processStatement_standsAt (s : Surroundings) (scope : Scope) (n : Node) (isExported isDefault : Bool)
    (nested : n.Nested) (inText : n.stop ≤ s.source.text.utf8ByteSize) :
    ∃ m, n.Inside m ∧ Walk.Ensures (StandsAt s.source m) scope.Declares (fun _ => True)
      (processStatement s scope n isExported isDefault) := by
  rw [processStatement]
  split
  · refine ⟨n, .here, ?_⟩
    apply Walk.Ensures.after
    · exact .bind (read_ensures s n) fun _ _ => .pure trivial
    · exact fun raw => .note _
  · split
    next =>
      refine ⟨n, .here, ?_⟩
      split
      · exact .pure trivial
      · exact noteUnknown_ensures s n none
    next form known =>
      obtain ⟨m, inside, stands⟩ := processForm_standsAt s scope form n isExported isDefault nested inText
      exact ⟨m, inside, .absorb _ stands⟩
termination_by 4 * n.weight + 3

/-- What a statement of one of the forms gives out stands at one node inside the statement. -/
theorem processForm_standsAt (s : Surroundings) (scope : Scope) (form : StatementForm) (n : Node)
    (isExported isDefault : Bool) (nested : n.Nested) (inText : n.stop ≤ s.source.text.utf8ByteSize) :
    ∃ m, n.Inside m ∧ Walk.Ensures (StandsAt s.source m) scope.Declares (fun _ => True)
      (processForm s scope form n isExported isDefault) := by
  have childInText : ∀ c ∈ n.children, c.stop ≤ s.source.text.utf8ByteSize :=
    fun c child => Nat.le_trans (nested.here.inside c child).2 inText
  rw [processForm_eq]
  cases form with
  | ambient =>
      dsimp only
      cases wraps : n.named.head? with
      | none => exact ⟨n, .here, noteUnknown_ensures s n _⟩
      | some inner =>
          have among := List.mem_of_head? wraps
          have child := Node.mem_children_of_mem_named among
          have lighter := Node.weight_lt_of_mem_named among
          dsimp only
          split
          · obtain ⟨m, inside, stands⟩ := processStatement_standsAt s scope inner isExported isDefault
              (nested.child child) (childInText inner child)
            exact ⟨m, .of_child child inside, stands⟩
          · exact ⟨n, .here, noteUnknown_ensures s n _⟩
  | expression =>
      dsimp only
      cases wraps : n.child? Node.namespaceKinds with
      | none => exact ⟨n, .here, .pure trivial⟩
      | some ns =>
          have child := Node.mem_children_of_child? wraps
          have lighter := Node.weight_lt_of_child? wraps
          exact ⟨ns, .deeper .here child,
            processNamespace_standsAt s ns isExported (nested.child child) (childInText ns child)⟩
  | exporting => exact processExport_standsAt s scope n nested inText
  | importing => exact ⟨n, .here, processImport_ensures s n⟩
  | function => exact ⟨n, .here, function_standsAt nested inText isExported isDefault⟩
  | functionSignature => exact ⟨n, .here, processFunctionSignature_standsAt nested inText scope isExported isDefault⟩
  | classDecl => exact ⟨n, .here, class_standsAt nested inText isExported isDefault⟩
  | interfaceDecl =>
      exact ⟨n, .here, declare_standsAt nested inText fun site same => same ▸ interfaceOf_readAt site n _ _⟩
  | typeAlias =>
      exact ⟨n, .here, declare_standsAt nested inText fun site same => same ▸ typeAliasOf_readAt site n _ _⟩
  | enumDecl =>
      exact ⟨n, .here, declare_standsAt nested inText fun site same => same ▸ enumOf_readAt site n _ _⟩
  | bindings => exact ⟨n, .here, declareVariables_standsAt nested inText isExported⟩
  | nameSpace => exact ⟨n, .here, processNamespace_standsAt s n isExported nested inText⟩
termination_by 4 * n.weight + 2

/-- What an export statement gives out stands at one node inside it. -/
theorem processExport_standsAt (s : Surroundings) (scope : Scope) (n : Node) (nested : n.Nested)
    (inText : n.stop ≤ s.source.text.utf8ByteSize) :
    ∃ m, n.Inside m ∧ Walk.Ensures (StandsAt s.source m) scope.Declares (fun _ => True)
      (processExport s scope n) := by
  rw [processExport_eq]
  cases wraps : n.field? "declaration" with
  | some inner =>
      have child := Node.mem_children_of_field? wraps
      have lighter := Node.weight_lt_of_field? wraps
      obtain ⟨m, inside, stands⟩ := processStatement_standsAt s scope inner true (n.hasChild "default")
        (nested.child child) (Nat.le_trans (nested.here.inside inner child).2 inText)
      exact ⟨m, .of_child child inside, stands⟩
  | none =>
      have given : ∀ head source, head.position = s.source.position n →
          StandsAt s.source n (.reExport head source) := standsAt_reExport nested inText
      dsimp only
      split
      · refine ⟨n, .here, ?_⟩
        apply Walk.Ensures.bind (read_ensures s _)
        intro text _
        apply Walk.Ensures.after (.resolve _ _ _)
        exact fun r => processReExport_ensures s n given r
      · split
        · exact processDefaultValue_standsAt nested inText scope ‹_›
        · exact ⟨n, .here, processExportClause_ensures s n given scope _⟩
        · exact ⟨n, .here, noteUnknown_ensures s n _⟩
termination_by 4 * n.weight + 1

/-- A namespace stands at its statement, and its members are in order inside it. -/
theorem processNamespace_standsAt {E : LocalExport → Prop} (s : Surroundings) (n : Node) (isExported : Bool)
    (nested : n.Nested) (inText : n.stop ≤ s.source.text.utf8ByteSize) :
    Walk.Ensures (StandsAt s.source n) E (fun _ => True) (processNamespace s n isExported) := by
  rw [processNamespace_eq]
  cases named : n.field? "name" with
  | none => exact noteUnknown_ensures s n _
  | some target =>
      dsimp only
      split
      next => exact noteUnknown_ensures s n _
      next =>
        apply Walk.Ensures.bind (read_ensures s target)
        intro text _
        cases holds : n.field? "body" with
        | none =>
            apply Walk.Ensures.bind (R := fun ds => ds = []) (.pure rfl)
            rintro _ rfl
            apply emitWith_ensures
            intro dependencies
            have read : (namespaceDeclaration s n (Text.compact text) isExported []).ReadAt s.source n :=
              ⟨rfl, by simp [namespaceDeclaration, Declaration.memberPositions], rfl⟩
            exact (read.standsAt nested inText).mapHead rfl
        | some body =>
            have child := Node.mem_children_of_field? holds
            have lighter := Node.weight_lt_of_field? holds
            have order := processScope_order (D := StandsAt s.source n) (E := E) (s.enter (Text.compact text)) body
              (nested.child child) (Nat.le_trans (nested.here.inside body child).2 inText)
            apply Walk.Ensures.bind order
            intro ds ordered
            apply emitWith_ensures
            intro dependencies
            exact (standsAt_namespaceDeclaration nested inText rfl holds ordered _ isExported).mapHead rfl
termination_by 4 * n.weight + 1

end

/-!
### Outlines
-/

/-- The declarations of a module are in the order of the text, and so are the members of each. -/
theorem extractFrom_order {r : Resolver} {path : String} {root : Node} {table : Entries Specifier.Resolved}
    {ds : List Declaration} (nested : root.Nested) (inText : root.stop ≤ src.text.utf8ByteSize)
    (done : (extractFrom r src path root table).result = .ok ds) : ScopeOrder src root ds := by
  have walk := processScope_order (D := fun _ => True) (E := fun _ => True) ⟨src, path, r, ""⟩ root nested inText
    { resolved := table }
  rw [extractFrom_result] at done
  cases ended : (processScope ⟨src, path, r, ""⟩ root { resolved := table }).result with
  | error span =>
      rw [ended] at done
      cases done
  | ok given =>
      rw [ended] at done
      cases done
      exact walk.value ds ended

/-- Outlines of a tree with well-nested spans inside its text, whether specifiers are resolved by text alone or
    through any probe: the declarations of the file follow one another, those of each namespace too, no position ends
    before it starts, and namespaces and classes enclose their members. -/
theorem positions_of_extract (src : Source) (path : String) (root : Node) (aliases : Aliases) (options : SearchOptions)
    (probe : Probe) (ds : List Declaration) (nested : root.Nested) (inText : root.stop ≤ src.text.utf8ByteSize)
    (done : (extract src path root aliases).result = .ok ds ∨
      (extractProbing src path root aliases options probe).1.result = .ok ds) :
    ds.Pairwise Declaration.StartsBefore ∧ ∀ d ∈ Declaration.flatten ds, d.WellPlaced := by
  have order : ScopeOrder src root ds := by
    rcases done with textual | probed
    · obtain ⟨_, _, outlined⟩ := extract_ok textual
      exact extractFrom_order nested inText outlined
    · obtain ⟨_, _, _, _, outlined⟩ := extractProbing_ok probed
      exact extractFrom_order nested inText outlined
  refine ⟨order.sorted, fun d mem => ?_⟩
  obtain ⟨e, among, inside⟩ := Declaration.mem_flatten.1 mem
  obtain ⟨_, _, stands⟩ := order.each e among
  exact stands.wellPlaced d inside

/-- Three lines, with a name of two bytes in the first and a namespace, a class in it, over the other two. -/
def terracedSource : Source := ⟨"const é=1;\nnamespace N\x7bclass C\x7bp=1;m()\x7b\x7d\x7d\nlet x\x7d"⟩

/-- The tree of `terracedSource`. -/
def terracedTree : Node :=
  .construct "program" none 0 49
    [.construct "lexical_declaration" none 0 11
      [.construct "variable_declarator" none 6 10
        [.construct "identifier" (some "name") 6 8 [], .construct "number" (some "value") 9 10 []]],
     .construct "expression_statement" none 12 49
      [.construct "internal_module" none 12 49
        [.construct "identifier" (some "name") 22 23 [],
         .construct "statement_block" (some "body") 23 49
          [.construct "class_declaration" none 24 42
            [.construct "type_identifier" (some "name") 30 31 [],
             .construct "class_body" (some "body") 31 42
              [.construct "public_field_definition" none 32 35
                [.construct "property_identifier" (some "name") 32 33 [],
                 .construct "number" (some "value") 34 35 []],
               .construct "method_definition" none 36 41
                [.construct "property_identifier" (some "name") 36 37 [],
                 .construct "formal_parameters" (some "parameters") 37 39 [],
                 .construct "statement_block" (some "body") 39 41 []]]],
           .construct "lexical_declaration" none 43 48
            [.construct "variable_declarator" none 47 48
              [.construct "identifier" (some "name") 47 48 []]]]]]]

/-- Columns count bytes, the namespace ends on the third line, and its members lie inside it in order. -/
theorem positions_of_extract_terraced :
    terracedTree.Nested ∧ terracedTree.stop = terracedSource.text.utf8ByteSize ∧
      ∃ ds, (extract terracedSource "a.ts" terracedTree []).result = .ok ds ∧
        (Declaration.flatten ds).map (fun d => (d.head.name, d.head.position)) =
          [("é", ⟨⟨1, 1⟩, ⟨1, 12⟩⟩), ("N", ⟨⟨2, 1⟩, ⟨3, 7⟩⟩), ("N.C", ⟨⟨2, 13⟩, ⟨2, 31⟩⟩),
            ("N.x", ⟨⟨3, 1⟩, ⟨3, 6⟩⟩)] ∧
        ds.Pairwise Declaration.StartsBefore ∧ ∀ d ∈ Declaration.flatten ds, d.WellPlaced := by
  have nested : terracedTree.Nested := by decide +kernel
  have whole : terracedTree.stop = terracedSource.text.utf8ByteSize := by decide +kernel
  have outlined : (extract terracedSource "a.ts" terracedTree []).result.toOption.map
      (fun ds => (Declaration.flatten ds).map fun d => (d.head.name, d.head.position)) =
        some [("é", ⟨⟨1, 1⟩, ⟨1, 12⟩⟩), ("N", ⟨⟨2, 1⟩, ⟨3, 7⟩⟩), ("N.C", ⟨⟨2, 13⟩, ⟨2, 31⟩⟩),
          ("N.x", ⟨⟨3, 1⟩, ⟨3, 6⟩⟩)] := by
    decide +kernel
  cases ended : (extract terracedSource "a.ts" terracedTree []).result with
  | error e =>
      rw [ended] at outlined
      cases outlined
  | ok ds =>
      rw [ended] at outlined
      have placed := positions_of_extract terracedSource "a.ts" terracedTree [] {} (fun _ => .absent) ds nested
        (Nat.le_of_eq whole) (.inl ended)
      exact ⟨nested, whole, ds, rfl, Option.some.inj outlined, placed⟩

end Outline
