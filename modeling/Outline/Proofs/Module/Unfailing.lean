/-
Module: Outline.Proofs.Module.Unfailing
Layer: Proofs
Purpose: Outlining a file whose texts can all be read. Whatever kinds its nodes are of, whatever fields they lack and
  whatever errors are reported in them, the walk comes to its end and gives no statement up, and no type falls back.
  So the file either has an outline, or it is not accepted because nothing in it is usable, or else a probe breaks off.
Main exports: processScope_unfailing, collectSpecifiers_of_readable, describeFault_of_readable, extract_of_readable
-/
import Outline.Proofs.Declaration.Unfailing
import Outline.Proofs.Module.Attribution
import Outline.Proofs.Module.Comments
import Outline.Proofs.Module.Prescan
import Outline.Proofs.Module.Rejection
import Outline.Proofs.Walk.Unfailing

namespace Outline

open Specifier (Aliases Probe Resolved Resolver SearchOptions firstInterruption)
open Walk (Unfailing)

/-!
### Specifiers
-/

section Specifiers

variable {src : Source} {n : Node}

theorem specifierText?_of_readable {child : Option Node} (readable : ∀ c, child = some c → src.Readable c) :
    ∃ spec, specifierText? src child = .ok spec := by
  cases child with
  | none => exact ⟨none, rfl⟩
  | some c =>
      obtain ⟨text, found⟩ := readable c rfl c .here
      exact ⟨some (stripQuotes text), by rw [specifierText?, specifierText, found]; rfl⟩

/-- A specifier of a statement whose texts can be read can be read. -/
theorem statementSpecifier_of_readable (readable : src.Readable n) : ∃ spec, statementSpecifier src n = .ok spec := by
  have byField : ∃ spec, specifierText? src (n.field? "source") = .ok spec :=
    specifierText?_of_readable fun c found => readable.child (Node.mem_children_of_field? found)
  unfold statementSpecifier
  split
  · split
    next clause found =>
      have below := readable.child (Node.mem_children_of_child? found)
      apply specifierText?_of_readable
      intro c held
      rcases Option.or_eq_some_iff.1 held with source | ⟨_, string⟩
      · exact below.child (Node.mem_children_of_field? source)
      · exact below.child (Node.mem_children_of_child? string)
    next => exact byField
  · split
    · exact byField
    · exact ⟨none, rfl⟩

/-- The texts in the body of a namespace can be read if those of its statement can. -/
theorem readable_of_namespaceBody? {body : Node} (readable : src.Readable n) (found : n.namespaceBody? = some body) :
    src.Readable body := by
  obtain ⟨ns, declares, isBody⟩ := Option.bind_eq_some_iff.1 found
  exact (readable.of_inside (Node.inside_of_namespaceOf? declares)).child (Node.mem_children_of_field? isBody)

/-- The specifiers of a file that can be read are found. -/
theorem collectSpecifiers_of_readable (n : Node) (readable : src.Readable n) :
    ∃ specs, collectSpecifiers src n = .ok specs := by
  have mentioned : ∃ specs, n.named.mapM (statementSpecifier src) = .ok specs := by
    apply exists_mapM_eq_ok
    intro c statement
    exact statementSpecifier_of_readable (readable.child (Node.mem_children_of_mem_named statement))
  have nested : ∃ specs, n.named.mapM (nestedSpecifiers src) = .ok specs := by
    apply exists_mapM_eq_ok
    intro c statement
    have below := readable.child (Node.mem_children_of_mem_named statement)
    obtain ⟨spec, found⟩ := statementSpecifier_of_readable below
    simp only [nestedSpecifiers, found]
    cases spec with
    | some spec => exact ⟨[], rfl⟩
    | none =>
        cases isBody : c.namespaceBody? with
        | none => exact ⟨[], rfl⟩
        | some body =>
            have lighter := Nat.lt_trans (Node.weight_lt_of_namespaceBody? isBody) (Node.weight_lt_of_mem_named statement)
            exact collectSpecifiers_of_readable body (readable_of_namespaceBody? below isBody)
  obtain ⟨specs, first⟩ := mentioned
  obtain ⟨inner, second⟩ := nested
  exact ⟨specs.filterMap id ++ inner.flatten, by rw [collectSpecifiers_eq, first, second]; rfl⟩
termination_by n.weight

end Specifiers

/-!
### Faults
-/

mutual

/-- The first fault of a tree is a node of it. -/
theorem inside_of_firstFault? : (n : Node) → ∀ {bad}, n.firstFault? = some bad → n.Inside bad
  | ⟨kind, start, stop, isNamed, isMissing, hasError, field, children⟩, bad, found => by
    rw [Node.firstFault?_eq] at found
    split at found
    · cases found
      exact .here
    · split at found
      · obtain ⟨c, child, inside⟩ := inside_of_firstFaultIn? children found
        exact .of_child child inside
      · cases found

/-- The first fault among nodes stands inside one of them. -/
theorem inside_of_firstFaultIn? : (ns : List Node) → ∀ {bad}, Node.firstFaultIn? ns = some bad →
    ∃ n ∈ ns, n.Inside bad
  | [], _, found => by cases found
  | n :: ns, bad, found => by
    rw [Node.firstFaultIn?] at found
    split at found
    next first =>
      cases found
      exact ⟨n, List.mem_cons_self, inside_of_firstFault? n first⟩
    next =>
      obtain ⟨c, mem, inside⟩ := inside_of_firstFaultIn? ns found
      exact ⟨c, List.mem_cons_of_mem n mem, inside⟩

end

/-- The first fault of a file that can be read can be described. -/
theorem describeFault_of_readable {src : Source} {root : Node} (readable : src.Readable root) :
    ∃ fault, describeFault src root = .ok fault := by
  unfold describeFault
  split
  next => exact ⟨.unlocated, rfl⟩
  next bad found =>
    split
    · exact ⟨_, rfl⟩
    · obtain ⟨text, read⟩ := readable bad (inside_of_firstFault? root found)
      rw [read]
      exact ⟨_, rfl⟩

/-!
### Statements without statements inside
-/

variable {s : Surroundings} {scope : Scope} {n : Node}

/-- Reading a node whose texts can be read does not fail. -/
theorem read_unfailing (readable : s.source.Readable n) : Unfailing (s.read n) :=
  .reading fun _ => .read readable

theorem readOrEmpty_unfailing {child : Option Node} (readable : ∀ c, child = some c → s.source.Readable c) :
    Unfailing (s.readOrEmpty child) :=
  .reading fun _ => .readOrEmpty readable

theorem excerpt_unfailing (readable : s.source.Readable n) : Unfailing (excerpt s n) :=
  .bind (read_unfailing readable) fun _ => .pure _

theorem noteUnknown_unfailing (readable : s.source.Readable n) (context : Option String) :
    Unfailing (noteUnknown s n context) :=
  .bind (excerpt_unfailing readable) fun raw => .note (Event.reportsFailure_unknownNode s.path n.kind _ raw context)

/-- Giving out a declaration does not fail where the text that it covers can be read. -/
theorem emitWith_unfailing (readable : s.source.Readable n) (d : Declaration) : Unfailing (emitWith s n d) :=
  have reads : ∀ imports, ((s.site imports).dependencies n).Unfailing := fun _ => dependencies_unfailing readable
  .bind (.reading reads) fun _ => .emit _

/-- A statement declares without a failure if it is read without one. -/
theorem declare_unfailing {x : Site → Reading Declaration} (readable : s.source.Readable n)
    (reads : ∀ imports, (x (s.site imports)).Unfailing) : Unfailing (declare s n x) :=
  .bind (.reading reads) fun d => emitWith_unfailing readable d

theorem declareVariables_unfailing (readable : s.source.Readable n) (isExported : Bool) :
    Unfailing (declareVariables s n isExported) := by
  have reads : ∀ imports, (variablesOf (s.site imports) isExported n).Unfailing :=
    fun _ => variablesOf_unfailing readable
  apply Unfailing.bind (.reading reads)
  intro ds
  exact .forEach fun d _ => emitWith_unfailing readable d

theorem bindNode_unfailing (r : Resolved) {child : Option Node}
    (readable : ∀ c, child = some c → s.source.Readable c) : Unfailing (bindNode s r child) :=
  .bind (readOrEmpty_unfailing readable) fun name => .bindName name r

/-- A part of an import clause binds without a failure. -/
theorem bindPart_unfailing (r : Resolved) (readable : s.source.Readable n) : Unfailing (bindPart s r n) := by
  unfold bindPart
  split
  · apply bindNode_unfailing r
    rintro _ ⟨⟩
    exact readable
  · split
    · exact bindNode_unfailing r fun c found => readable.child (Node.mem_children_of_child? found)
    · split
      · apply Unfailing.forEach
        intro spec listed
        have below := readable.child (Node.mem_children_of_mem_named (Node.mem_named_of_mem_namedOf listed))
        exact bindNode_unfailing r fun c found => below.child (Node.mem_children_of_eitherField? found)
      · exact .pure ()

theorem processImport_unfailing (readable : s.source.Readable n) : Unfailing (processImport s n) := by
  obtain ⟨spec, found⟩ := statementSpecifier_of_readable readable
  unfold processImport
  apply Unfailing.bind
  · exact .reading fun _ => ⟨⟨spec, found⟩, fun e mem => absurd mem List.not_mem_nil⟩
  · intro mentioned
    cases mentioned with
    | none => exact .pure ()
    | some spec =>
        apply Unfailing.bind (.resolve s.resolver s.path spec)
        intro r
        split
        next clause _ required =>
          have below := readable.child (Node.mem_children_of_child? required)
          exact bindNode_unfailing r fun c named => below.child (Node.mem_children_of_child? named)
        next clause _ held =>
          have below := readable.child (Node.mem_children_of_child? held)
          exact .forEach fun part mem => bindPart_unfailing r (below.child (Node.mem_children_of_mem_named mem))
        next => exact .pure ()

theorem emitReExport_unfailing (readable : s.source.Readable n) (exported passedOn : String) (r : Resolved) :
    Unfailing (emitReExport s n exported passedOn r) :=
  .bind (read_unfailing readable) fun _ => .emit _

/-- The names of an item of an export clause can be read. -/
theorem exportedNames_unfailing (readable : s.source.Readable n) : Unfailing (exportedNames s n) := by
  unfold exportedNames
  apply Unfailing.bind
  · exact readOrEmpty_unfailing fun c found => readable.child (Node.mem_children_of_field? found)
  · intro name
    split
    next renamed found =>
      exact .bind (read_unfailing (readable.child (Node.mem_children_of_field? found))) fun _ => .pure _
    next => exact .pure _

theorem processReExport_unfailing (readable : s.source.Readable n) (r : Resolved) :
    Unfailing (processReExport s n r) := by
  unfold processReExport
  split
  next clause _ held =>
    have below := readable.child (Node.mem_children_of_child? held)
    apply Unfailing.forEach
    intro spec listed
    have listedBelow := below.child (Node.mem_children_of_mem_named (Node.mem_named_of_mem_namedOf listed))
    apply Unfailing.bind (exportedNames_unfailing listedBelow)
    intro names
    exact emitReExport_unfailing readable names.2 names.1 r
  next whole _ held =>
    have below := readable.child (Node.mem_children_of_child? held)
    apply Unfailing.bind
    · apply readOrEmpty_unfailing
      intro c first
      exact below.child (Node.mem_children_of_mem_named (List.mem_of_head? first))
    · exact fun name => emitReExport_unfailing readable _ "*" r
  next => exact emitReExport_unfailing readable "*" "*" r

theorem processExportClause_unfailing {clause : Node} (readable : s.source.Readable n)
    (below : s.source.Readable clause) : Unfailing (processExportClause s scope n clause) := by
  apply Unfailing.forEach
  intro spec listed
  have listedBelow := below.child (Node.mem_children_of_mem_named (Node.mem_named_of_mem_namedOf listed))
  apply Unfailing.bind (exportedNames_unfailing listedBelow)
  intro names
  dsimp only
  split
  · exact .exportLater _
  · apply Unfailing.bind (.imported? names.1)
    intro binding
    cases binding with
    | some binding =>
        apply Unfailing.bind (.resolve s.resolver s.path binding.specifier)
        exact fun r => emitReExport_unfailing readable names.2 names.1 r
    | none => exact noteUnknown_unfailing listedBelow _

theorem processDefaultValue_unfailing {value : Node} (readable : s.source.Readable n)
    (below : s.source.Readable value) : Unfailing (processDefaultValue s scope n value) := by
  unfold processDefaultValue
  split
  · exact declare_unfailing below fun _ => functionOf_unfailing below
  · split
    · exact declare_unfailing below fun _ => classOf_unfailing below
    · split
      · apply Unfailing.bind (read_unfailing below)
        intro name
        split
        · exact .exportLater _
        · exact emitWith_unfailing readable _
      · exact emitWith_unfailing readable _

/-- A function without a body is processed without a failure. -/
theorem processFunctionSignature_unfailing (readable : s.source.Readable n) (isExported isDefault : Bool) :
    Unfailing (processFunctionSignature s scope n isExported isDefault) := by
  unfold processFunctionSignature
  apply Unfailing.bind
  · exact readOrEmpty_unfailing fun c found => readable.child (Node.mem_children_of_field? found)
  · intro name
    split
    · exact .pure ()
    · exact declare_unfailing readable fun _ => functionOf_unfailing readable

/-!
### The walk
-/

mutual

/-- The walk over a file or namespace body that can be read comes to its end without a failure. -/
theorem processScope_unfailing (s : Surroundings) (body : Node) (readable : s.source.Readable body) :
    Unfailing (processScope s body) := by
  obtain ⟨scope, scanned⟩ := prescan_ok readable
  rw [processScope_eq]
  apply Unfailing.bind
  · exact .reading fun _ => ⟨⟨scope, scanned⟩, fun e mem => absurd mem List.not_mem_nil⟩
  · intro scope
    apply Unfailing.within
    apply Unfailing.forEach
    intro n statement
    have lighter := Node.weight_lt_of_mem_named statement
    exact processStatement_unfailing s scope n false false
      (readable.child (Node.mem_children_of_mem_named statement))
termination_by 4 * body.weight

theorem processStatement_unfailing (s : Surroundings) (scope : Scope) (n : Node) (isExported isDefault : Bool)
    (readable : s.source.Readable n) : Unfailing (processStatement s scope n isExported isDefault) := by
  rw [processStatement]
  split
  · apply Unfailing.bind (excerpt_unfailing readable)
    exact fun raw => .note (Event.reportsFailure_brokenStatement s.path n.kind _ raw)
  · split
    · split
      · exact .pure ()
      · exact noteUnknown_unfailing readable none
    next form _ => exact .absorb _ (processForm_unfailing s scope form n isExported isDefault readable)
termination_by 4 * n.weight + 3

theorem processForm_unfailing (s : Surroundings) (scope : Scope) (form : StatementForm) (n : Node)
    (isExported isDefault : Bool) (readable : s.source.Readable n) :
    Unfailing (processForm s scope form n isExported isDefault) := by
  rw [processForm_eq]
  cases form with
  | importing => exact processImport_unfailing readable
  | exporting => exact processExport_unfailing s scope n readable
  | function => exact declare_unfailing readable fun _ => functionOf_unfailing readable
  | functionSignature => exact processFunctionSignature_unfailing readable isExported isDefault
  | classDecl => exact declare_unfailing readable fun _ => classOf_unfailing readable
  | interfaceDecl => exact declare_unfailing readable fun _ => interfaceOf_unfailing readable
  | typeAlias => exact declare_unfailing readable fun _ => typeAliasOf_unfailing readable
  | enumDecl => exact declare_unfailing readable fun _ => enumOf_unfailing readable
  | bindings => exact declareVariables_unfailing readable isExported
  | nameSpace => exact processNamespace_unfailing s n isExported readable
  | ambient =>
      cases first : n.named.head? with
      | none => exact noteUnknown_unfailing readable _
      | some inner =>
          have among := List.mem_of_head? first
          have lighter := Node.weight_lt_of_mem_named among
          dsimp only
          split
          · exact processStatement_unfailing s scope inner isExported isDefault
              (readable.child (Node.mem_children_of_mem_named among))
          · exact noteUnknown_unfailing readable _
  | expression =>
      cases wraps : n.child? Node.namespaceKinds with
      | none => exact .pure ()
      | some ns =>
          have lighter := Node.weight_lt_of_child? wraps
          exact processNamespace_unfailing s ns isExported (readable.child (Node.mem_children_of_child? wraps))
termination_by 4 * n.weight + 2

theorem processExport_unfailing (s : Surroundings) (scope : Scope) (n : Node) (readable : s.source.Readable n) :
    Unfailing (processExport s scope n) := by
  rw [processExport_eq]
  split
  next declaration wraps =>
    have lighter := Node.weight_lt_of_field? wraps
    exact processStatement_unfailing s scope declaration true (n.hasChild "default")
      (readable.child (Node.mem_children_of_field? wraps))
  next =>
    split
    next source found =>
      apply Unfailing.bind (read_unfailing (readable.child (Node.mem_children_of_field? found)))
      intro text
      apply Unfailing.bind (.resolve s.resolver s.path _)
      exact fun r => processReExport_unfailing readable r
    next =>
      split
      next value found _ =>
        exact processDefaultValue_unfailing readable (readable.child (Node.mem_children_of_field? found))
      next clause _ _ found _ =>
        exact processExportClause_unfailing readable (readable.child (Node.mem_children_of_child? found))
      next => exact noteUnknown_unfailing readable _
termination_by 4 * n.weight + 1

theorem processNamespace_unfailing (s : Surroundings) (n : Node) (isExported : Bool) (readable : s.source.Readable n) :
    Unfailing (processNamespace s n isExported) := by
  rw [processNamespace_eq]
  split
  next => exact noteUnknown_unfailing readable _
  next nameNode named =>
    split
    · exact noteUnknown_unfailing readable _
    · apply Unfailing.bind (read_unfailing (readable.child (Node.mem_children_of_field? named)))
      intro text
      dsimp only
      split
      next body isBody =>
        have lighter := Node.weight_lt_of_field? isBody
        apply Unfailing.bind
        · exact processScope_unfailing (s.enter _) body (readable.child (Node.mem_children_of_field? isBody))
        · exact fun members => emitWith_unfailing readable _
      next =>
        apply Unfailing.bind (.pure [])
        exact fun members => emitWith_unfailing readable _
termination_by 4 * n.weight + 1

end

/-!
### Files
-/

section Files

variable {src : Source} {root : Node}

/-- What becomes of a file without a failure: an outline, or the report that nothing in it is usable. None of the
    events on the way reports a failure. -/
structure Extraction.Clean (root : Node) (x : Extraction) : Prop where
  outcome : (isHopeless root = false ∧ ∃ ds, x.result = .ok ds) ∨
    (isHopeless root = true ∧ ∃ fault, x.result = .error (.unparsable fault))
  events : ∀ e ∈ x.events, e.reportsFailure = false

/-- A file that can be read is accepted with its specifiers, or turned away because nothing in it is usable. -/
theorem acceptedSpecifiers_of_readable (readable : src.Readable root) :
    (isHopeless root = false ∧ ∃ specs, acceptedSpecifiers src root = .ok specs) ∨
      (isHopeless root = true ∧ ∃ fault, acceptedSpecifiers src root = .error (.unparsable fault)) := by
  unfold acceptedSpecifiers
  cases hopeless : isHopeless root with
  | true =>
      obtain ⟨fault, described⟩ := describeFault_of_readable readable
      have rejected : checkTree src root = .error (.unparsable fault) :=
        checkTree_eq_unparsable_iff.2 ⟨hopeless, by rw [described]; rfl⟩
      rw [rejected]
      exact .inr ⟨rfl, fault, rfl⟩
  | false =>
      have accepted : checkTree src root = .ok () := by simp [checkTree, hopeless]
      obtain ⟨specs, collected⟩ := collectSpecifiers_of_readable root readable
      rw [accepted, collected]
      exact .inl ⟨rfl, specs, rfl⟩

/-- The walk through a file whose texts can be read comes to its end, and no event on the way tells of a failure. -/
theorem extractFrom_unfailing (readable : src.Readable root) (resolver : Resolver) (path : String)
    (table : Entries Resolved) :
    (∃ ds, (extractFrom resolver src path root table).result = .ok ds) ∧
      ∀ e ∈ (extractFrom resolver src path root table).events, e.reportsFailure = false := by
  obtain ⟨⟨ds, ended⟩, quiet⟩ :=
    processScope_unfailing { source := src, path, resolver } root readable { resolved := table }
  simp only [extractFrom, outlineTree, ended]
  constructor
  · exact ⟨ds, rfl⟩
  intro e mem
  rcases List.mem_append.1 mem with walked | last
  · exact quiet e walked
  · rw [List.mem_singleton.1 last]
    exact Event.reportsFailure_outlined path ds.length

end Files

/-- Outlining a file whose texts can all be read does not fail in any other way than by the report that nothing in the
    file is usable: a file with something usable in it has an outline, no statement is given up and no type falls back
    on the way. Nothing else is asked of the tree. With a probe this is so as long as it has an answer for every path
    that it is asked for; where it breaks off, so does the outline, and nothing stands in between. -/
theorem extract_of_readable (src : Source) (path : String) (root : Node) (aliases : Aliases) (options : SearchOptions)
    (probe : Probe) (readable : src.Readable root) :
    (extract src path root aliases).Clean root ∧
      (firstInterruption probe (extractProbing src path root aliases options probe).2 = none →
        (extractProbing src path root aliases options probe).1.Clean root) ∧
      ∀ why, firstInterruption probe (extractProbing src path root aliases options probe).2 = some why →
        (extractProbing src path root aliases options probe).1 = { events := [], result := .error (.interrupted why) } := by
  rw [← extractProbing_interruption]
  unfold extract extractProbing
  rcases acceptedSpecifiers_of_readable readable with ⟨usable, specs, accepted⟩ | ⟨hopeless, fault, rejected⟩
  · have clean : ∀ resolver table, (extractFrom resolver src path root table).Clean root := fun resolver table =>
      have ⟨outlined, quiet⟩ := extractFrom_unfailing readable resolver path table
      ⟨.inl ⟨usable, outlined⟩, quiet⟩
    rw [accepted]
    refine ⟨clean _ _, ?_⟩
    dsimp only
    split
    next why _ =>
      refine ⟨nofun, fun why' same => ?_⟩
      rw [← Option.some.inj same]
    next table _ =>
      refine ⟨fun _ => clean _ _, fun why broken => ?_⟩
      rw [Extraction.answered_iff.1 (extractFrom_answered src path root _ table)] at broken
      cases broken
  · rw [rejected]
    have clean : Extraction.Clean root { events := [], result := .error (.unparsable fault) } :=
      ⟨.inr ⟨hopeless, fault, rfl⟩, fun e mem => absurd mem List.not_mem_nil⟩
    exact ⟨clean, fun _ => clean, nofun⟩

/-- A text for a tree that no grammar gives. -/
def strayFile : Source := ⟨"type A=[é;"⟩

/-- The tree of `strayFile`: a type without an end, a class and an export of nothing at all, a part that was supplied
    and a kind that does not exist, with errors reported here and there. -/
def strayTree : Node :=
  .flawed (.construct "program" none 0 11
    [.construct "type_alias_declaration" none 0 10
      [.construct "identifier" (some "name") 5 6 [],
       .construct "array_type" (some "value") 7 10 [.flawed (.construct "conditional_type" none 10 10 [])]],
     .flawed (.construct "class_declaration" none 0 0 []),
     .construct "class_declaration" none 4 4 [{ Node.construct "class_body" (some "body") 9 3 [] with isMissing := true }],
     .construct "export_statement" none 11 90 [],
     .construct "no_such_kind" (some "value") 3 3 [.construct "ERROR" none 8 10 []]])

/-- The tree is outlined all the same, also with a probe that cannot tell of any path. -/
theorem extract_of_readable_strayTree :
    strayFile.Readable strayTree ∧ isHopeless strayTree = false ∧
      (extract strayFile "a.ts" strayTree []).Clean strayTree ∧
      (extractProbing strayFile "a.ts" strayTree [] {} fun _ => .failed).1.Clean strayTree := by
  have clean := extract_of_readable strayFile "a.ts" strayTree [] {} (fun _ => .failed) (by decide +kernel)
  exact ⟨by decide +kernel, by decide, clean.1, clean.2.1 (by decide +kernel)⟩

/-- Every text of the file can be read, and by text alone it has an outline. But the command that is to confirm the
    specifier cannot be given the path, and what ends the run is no report that nothing in the file is usable. -/
theorem unclean_zeroAliases :
    importingSource.Readable importingTree ∧
      ((extract importingSource "a.ts" importingTree zeroAliases).result.toOption.map fun ds => ds.map (·.head.name)) =
        some ["a"] ∧
      (extractProbing importingSource "a.ts" importingTree zeroAliases {} (makeProbe bareDisk .command none)).2 =
        ["a\x00/x.ts"] ∧
      ¬ (extractProbing importingSource "a.ts" importingTree zeroAliases {}
          (makeProbe bareDisk .command none)).1.Clean importingTree := by
  have broken : (extractProbing importingSource "a.ts" importingTree zeroAliases {}
      (makeProbe bareDisk .command none)).1.interruption? = some .zeroCharacter := by decide +kernel
  refine ⟨by decide +kernel, by decide +kernel, by decide +kernel, fun clean => ?_⟩
  rcases clean.outcome with ⟨_, ds, ended⟩ | ⟨_, fault, ended⟩
  · rw [Extraction.interruption?, ended] at broken
    cases broken
  · rw [Extraction.interruption?, ended] at broken
    cases broken

end Outline
