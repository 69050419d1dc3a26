/-
Module: Outline.Proofs.Module.LocalExports
Layer: Proofs
Purpose: Exports of names of the same scope, by a clause or by default. Such an export asks that every declaration
  of the scope under the name be exported. It is met exactly if the scan ahead of the walk found the name, or if the
  declarations are exported anyhow. The scan finds every name that is declared in plain sight; a namespace at
  statement level, which stands inside an expression, is out of its sight.
Main exports: IsLocalExport, Requests, Met, givenOut, met_processScope_iff
-/
import Outline.Proofs.Module.GivenOut

namespace Outline

/-!
### Requests
-/

/-- An export without errors, neither of a declaration nor from another module. -/
structure IsLocalExport (n : Node) : Prop where
  kind : n.kind = "export_statement"
  faultless : n.hasError = false
  declaration : n.field? "declaration" = none
  source : n.field? "source" = none

/-- What a local export asks for: a name of its clause, as it is or under another name, or a name by default. A
    default export has no clause. -/
inductive Requests (src : Source) (n : Node) : LocalExport → Prop where
  | listed {clause spec : Node} {name : String} (named : n.field? "value" = none ∨ n.hasChild "default" = false)
      (listing : n.child? ["export_clause"] = some clause) (among : spec ∈ clause.namedOf ["export_specifier"])
      (text : nameIn src spec = .ok name) (plain : spec.field? "alias" = none) : Requests src n ⟨name, name⟩
  | renamed {clause spec target : Node} {name exported : String}
      (named : n.field? "value" = none ∨ n.hasChild "default" = false)
      (listing : n.child? ["export_clause"] = some clause) (among : spec ∈ clause.namedOf ["export_specifier"])
      (text : nameIn src spec = .ok name) (renames : spec.field? "alias" = some target)
      (newText : src.textOf target = .ok exported) : Requests src n ⟨name, exported⟩
  | byDefault {value : Node} {name : String} (holds : n.field? "value" = some value)
      (default : n.hasChild "default" = true) (identifier : value.kind = "identifier")
      (text : src.textOf value = .ok name) : Requests src n ⟨name, "default"⟩

/-- The declarations of a scope under the name are exported, by default if the request says so. -/
def Met (s : Surroundings) (ds : List Declaration) (e : LocalExport) : Prop :=
  ∀ d ∈ ds, d.reExportSource? = none → d.head.name = s.qualify e.localName →
    d.head.isExported ∧ (e.exportedName = "default" → d.head.isDefault)

instance (s : Surroundings) (ds : List Declaration) (e : LocalExport) : Decidable (Met s ds e) :=
  inferInstanceAs (Decidable (∀ d ∈ ds, _))

/-!
### Applying exports
-/

section Applying

variable {s : Surroundings} {e : LocalExport} {es : List LocalExport} {d : Declaration} {ds : List Declaration}

/-- In one place two names are one if they are one with the qualifier in front. -/
theorem Surroundings.qualify_injective (s : Surroundings) {a b : String} (same : s.qualify a = s.qualify b) :
    a = b := by
  unfold Surroundings.qualify at same
  split at same
  · exact same
  · exact (String.append_right_inj _).1 same

theorem applyExportsTo_name (qualify : String → String) : (applyExportsTo qualify es d).head.name = d.head.name := by
  unfold applyExportsTo
  split
  · rfl
  · rw [Declaration.head_mapHead]

/-- Marking leaves the source of a re-export as it is. -/
theorem applyExportsTo_reExportSource? (qualify : String → String) :
    (applyExportsTo qualify es d).reExportSource? = d.reExportSource? := by
  unfold applyExportsTo
  split
  · rfl
  · rw [Declaration.reExportSource?_mapHead]

/-- The flags of a declaration, which exports can only set. -/
theorem applyExportsTo_flags (qualify : String → String) (es : List LocalExport) (declaredHere : d.reExportSource? = none) :
    let hits := es.filter fun e => qualify e.localName == d.head.name
    (applyExportsTo qualify es d).head.isExported = (d.head.isExported || !hits.isEmpty) ∧
      (applyExportsTo qualify es d).head.isDefault =
        (d.head.isDefault || hits.any (·.exportedName == "default")) := by
  intro hits
  have noReExport : ¬ d.reExportSource?.isSome = true := by simp [declaredHere]
  unfold applyExportsTo
  rw [if_neg noReExport]
  dsimp only
  rw [Declaration.head_mapHead]
  exact ⟨rfl, rfl⟩

/-- A mark meets the request it stands for. -/
theorem met_of_mem (mark : e ∈ es) : Met s (applyExports s.qualify es ds) e := by
  intro marked mem declaredHere named
  obtain ⟨d, _, rfl⟩ := List.mem_map.1 mem
  rw [applyExportsTo_reExportSource?] at declaredHere
  rw [applyExportsTo_name] at named
  obtain ⟨exported, byDefault⟩ := applyExportsTo_flags s.qualify es declaredHere
  have hit : e ∈ es.filter fun e => s.qualify e.localName == d.head.name := by
    simp [mark, named]
  constructor
  · rw [exported, Bool.or_eq_true]
    right
    rw [Bool.not_eq_true', List.isEmpty_eq_false_iff]
    exact List.ne_nil_of_mem hit
  · intro toDefault
    rw [byDefault, Bool.or_eq_true]
    right
    exact List.any_eq_true.2 ⟨e, hit, beq_iff_eq.2 toDefault⟩

/-- A request that was met before stays met. -/
theorem Met.applyExports (met : Met s ds e) : Met s (applyExports s.qualify es ds) e := by
  intro marked mem declaredHere named
  obtain ⟨d, given, rfl⟩ := List.mem_map.1 mem
  rw [applyExportsTo_reExportSource?] at declaredHere
  rw [applyExportsTo_name] at named
  obtain ⟨exported, byDefault⟩ := applyExportsTo_flags s.qualify es declaredHere
  obtain ⟨wasExported, wasDefault⟩ := met d given declaredHere named
  constructor
  · rw [exported, wasExported, Bool.true_or]
  · intro toDefault
    rw [byDefault, wasDefault toDefault, Bool.true_or]

/-- Marks of other names do not help. -/
theorem met_of_met_applyExports (others : ∀ mark ∈ es, mark.localName ≠ e.localName)
    (met : Met s (applyExports s.qualify es ds) e) : Met s ds e := by
  intro d given declaredHere named
  have noHit : (es.filter fun mark => s.qualify mark.localName == d.head.name) = [] := by
    rw [List.filter_eq_nil_iff]
    intro mark mem hit
    rw [beq_iff_eq, named] at hit
    exact others mark mem (s.qualify_injective hit)
  obtain ⟨exported, byDefault⟩ := applyExportsTo_flags s.qualify es declaredHere
  have flagged := met (applyExportsTo s.qualify es d) (List.mem_map_of_mem given)
    (by rw [applyExportsTo_reExportSource?, declaredHere]) (by rw [applyExportsTo_name, named])
  rw [exported, byDefault, noHit] at flagged
  simpa using flagged

end Applying

/-!
### Walks that go through
-/

section GoingThrough

variable {s : Surroundings} {scope : Scope} {n : Node}

theorem Surroundings.read_eq {text : String} (read : s.source.textOf n = .ok text) : s.read n = pure text := by
  funext links
  simp only [Surroundings.read, Surroundings.reading, Walk.reading, Site.read, Reading.read, Surroundings.site, read]
  rfl

theorem Surroundings.readOrEmpty_eq {name : String} (named : nameIn s.source n = .ok name) :
    s.readOrEmpty (n.field? "name") = pure name := by
  unfold nameIn at named
  split at named
  next target found =>
    rw [found]
    exact s.read_eq named
  next missing =>
    rw [missing]
    cases named
    rfl

theorem read_succeeds (readable : s.source.Readable n) : (s.read n).Succeeds := by
  obtain ⟨text, read⟩ := readable n .here
  rw [Surroundings.read_eq read]
  exact .pure text

theorem excerpt_succeeds (readable : s.source.Readable n) : (excerpt s n).Succeeds :=
  .bind (read_succeeds readable) fun _ => .pure _

/-- A note about an unknown statement does not fail on readable text. -/
theorem noteUnknown_succeeds (readable : s.source.Readable n) (context : Option String) :
    (noteUnknown s n context).Succeeds :=
  .bind (excerpt_succeeds readable) fun _ => .note _

/-- Giving out a re-export does not fail on readable text. -/
theorem emitReExport_succeeds (readable : s.source.Readable n) (exported passedOn : String)
    (r : Specifier.Resolved) : (emitReExport s n exported passedOn r).Succeeds :=
  .bind (read_succeeds readable) fun _ => .emit _

/-- The two names of an export specifier can be read where the text is readable. -/
theorem exportedNames_succeeds (readable : s.source.Readable n) : (exportedNames s n).Succeeds := by
  obtain ⟨name, named⟩ := nameIn_ok readable
  unfold exportedNames
  rw [Surroundings.readOrEmpty_eq named]
  apply Walk.Succeeds.bind (.pure name)
  intro name
  split
  next target renames =>
    have child := Node.mem_children_of_field? renames
    exact .bind (read_succeeds (readable.child child)) fun _ => .pure _
  next => exact .pure _

/-- A statement that can be read is walked to its end: what goes wrong inside is absorbed. -/
theorem processStatement_succeeds (readable : s.source.Readable n) (isExported isDefault : Bool) :
    (processStatement s scope n isExported isDefault).Succeeds := by
  rw [processStatement]
  split
  · exact .bind (excerpt_succeeds readable) fun _ => .note _
  · split
    · split
      · exact .pure ()
      · exact noteUnknown_succeeds readable none
    · exact .absorb _ _

/-- An item of a clause is dealt with if it can be read. -/
theorem exportItem_succeeds {item : Node} (readable : s.source.Readable n) (below : s.source.Readable item) :
    (exportItem s scope n item).Succeeds := by
  apply Walk.Succeeds.bind (exportedNames_succeeds below)
  intro names
  dsimp only
  split
  · exact .exportLater _
  · apply Walk.Succeeds.bind (.imported? _)
    intro binding
    cases binding with
    | none => exact noteUnknown_succeeds below _
    | some binding => exact .bind (.resolve _ _ _) fun r => emitReExport_succeeds readable _ _ r

/-- Every item of a clause that can be read is dealt with. -/
theorem processExportClause_marks (readable : s.source.Readable n) {clause spec : Node} {e : LocalExport}
    (listing : clause ∈ n.children) (among : spec ∈ clause.namedOf ["export_specifier"])
    (names : exportedNames s spec = pure (e.localName, e.exportedName)) (declared : scope.Declares e) :
    (processExportClause s scope n clause).Marks e := by
  rw [processExportClause_eq]
  apply Walk.Marks.forEach among
  · rw [exportItem, names, Walk.pure_bind]
    dsimp only
    rw [if_pos (List.contains_iff_mem.2 declared)]
    exact .exportLater
  · intro other mem
    have child := Node.mem_children_of_mem_named (Node.mem_named_of_mem_namedOf mem)
    exact exportItem_succeeds readable ((readable.child listing).child child)

/-- A local export without a value, or without the keyword, is one of a clause. -/
theorem IsLocalExport.processExport_eq_clause (isLocal : IsLocalExport n) {clause : Node}
    (named : n.field? "value" = none ∨ n.hasChild "default" = false)
    (listing : n.child? ["export_clause"] = some clause) :
    processExport s scope n = processExportClause s scope n clause := by
  rw [processExport_eq, isLocal.declaration, isLocal.source, listing]
  rcases named with missing | plain
  · rw [missing]
  · rw [plain]
    cases n.field? "value" <;> rfl

/-- A local export of a declared name marks it. -/
theorem processExport_marks (readable : s.source.Readable n) (isLocal : IsLocalExport n) {e : LocalExport}
    (requests : Requests s.source n e) (declared : scope.Declares e) : (processExport s scope n).Marks e := by
  cases requests with
  | listed named listing among text plain =>
      rw [isLocal.processExport_eq_clause named listing]
      apply processExportClause_marks readable (Node.mem_children_of_child? listing) among _ declared
      unfold exportedNames
      rw [Surroundings.readOrEmpty_eq text, Walk.pure_bind, plain]
  | renamed named listing among text renames newText =>
      rw [isLocal.processExport_eq_clause named listing]
      apply processExportClause_marks readable (Node.mem_children_of_child? listing) among _ declared
      unfold exportedNames
      rw [Surroundings.readOrEmpty_eq text, Walk.pure_bind, renames]
      dsimp only
      rw [Surroundings.read_eq newText, Walk.pure_bind]
  | byDefault holds default identifier text =>
      rw [processExport_eq, isLocal.declaration, isLocal.source, holds, default]
      dsimp only
      unfold processDefaultValue
      rw [identifier, if_neg (by decide), if_neg (by decide), if_pos rfl, Surroundings.read_eq text, Walk.pure_bind,
        if_pos (List.contains_iff_mem.2 declared)]
      exact .exportLater

/-- A local export statement of readable text leaves behind each request it makes, where the name is declared. -/
theorem processStatement_marks (readable : s.source.Readable n) (isLocal : IsLocalExport n) {e : LocalExport}
    (requests : Requests s.source n e) (declared : scope.Declares e) (isExported isDefault : Bool) :
    (processStatement s scope n isExported isDefault).Marks e := by
  have whole : isBroken n = false := by simp [isBroken, isLocal.kind, isLocal.faultless]
  have form : StatementForm.ofKind? n.kind = some .exporting := by rw [isLocal.kind]; rfl
  rw [processStatement, if_neg (by simp [whole]), form]
  apply Walk.Marks.absorb
  rw [processForm]
  exact processExport_marks readable isLocal requests declared

end GoingThrough

/-!
### Scopes
-/

section Scopes

variable {s : Surroundings} {scope : Scope} {body : Node} {links : Links}

/-- Walk the statements of a body. -/
def statements (s : Surroundings) (scope : Scope) (body : Node) : Walk Unit :=
  Walk.forEach (fun n => processStatement s scope n false false) body.named

/-- The declarations that the statements of a body give out, before its exports are applied. -/
def givenOut (s : Surroundings) (scope : Scope) (body : Node) (links : Links) : List Declaration :=
  (statements s scope body links).declarations

/-- The statements of a readable body are all walked; none stops the walk. -/
theorem statements_succeeds (readable : s.source.Readable body) : (statements s scope body).Succeeds := by
  apply Walk.Succeeds.forEach
  intro n mem
  exact processStatement_succeeds (readable.child (Node.mem_children_of_mem_named mem)) false false

/-- What the walk over a body gives out comes from one of its statements, and what it asks to be marked is declared.
    -/
theorem statements_ensures :
    Walk.Ensures (fun d => ∃ n ∈ body.named, GivenBy s n d) scope.Declares (fun _ => True)
      (statements s scope body) := by
  apply Walk.Ensures.forEach
  intro n mem
  apply (processStatement_ensures s scope n false false).mono
  exact fun d given => ⟨n, mem, given⟩

/-- The walk over a body leaves behind every request of each local export statement in it. -/
theorem statements_marks (readable : s.source.Readable body) {n : Node} (statement : n ∈ body.named)
    (isLocal : IsLocalExport n) {e : LocalExport} (requests : Requests s.source n e) (declared : scope.Declares e) :
    (statements s scope body).Marks e := by
  have readableAt : ∀ m ∈ body.named, s.source.Readable m := by
    intro m mem
    exact readable.child (Node.mem_children_of_mem_named mem)
  apply Walk.Marks.forEach statement
  · exact processStatement_marks (readableAt n statement) isLocal requests declared false false
  · exact fun m mem => processStatement_succeeds (readableAt m mem) false false

/-- Once the scan ahead is done, a scope walks its statements and applies their marks. -/
theorem processScope_eq_within (scanned : prescan s.source body = .ok scope) :
    processScope s body = Walk.within (applyExports s.qualify) (statements s scope body) := by
  have read : (s.reading fun _ => ⟨[], prescan s.source body⟩) = pure scope := by
    funext links
    simp only [Surroundings.reading, Walk.reading, scanned]
    rfl
  rw [processScope_eq, read, Walk.pure_bind]
  rfl

/-- A scope that can be read ends with what its statements give out, its marks applied. -/
theorem processScope_result (readable : s.source.Readable body) (scanned : prescan s.source body = .ok scope)
    (links : Links) :
    (processScope s body links).result =
      .ok (applyExports s.qualify (statements s scope body links).exports (givenOut s scope body links)) := by
  obtain ⟨_, ended⟩ := (statements_succeeds readable : (statements s scope body).Succeeds) links
  rw [processScope_eq_within scanned]
  change Except.map _ (statements s scope body links).result = _
  rw [ended]
  rfl

/-- If a name is declared in plain sight wherever it is declared, and yet was not found, then every declaration under
    it is exported by default already. -/
theorem met_givenOut_of_inPlainSight (readable : s.source.Readable body)
    (scanned : prescan s.source body = .ok scope) {e : LocalExport}
    (plain : ∀ m ∈ body.named, Gives s.source m e.localName → inPlainSight s.source m)
    (unfound : e.localName ∉ scope.declared) : Met s (givenOut s scope body links) e := by
  intro d given declaredHere named
  obtain ⟨m, statement, origin⟩ := (statements_ensures links).declarations d given
  cases origin with
  | reExport source =>
      rw [declaredHere] at source
      cases source
  | byDefault isExported isDefault => exact ⟨isExported, fun _ => isDefault⟩
  | under gives named' =>
      rw [named] at named'
      rw [← s.qualify_injective named'] at gives
      obtain ⟨part, found⟩ := statementScope_ok (readable.child (Node.mem_children_of_mem_named statement))
      have declared := mem_declared_of_inPlainSight gives (plain m statement gives) found
      exact absurd (mem_declared_of_statementScope scanned statement found declared) unfound

end Scopes

/-- In a scope that can be read, a local export of a name is met exactly if the scan ahead found the name, or if the
    declarations under it are given out with the flags already. It is met whenever all statements that give out the
    name do so in plain sight: as a declaration, or as one export or one `declare` of one. -/
theorem met_processScope_iff (s : Surroundings) (body : Node) (links : Links) (readable : s.source.Readable body) :
    ∃ scope ds, prescan s.source body = .ok scope ∧ (processScope s body links).result = .ok ds ∧
      ∀ n ∈ body.named, IsLocalExport n → ∀ e, Requests s.source n e →
        (Met s ds e ↔ e.localName ∈ scope.declared ∨ Met s (givenOut s scope body links) e) ∧
        ((∀ m ∈ body.named, Gives s.source m e.localName → inPlainSight s.source m) → Met s ds e) := by
  obtain ⟨scope, scanned⟩ := prescan_ok readable
  refine ⟨scope, _, scanned, processScope_result readable scanned links, ?_⟩
  intro n statement isLocal e requests
  have found : e.localName ∈ scope.declared →
      Met s (applyExports s.qualify (statements s scope body links).exports (givenOut s scope body links)) e := by
    intro declared
    exact met_of_mem (statements_marks readable statement isLocal requests declared links)
  constructor
  · constructor
    · intro met
      by_cases declared : e.localName ∈ scope.declared
      · exact .inl declared
      · -- every mark is of a name that was found, hence of another one
        right
        apply met_of_met_applyExports _ met
        intro mark mem same
        have declares : mark.localName ∈ scope.declared := (statements_ensures links).exports mark mem
        rw [same] at declares
        exact declared declares
    · rintro (declared | met)
      · exact found declared
      · exact met.applyExports
  · intro plain
    by_cases declared : e.localName ∈ scope.declared
    · exact found declared
    · exact (met_givenOut_of_inPlainSight readable scanned plain declared).applyExports

/-- The top of a file that declares a function and exports it by default in a clause. -/
def plainFile : Surroundings := { source := ⟨"function f(){}export{f as default}"⟩, path := "a.ts" }

/-- The export of `plainFile`. -/
def plainExport : Node :=
  .construct "export_statement" none 14 34
    [.construct "export_clause" none 20 34
      [.construct "export_specifier" none 21 33
        [.construct "identifier" (some "name") 21 22 [], .construct "identifier" (some "alias") 26 33 []]]]

/-- The tree of `plainFile`. -/
def plainTree : Node :=
  .construct "program" none 0 34
    [.construct "function_declaration" none 0 14
      [.construct "identifier" (some "name") 9 10 [],
       .construct "formal_parameters" (some "parameters") 10 12 [],
       .construct "statement_block" (some "body") 12 14 []],
     plainExport]

/-- The function is found ahead, so that its export is met. -/
theorem met_processScope_plainTree :
    plainFile.source.Readable plainTree ∧
      ((processScope plainFile plainTree {}).result.toOption.map fun ds =>
        ds.map fun d => (d.head.name, d.head.isExported, d.head.isDefault)) = some [("f", true, true)] ∧
      ∃ ds, (processScope plainFile plainTree {}).result = .ok ds ∧ Met plainFile ds ⟨"f", "default"⟩ := by
  have readable : plainFile.source.Readable plainTree := by decide +kernel
  obtain ⟨scope, ds, scanned, result, each⟩ := met_processScope_iff plainFile plainTree {} readable
  have isLocal : IsLocalExport plainExport := ⟨rfl, rfl, rfl, rfl⟩
  have request : Requests plainFile.source plainExport ⟨"f", "default"⟩ :=
    .renamed (.inl rfl) rfl (List.mem_singleton.2 rfl) rfl rfl rfl
  have declared : (prescan plainFile.source plainTree).toOption = some ⟨["f"], ["f"]⟩ := by decide +kernel
  rw [scanned] at declared
  cases declared
  have statement : plainExport ∈ plainTree.named := .tail _ (.head _)
  have met := (each plainExport statement isLocal _ request).1.2 (.inl (.head _))
  exact ⟨readable, by decide +kernel, ds, result, met⟩

/-- The top of a file that declares a namespace and exports it in a clause. -/
def hidingFile : Surroundings := { source := ⟨"namespace N{}export{N}"⟩, path := "a.ts" }

/-- The export of `hidingFile`. -/
def hidingExport : Node :=
  .construct "export_statement" none 13 22
    [.construct "export_clause" none 19 22
      [.construct "export_specifier" none 20 21 [.construct "identifier" (some "name") 20 21 []]]]

/-- The tree of `hidingFile`: at statement level, a namespace stands inside an expression. -/
def hidingTree : Node :=
  .construct "program" none 0 22
    [.construct "expression_statement" none 0 13
      [.construct "internal_module" none 0 13
        [.construct "identifier" (some "name") 10 11 [], .construct "statement_block" (some "body") 11 13 []]],
     hidingExport]

/-- The namespace is not found ahead, and its export is lost. -/
theorem unmet_processScope_hidingTree :
    hidingFile.source.Readable hidingTree ∧ hidingExport ∈ hidingTree.named ∧ IsLocalExport hidingExport ∧
      Requests hidingFile.source hidingExport ⟨"N", "N"⟩ ∧
      ¬ ∃ ds, (processScope hidingFile hidingTree {}).result = .ok ds ∧ Met hidingFile ds ⟨"N", "N"⟩ := by
  refine ⟨by decide +kernel, .tail _ (.head _), ⟨rfl, rfl, rfl, rfl⟩, ?_, ?_⟩
  · exact .listed (.inl rfl) rfl (List.mem_singleton.2 rfl) rfl rfl
  · rintro ⟨ds, result, met⟩
    have unmet : (processScope hidingFile hidingTree {}).result.toOption.all
        (fun ds => ¬ Met hidingFile ds ⟨"N", "N"⟩) = true := by
      decide +kernel
    rw [result] at unmet
    simp [Except.toOption, met] at unmet

end Outline
