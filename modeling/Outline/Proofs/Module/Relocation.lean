/-
Module: Outline.Proofs.Module.Relocation
Layer: Proofs
Purpose: An export of names that its scope declares may stand anywhere in the scope. It leaves the tables alone and
  gives out nothing but marks, the same from all tables; the scan ahead finds no name in it; and marks are applied when
  the scope ends, in whatever order they were made. So declarations and tables do not tell where it stands.
Main exports: Walk.Marking, ExportsDeclared, processStatement_marking, Outcome.SameButMarks, applyExports_perm,
  processScope_relocated
-/
import Outline.Proofs.Module.Isolation

namespace Outline

/-!
### Walks that only mark
-/

section Marking

variable {α β : Type}

/-- From any tables, the walk leaves these as they are, gives out nothing but the marks `es`, and ends with `r`. -/
structure Walk.Marking (es : List LocalExport) (r : Except Undecodable α) (x : Walk α) : Prop where
  links : ∀ l, (x l).links = l
  declarations : ∀ l, (x l).declarations = []
  exports : ∀ l, (x l).exports = es
  result : ∀ l, (x l).result = r

namespace Walk.Marking

variable {es es' : List LocalExport}

theorem pure (a : α) : Marking [] (.ok a) (Pure.pure a : Walk α) := ⟨fun _ => rfl, fun _ => rfl, fun _ => rfl, fun _ => rfl⟩

theorem exportLater (e : LocalExport) : Marking [e] (.ok ()) (Walk.exportLater e) :=
  ⟨fun _ => rfl, fun _ => rfl, fun _ => rfl, fun _ => rfl⟩

/-- Two walks in turn leave behind the requests of both, those of the first before those of the second. -/
theorem bind {x : Walk α} {f : α → Walk β} {a : α} {r : Except Undecodable β} (first : Marking es (.ok a) x)
    (next : Marking es' r (f a)) : Marking (es ++ es') r (x >>= f) := by
  have whole := fun l => bind_eq_of_ok (f := f) (first.result l)
  constructor
  · intro l
    rw [whole l]
    exact (next.links _).trans (first.links l)
  · intro l
    rw [whole l, first.declarations, next.declarations]
    rfl
  · intro l
    rw [whole l, first.exports, next.exports]
  · intro l
    rw [whole l]
    exact next.result _

/-- After a failure there is no further step. -/
theorem stop {x : Walk α} {span : Undecodable} (first : Marking es (.error span) x) (f : α → Walk β) :
    Marking es (.error span) (x >>= f) := by
  have ended := first.result
  constructor
  all_goals
    intro l
    simp only [Bind.bind, Walk.bind, ended l]
  · exact first.links l
  · exact first.declarations l
  · exact first.exports l

/-- Marks made before a failure stay when it is absorbed. -/
theorem absorb {x : Walk Unit} {r : Except Undecodable Unit} (event : Event) (inner : Marking es r x) :
    Marking es (.ok ()) (Walk.absorb event x) := by
  have ended := inner.result
  cases r with
  | error span =>
      constructor
      all_goals
        intro l
        simp only [Walk.absorb, ended l]
      · exact inner.links l
      · exact inner.declarations l
      · exact inner.exports l
  | ok _ =>
      constructor
      all_goals
        intro l
        simp only [Walk.absorb, ended l]
      · exact inner.links l
      · exact inner.declarations l
      · exact inner.exports l

/-- Steps that only mark do so one after the other, up to the first that fails. -/
theorem forEach {f : α → Walk Unit} {as : List α} (each : ∀ a ∈ as, ∃ es r, Marking es r (f a)) :
    ∃ es r, Marking es r (Walk.forEach f as) := by
  induction as with
  | nil => exact ⟨[], .ok (), .pure ()⟩
  | cons a as ih =>
      obtain ⟨es, r, first⟩ := each a List.mem_cons_self
      obtain ⟨more, ended, rest⟩ := ih fun b mem => each b (List.mem_cons_of_mem a mem)
      cases r with
      | error span => exact ⟨es, .error span, first.stop _⟩
      | ok _ => exact ⟨es ++ more, ended, first.bind rest⟩

end Walk.Marking

end Marking

/-!
### Exports of declared names
-/

/-- All names that an export mentions are declared: those of its clause, or the one that it exports by default. -/
inductive ExportsDeclared (src : Source) (scope : Scope) (n : Node) : Prop where
  | listed {clause : Node} (named : n.field? "value" = none ∨ n.hasChild "default" = false)
      (listing : n.child? ["export_clause"] = some clause)
      (declared : ∀ spec ∈ clause.namedOf ["export_specifier"], ∃ name, nameIn src spec = .ok name ∧
        name ∈ scope.declared) : ExportsDeclared src scope n
  | byDefault {value : Node} {name : String} (holds : n.field? "value" = some value)
      (default : n.hasChild "default" = true) (identifier : value.kind = "identifier")
      (text : src.textOf value = .ok name) (declared : name ∈ scope.declared) : ExportsDeclared src scope n

section Exports

variable {s : Surroundings} {scope : Scope} {n : Node}

/-- A text that cannot be read ends the walk at once. -/
theorem read_marking (s : Surroundings) (n : Node) : Walk.Marking [] (s.source.textOf n) (s.read n) :=
  ⟨fun _ => rfl, fun _ => rfl, fun _ => rfl, fun _ => rfl⟩

/-- The names of a specifier are read, or the walk ends where its new name cannot be. -/
theorem exportedNames_marking {spec : Node} {name : String} (named : nameIn s.source spec = .ok name) :
    (∃ exported, Walk.Marking [] (.ok (name, exported)) (exportedNames s spec)) ∨
      ∃ span, Walk.Marking [] (.error span) (exportedNames s spec) := by
  unfold exportedNames
  rw [Surroundings.readOrEmpty_eq named, Walk.pure_bind]
  cases spec.field? "alias" with
  | none => exact .inl ⟨name, .pure _⟩
  | some renamed =>
      have read := read_marking s renamed
      cases text : s.source.textOf renamed with
      | ok exported =>
          rw [text] at read
          exact .inl ⟨exported, read.bind (.pure _)⟩
      | error span =>
          rw [text] at read
          exact .inr ⟨span, read.stop _⟩

/-- An export clause of declared names does nothing but ask for markings, whatever the tables are. -/
theorem processExportClause_marking {clause : Node}
    (declared : ∀ spec ∈ clause.namedOf ["export_specifier"], ∃ name, nameIn s.source spec = .ok name ∧
      name ∈ scope.declared) : ∃ es r, Walk.Marking es r (processExportClause s scope n clause) := by
  apply Walk.Marking.forEach
  intro spec among
  obtain ⟨name, named, found⟩ := declared spec among
  rcases exportedNames_marking named with ⟨exported, names⟩ | ⟨span, fails⟩
  · refine ⟨[] ++ [⟨name, exported⟩], .ok (), names.bind ?_⟩
    dsimp only
    rw [if_pos (List.contains_iff_mem.2 found)]
    exact .exportLater _
  · exact ⟨[], .error span, fails.stop _⟩

/-- An export of declared names only marks. -/
theorem processStatement_marking (isLocal : IsLocalExport n) (declared : ExportsDeclared s.source scope n)
    (isExported isDefault : Bool) :
    ∃ es, Walk.Marking es (.ok ()) (processStatement s scope n isExported isDefault) := by
  have whole : isBroken n = false := by simp [isBroken, isLocal.kind, isLocal.faultless]
  have form : StatementForm.ofKind? n.kind = some .exporting := by rw [isLocal.kind]; rfl
  have inner : ∃ es r, Walk.Marking es r (processExport s scope n) := by
    cases declared with
    | listed named listing declared =>
        rw [isLocal.processExport_eq_clause named listing]
        exact processExportClause_marking declared
    | @byDefault value name holds default identifier text declared =>
        have single : processExport s scope n = Walk.exportLater { localName := name, exportedName := "default" } := by
          rw [processExport_eq, isLocal.declaration, isLocal.source, holds, default]
          dsimp only
          unfold processDefaultValue
          rw [identifier, if_neg (by decide), if_neg (by decide), if_pos rfl, Surroundings.read_eq text,
            Walk.pure_bind, if_pos (List.contains_iff_mem.2 declared)]
        rw [single]
        exact ⟨_, _, .exportLater _⟩
  obtain ⟨es, r, marking⟩ := inner
  refine ⟨es, ?_⟩
  rw [processStatement, if_neg (by simp [whole]), form]
  apply Walk.Marking.absorb
  rw [processForm]
  exact marking

end Exports

/-!
### The scan ahead
-/

/-- The scan finds nothing in a local export, so that it may be left out. -/
theorem prescan_without_export {src : Source} {body n : Node} {before after : List Node} (isLocal : IsLocalExport n)
    (holds : body.children = before ++ n :: after) :
    prescan src body = prescan src (body.withChildren (before ++ after)) := by
  by_cases named : n.isNamed = true
  · have nothing : statementScope src n = .ok {} := by
      rw [statementScope, unwrapped?, if_pos isLocal.kind, isLocal.declaration]
    simp only [prescan, Node.named, Node.withChildren, holds, List.filter_append, List.filter_cons_of_pos named,
      List.mapM_append, List.mapM_cons, nothing]
    cases (before.filter (·.isNamed)).mapM (statementScope src) with
    | error span => rfl
    | ok first =>
        cases (after.filter (·.isNamed)).mapM (statementScope src) with
        | error span => rfl
        | ok last => simp [bind, Except.bind, pure, Except.pure]
  · simp [prescan, Node.named, Node.withChildren, holds, named]

/-!
### The order of marks
-/

/-- Marks are applied in any order. -/
theorem applyExports_perm (qualify : String → String) {es es' : List LocalExport} (perm : es.Perm es')
    (ds : List Declaration) : applyExports qualify es ds = applyExports qualify es' ds := by
  unfold applyExports
  apply List.map_congr_left
  intro d _
  have hits := perm.filter fun e => qualify e.localName == d.head.name
  unfold applyExportsTo
  dsimp only
  rw [hits.isEmpty_eq, hits.any_eq]

/-- Two walks leave behind the same, but the first has made the marks `es` besides. A walk that fails leaves its marks
    to nobody. -/
structure Outcome.SameButMarks (es : List LocalExport) (o o' : Outcome Unit) : Prop where
  links : o.links = o'.links
  declarations : o.declarations = o'.declarations
  result : o.result = o'.result
  exports : o'.result = .ok () → o.exports.Perm (es ++ o'.exports)

/-- A step that only marks may be left out, but for its marks. The induction is on the steps before it: a failure among
    them ends both walks alike. -/
theorem Walk.Marking.forEach_without {α : Type} {f : α → Walk Unit} {a : α} {es : List LocalExport}
    (marking : Walk.Marking es (.ok ()) (f a)) (before after : List α) (l : Links) :
    (Walk.forEach f (before ++ a :: after) l).SameButMarks es (Walk.forEach f (before ++ after) l) := by
  induction before generalizing l with
  | nil =>
      rw [List.nil_append, List.nil_append, Walk.forEach, Walk.bind_eq_of_ok (marking.result l), marking.links,
        marking.declarations, marking.exports]
      exact ⟨rfl, rfl, rfl, fun _ => .refl _⟩
  | cons b before ih =>
      rw [List.cons_append, List.cons_append, Walk.forEach, Walk.forEach]
      cases ended : (f b l).result with
      | error span =>
          simp only [Bind.bind, Walk.bind, ended]
          exact ⟨rfl, rfl, rfl, fun done => by cases done⟩
      | ok _ =>
          obtain ⟨links, declarations, result, exports⟩ := ih (f b l).links
          rw [Walk.bind_eq_of_ok ended, Walk.bind_eq_of_ok ended]
          refine ⟨links, congrArg ((f b l).declarations ++ ·) declarations, result, fun done => ?_⟩
          calc
            ((f b l).exports ++ (Walk.forEach f (before ++ a :: after) (f b l).links).exports).Perm
                ((f b l).exports ++ (es ++ (Walk.forEach f (before ++ after) (f b l).links).exports)) :=
              (exports done).append_left _
            List.Perm _ (es ++ ((f b l).exports ++ (Walk.forEach f (before ++ after) (f b l).links).exports)) :=
              List.perm_append_comm_assoc ..

/-- Walks with the same marks besides those of a third one end alike when their marks are applied. -/
theorem Outcome.SameButMarks.within {x y z : Walk Unit} {es : List LocalExport} {l : Links}
    (left : (x l).SameButMarks es (z l)) (right : (y l).SameButMarks es (z l)) (qualify : String → String) :
    (Walk.within (applyExports qualify) x l).SameButEvents (Walk.within (applyExports qualify) y l) := by
  refine ⟨left.links.trans right.links.symm, rfl, rfl, ?_⟩
  simp only [Walk.within, left.result, right.result, left.declarations, right.declarations]
  cases ended : (z l).result with
  | error span => rfl
  | ok _ =>
      have marks := (left.exports ended).trans (right.exports ended).symm
      exact congrArg Except.ok (applyExports_perm qualify marks _)

/-- A scope in which the scan ahead fails ends with its failure. -/
theorem processScope_of_unscanned {s : Surroundings} {body : Node} {span : Undecodable}
    (failed : prescan s.source body = .error span) (links : Links) :
    processScope s body links = { links, result := .error span } := by
  rw [processScope_eq]
  simp only [Surroundings.reading, Walk.reading, failed, Bind.bind, Walk.bind]

/-- An export of names of the same scope, all of them declared there, may be moved to any place among the statements of
    the scope: the declarations stay the same with all their flags, and so do the tables. -/
theorem processScope_relocated (s : Surroundings) (body n : Node) (before after before' after' : List Node)
    (links : Links) (holds : body.children = before ++ n :: after) (others : before ++ after = before' ++ after')
    (named : n.isNamed = true) (isLocal : IsLocalExport n)
    (declared : ∀ scope, prescan s.source body = .ok scope → ExportsDeclared s.source scope n) :
    (processScope s body links).SameButEvents
      (processScope s (body.withChildren (before' ++ n :: after')) links) := by
  have moved : prescan s.source (body.withChildren (before' ++ n :: after')) = prescan s.source body := by
    rw [prescan_without_export isLocal rfl, prescan_without_export isLocal holds, others]
    rfl
  cases scanned : prescan s.source body with
  | error span =>
      rw [processScope_of_unscanned scanned, processScope_of_unscanned (moved.trans scanned)]
      exact ⟨rfl, rfl, rfl, rfl⟩
  | ok scope =>
      obtain ⟨es, marking⟩ := processStatement_marking isLocal (declared scope scanned) false false
      have without := fun before after : List Node =>
        marking.forEach_without (f := fun n => processStatement s scope n false false) before after links
      have here := without (before.filter (·.isNamed)) (after.filter (·.isNamed))
      have there := without (before'.filter (·.isNamed)) (after'.filter (·.isNamed))
      rw [← List.filter_append, ← others, List.filter_append] at there
      rw [processScope_eq_within scanned, processScope_eq_within (moved.trans scanned)]
      simp only [statements, Node.named, Node.withChildren, holds, List.filter_append, List.filter_cons_of_pos named]
      exact here.within there s.qualify

/-- The top of a file that exports a function by default before it declares it. -/
def aheadFile : Surroundings := { source := ⟨"export{f as default}function f(){}"⟩, path := "a.ts" }

/-- The export of `aheadFile`. -/
def aheadExport : Node :=
  .construct "export_statement" none 0 20
    [.construct "export_clause" none 6 20
      [.construct "export_specifier" none 7 19
        [.construct "identifier" (some "name") 7 8 [], .construct "identifier" (some "alias") 12 19 []]]]

/-- The function of `aheadFile`. -/
def aheadFunction : Node :=
  .construct "function_declaration" none 20 34
    [.construct "identifier" (some "name") 29 30 [],
     .construct "formal_parameters" (some "parameters") 30 32 [],
     .construct "statement_block" (some "body") 32 34 []]

/-- The tree of `aheadFile`. -/
def aheadTree : Node := .construct "program" none 0 34 [aheadExport, aheadFunction]

/-- Behind the function the export does what it does in front of it: the function is exported by default. -/
theorem processScope_relocated_behind :
    (∀ scope, prescan aheadFile.source aheadTree = .ok scope →
        ExportsDeclared aheadFile.source scope aheadExport) ∧
      (processScope aheadFile aheadTree {}).SameButEvents
        (processScope aheadFile (aheadTree.withChildren [aheadFunction, aheadExport]) {}) ∧
      ((processScope aheadFile aheadTree {}).result.toOption.map fun ds =>
        ds.map fun d => (d.head.name, d.head.isExported, d.head.isDefault)) = some [("f", true, true)] := by
  have declared : ∀ scope, prescan aheadFile.source aheadTree = .ok scope →
      ExportsDeclared aheadFile.source scope aheadExport := by
    intro scope scanned
    have found : (prescan aheadFile.source aheadTree).toOption = some ⟨["f"], ["f"]⟩ := by decide +kernel
    rw [scanned] at found
    cases found
    refine .listed (.inl rfl) rfl fun spec among => ⟨"f", ?_, .head _⟩
    rw [List.mem_singleton.1 among]
    rfl
  refine ⟨declared, ?_, by decide +kernel⟩
  exact processScope_relocated aheadFile aheadTree aheadExport [] [aheadFunction] [aheadFunction] [] {} rfl rfl rfl
    ⟨rfl, rfl, rfl, rfl⟩ declared

end Outline
