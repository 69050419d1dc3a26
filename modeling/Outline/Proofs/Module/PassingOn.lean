/-
Module: Outline.Proofs.Module.PassingOn
Layer: Proofs
Purpose: Two ways to pass a name of another module on: to import it, under a name of its own or not, and export that
  name later, or to export it from the module. Both give out a re-export under the same name and of the same origin.
  Its dependency has the name that stands in the export statement, which in the first case is the one it was imported
  under; the original name is not kept with the import.
Main exports: importedNames, processImport_eq_apply, Renames, ImportsAs, ExportsAs, ExportsFrom, PassedOn,
  passedOn_of_extract, renamed_in_passing
-/
import Outline.Proofs.Module.Attribution
import Outline.Proofs.Module.Collected
import Outline.Proofs.Module.Passes
import Outline.Proofs.Module.Unfailing

namespace Outline

open Specifier (Aliases Probe Resolved Resolver SearchOptions Tells)

/-!
### What an import binds
-/

/-- The name that a node gives, if there is one and it is not empty. -/
def nameOf (src : Source) : Option Node → List String
  | some n => (src.textOf n).toOption.toList.filter (· ≠ "")
  | none => []

/-- The names that one part of an import clause binds. -/
def importedInPart (src : Source) (part : Node) : List String :=
  if part.kind = "identifier" then nameOf src (some part)
  else if part.kind = "namespace_import" then nameOf src (part.child? ["identifier"])
  else if part.kind = "named_imports" then
    (part.namedOf ["import_specifier"]).flatMap fun item => nameOf src (item.eitherField? "alias" "name")
  else []

/-- The names that an import binds. -/
def importedNames (src : Source) (n : Node) : List String :=
  match n.child? ["import_require_clause"], n.child? ["import_clause"] with
  | some clause, _ => nameOf src (clause.child? ["identifier"])
  | none, some clause => clause.named.flatMap (importedInPart src)
  | none, none => []

namespace Walk

/-- The walk binds names to `x` and does nothing else. -/
def BindsAll (x : Resolved) (names : List String) (w : Walk Unit) : Prop :=
  ∀ l : Links, w l = { links := { l with imports := Entries.merge l.imports (names.map (·, x)) }, result := .ok () }

namespace BindsAll

variable {x : Resolved}

theorem pure : BindsAll x [] (Pure.pure ()) := fun _ => rfl

theorem bindName (name : String) : BindsAll x ([name].filter (· ≠ "")) (Walk.bindName name x) := by
  intro l
  by_cases empty : name = ""
  · simp only [Walk.bindName, empty, if_true]
    rfl
  · have kept : [name].filter (· ≠ "") = [name] := by simp [empty]
    simp only [Walk.bindName, empty, if_false, kept]
    rfl

/-- What is bound first and what is bound next are all bound. -/
theorem bind {names more : List String} {v w : Walk Unit} (first : BindsAll x names v) (next : BindsAll x more w) :
    BindsAll x (names ++ more) (v >>= fun _ => w) := by
  intro l
  simp only [Bind.bind, Walk.bind, first l, next _, List.map_append, Entries.merge, List.foldl_append, List.append_nil]

/-- Working through a list binds what is bound for each of its elements. -/
theorem forEach {α : Type} {f : α → Walk Unit} {names : α → List String} {vs : List α}
    (each : ∀ v ∈ vs, BindsAll x (names v) (f v)) : BindsAll x (vs.flatMap names) (Walk.forEach f vs) := by
  induction vs with
  | nil => exact pure
  | cons v vs ih =>
      rw [List.forall_mem_cons] at each
      rw [List.flatMap_cons]
      exact bind each.1 (ih each.2)

end BindsAll

end Walk

section Imports

variable {a : Answers} {s : Surroundings} {n : Node}

/-- A node that can be read has the name in it bound. -/
theorem bindNode_bindsAll (x : Resolved) {target : Option Node} (readable : ∀ c, target = some c → s.source.Readable c) :
    Walk.BindsAll x (nameOf s.source target) (bindNode s x target) := by
  cases target with
  | none => exact .bindName ""
  | some c =>
      obtain ⟨text, read⟩ := readable c rfl c .here
      have found : s.readOrEmpty (some c) = pure text := Surroundings.read_eq read
      have names : nameOf s.source (some c) = [text].filter (· ≠ "") := by
        rw [nameOf, read]
        rfl
      rw [bindNode, found, Walk.pure_bind, names]
      exact .bindName text

theorem bindPart_bindsAll (x : Resolved) {part : Node} (readable : s.source.Readable part) :
    Walk.BindsAll x (importedInPart s.source part) (bindPart s x part) := by
  unfold bindPart importedInPart
  split
  · apply bindNode_bindsAll
    rintro _ ⟨⟩
    exact readable
  · split
    · exact bindNode_bindsAll x fun c found => readable.child (Node.mem_children_of_child? found)
    · split
      · apply Walk.BindsAll.forEach
        intro item listed
        have below := readable.child (Node.mem_children_of_mem_named (Node.mem_named_of_mem_namedOf listed))
        exact bindNode_bindsAll x fun c found => below.child (Node.mem_children_of_eitherField? found)
      · exact .pure

/-- What an import does once its specifier is resolved. -/
def bindImported (s : Surroundings) (n : Node) (x : Resolved) : Walk Unit :=
  match n.child? ["import_require_clause"], n.child? ["import_clause"] with
  | some clause, _ => bindNode s x (clause.child? ["identifier"])
  | none, some clause => Walk.forEach (bindPart s x) clause.named
  | none, none => pure ()

/-- An import clause binds the names of all its parts. -/
theorem bindImported_bindsAll (x : Resolved) (readable : s.source.Readable n) :
    Walk.BindsAll x (importedNames s.source n) (bindImported s n x) := by
  unfold bindImported importedNames
  split
  next clause _ required =>
    have below := readable.child (Node.mem_children_of_child? required)
    exact bindNode_bindsAll x fun c named => below.child (Node.mem_children_of_child? named)
  next clause _ held =>
    have below := readable.child (Node.mem_children_of_child? held)
    exact .forEach fun part mem => bindPart_bindsAll x (below.child (Node.mem_children_of_mem_named mem))
  next => exact .pure

/-- A specifier that can be read is read without a change. -/
theorem reading_specifier {mentioned : Option String} (mentions : statementSpecifier s.source n = .ok mentioned) :
    (s.reading fun _ => ⟨[], statementSpecifier s.source n⟩) = pure mentioned := by
  funext l
  simp only [Surroundings.reading, Walk.reading, mentions]
  rfl

theorem processImport_of_none (mentions : statementSpecifier s.source n = .ok none) : processImport s n = pure () := by
  rw [processImport, reading_specifier mentions, Walk.pure_bind]

/-- An import resolves its specifier and binds its names to the module. -/
theorem processImport_of_some {spec : String} (mentions : statementSpecifier s.source n = .ok (some spec)) :
    processImport s n = s.resolve spec >>= bindImported s n := by
  rw [processImport, reading_specifier mentions, Walk.pure_bind]
  rfl

/-- An import that can be read is one step: it asks for its specifier and binds its names. -/
theorem processImport_eq_apply (around : a.Around s) (readable : s.source.Readable n) {spec : String}
    (mentions : statementSpecifier s.source n = .ok (some spec)) {l : Links} (sound : a.Sound l) :
    processImport s n l =
      { links := LinkStep.apply a.look l ⟨spec, importedNames s.source n⟩, result := .ok () } := by
  rw [processImport_of_some mentions, around.resolve_eq]
  simp only [Bind.bind, Walk.bind, sound.resolved.resolve spec, bindImported_bindsAll _ readable _]
  rfl

/-- The steps of an import that can be read are allowed if it may bind its names to what it imports them from. -/
theorem processImport_moves_of_readable (around : a.Around s) (readable : s.source.Readable n)
    {allowed : LinkStep → Prop}
    (fits : ∀ spec, statementSpecifier s.source n = .ok (some spec) → allowed ⟨spec, importedNames s.source n⟩) :
    Walk.Moves a allowed (processImport s n) := by
  obtain ⟨mentioned, mentions⟩ := statementSpecifier_of_readable readable
  cases mentioned with
  | none =>
      rw [processImport_of_none mentions]
      exact (Walk.Quiet.pure ()).moves
  | some spec =>
      refine ⟨[⟨spec, importedNames s.source n⟩], by simpa using fits spec mentions, fun l sound => ?_⟩
      rw [processImport_eq_apply around readable mentions sound]
      rfl

end Imports

/-!
### Names that stay bound
-/

/-- Names that are stored with one value are found with it. -/
theorem Entries.get?_merge_map {α : Type} (m : Entries α) (names : List String) (x : α) (name : String) :
    Entries.get? (Entries.merge m (names.map (·, x))) name =
      if name ∈ names then some x else Entries.get? m name := by
  induction names generalizing m with
  | nil => simp [Entries.merge]
  | cons first names ih =>
      have rest := ih (Entries.put m first x)
      simp only [Entries.merge, List.map_cons, List.foldl_cons] at rest ⊢
      rw [rest]
      by_cases later : name ∈ names
      · simp [later]
      · by_cases same : name = first
        · subst same
          simp [later, Entries.get?_put_self]
        · simp [later, same, Entries.get?_put_of_ne]

/-- The tables are sound, and the name is bound to what a specifier refers to. -/
structure Answers.Bound (a : Answers) (name spec : String) (l : Links) : Prop where
  sound : a.Sound l
  bound : Entries.get? l.imports name = some (a.look spec)

section Bound

variable {a : Answers} {name spec : String} {l : Links}

/-- A step binds the names it is said to bind. -/
theorem Answers.Sound.bound_apply (sound : a.Sound l) (step : LinkStep) (names : name ∈ step.names) :
    a.Bound name step.specifier (LinkStep.apply a.look l step) := by
  refine ⟨sound.apply step, ?_⟩
  rw [LinkStep.apply, LinkStep.bindings, Entries.get?_merge_map, if_pos names]

/-- The binding stays through steps that bind the name, if at all, to the same. -/
theorem Answers.Bound.apply (bound : a.Bound name spec l) {step : LinkStep}
    (same : name ∈ step.names → step.specifier = spec) : a.Bound name spec (LinkStep.apply a.look l step) := by
  by_cases names : name ∈ step.names
  · rw [← same names]
    exact bound.sound.bound_apply step names
  · refine ⟨bound.sound.apply step, ?_⟩
    rw [LinkStep.apply, LinkStep.bindings, Entries.get?_merge_map, if_neg names]
    exact bound.bound

/-- A name stays bound to a module through steps that bind it to no other. -/
theorem Answers.Bound.applyAll (bound : a.Bound name spec l) {steps : List LinkStep}
    (same : ∀ step ∈ steps, name ∈ step.names → step.specifier = spec) :
    a.Bound name spec (LinkStep.applyAll a.look l steps) := by
  induction steps generalizing l with
  | nil => exact bound
  | cons step steps ih =>
      rw [List.forall_mem_cons] at same
      exact ih (bound.apply same.1) same.2

end Bound

/-!
### Walks that give something out
-/

namespace Walk

variable {α β : Type} {P Q : Links → Prop} {d : Declaration}

/-- From tables as in `P`, the walk leads to tables as in `Q`. -/
def Leads (P Q : Links → Prop) (x : Walk α) : Prop := ∀ l, P l → Q (x l).links

/-- From such tables, the walk gives out `d`. -/
def Emits (P : Links → Prop) (d : Declaration) (x : Walk α) : Prop := ∀ l, P l → d ∈ (x l).declarations

/-- What leaves the tables as they are keeps what holds of them. -/
theorem Quiet.leads {a : Answers} {x : Walk α} (quiet : Quiet a x) (sound : ∀ l, P l → a.Sound l) : Leads P P x := by
  intro l holds
  rw [quiet l (sound l holds)]
  exact holds

/-- Working through a list keeps what each step keeps. -/
theorem Leads.forEach {f : α → Walk Unit} {vs : List α} (each : ∀ v ∈ vs, Leads P P (f v))
    (succeeds : ∀ v ∈ vs, Succeeds (f v)) : Leads P P (Walk.forEach f vs) := by
  induction vs with
  | nil => exact fun _ holds => holds
  | cons v vs ih =>
      rw [List.forall_mem_cons] at each succeeds
      intro l holds
      obtain ⟨_, ended⟩ := succeeds.1 l
      rw [Walk.forEach, bind_eq_of_ok ended]
      exact ih each.2 succeeds.2 _ (each.1 l holds)

namespace Emits

/-- What was given out stays so, however the walk goes on. -/
theorem bind {x : Walk α} {f : α → Walk β} (first : Emits P d x) : Emits P d (x >>= f) := by
  intro l holds
  have given := first l holds
  simp only [Bind.bind, Walk.bind]
  split
  · exact given
  · exact List.mem_append_left _ given

/-- The second step is reached if the first succeeds. -/
theorem after {x : Walk α} {f : α → Walk β} (succeeds : Succeeds x) (leads : Leads P Q x)
    (next : ∀ v, Emits Q d (f v)) : Emits P d (x >>= f) := by
  intro l holds
  obtain ⟨v, ended⟩ := succeeds l
  rw [bind_eq_of_ok ended]
  exact List.mem_append_right _ (next v _ (leads l holds))

/-- Failures that are absorbed do not take back what has been given out. -/
theorem absorb {x : Walk Unit} (e : Event) (inner : Emits P d x) : Emits P d (Walk.absorb e x) := by
  intro l holds
  rw [absorb_declarations]
  exact inner l holds

/-- A step is reached if those before it succeed and keep the tables as they have to be. -/
theorem forEach {f : α → Walk Unit} {v : α} {vs : List α} (among : v ∈ vs) (given : Emits P d (f v))
    (succeeds : ∀ u ∈ vs, Succeeds (f u)) (leads : ∀ u ∈ vs, Leads P P (f u)) : Emits P d (Walk.forEach f vs) := by
  induction vs with
  | nil => exact absurd among List.not_mem_nil
  | cons u us ih =>
      rw [List.forall_mem_cons] at succeeds leads
      rcases List.mem_cons.1 among with rfl | among
      · exact bind given
      · exact after succeeds.1 leads.1 fun _ => ih among succeeds.2 leads.2

end Emits

end Walk

/-!
### Clauses
-/

/-- An item of a clause: a name, and the name that stands for it, which is another one if there is an `as`. -/
inductive Renames (src : Source) (item : Node) : String → String → Prop where
  | plain {name : String} (text : nameIn src item = .ok name) (plain : item.field? "alias" = none) :
      Renames src item name name
  | aliased {name newName : String} {target : Node} (text : nameIn src item = .ok name)
      (renames : item.field? "alias" = some target) (newText : src.textOf target = .ok newName) :
      Renames src item name newName

/-- An import without errors that lists a name of a module. -/
structure ImportsAs (src : Source) (n : Node) (spec original bound : String) : Prop where
  kind : n.kind = "import_statement"
  faultless : n.hasError = false
  specifier : statementSpecifier src n = .ok (some spec)
  noRequire : n.child? ["import_require_clause"] = none
  listed : ∃ clause part item, n.child? ["import_clause"] = some clause ∧ part ∈ clause.named ∧
    part.kind = "named_imports" ∧ item ∈ part.namedOf ["import_specifier"] ∧ Renames src item original bound

/-- An export lists a name in its clause. -/
def ListsExport (src : Source) (n : Node) (name exported : String) : Prop :=
  ∃ clause item, n.child? ["export_clause"] = some clause ∧ item ∈ clause.namedOf ["export_specifier"] ∧
    Renames src item name exported

/-- An export without errors and without a source that lists a name. -/
structure ExportsAs (src : Source) (n : Node) (name exported : String) : Prop extends IsLocalExport n where
  noValue : n.field? "value" = none ∨ n.hasChild "default" = false
  listed : ListsExport src n name exported

/-- An export from a module without errors that lists a name of it. -/
structure ExportsFrom (src : Source) (n : Node) (spec original exported : String) : Prop where
  kind : n.kind = "export_statement"
  faultless : n.hasError = false
  declaration : n.field? "declaration" = none
  specifier : statementSpecifier src n = .ok (some spec)
  listed : ListsExport src n original exported

/-- The re-export that a statement gives out under a name. -/
structure PassedOn (src : Source) (n : Node) (x : Resolved) (passedOn name : String) (d : Declaration) : Prop where
  name : d.head.name = name
  source : d.reExportSource? = some x.source
  dependencies : d.head.dependencies = [reExportDependency x passedOn]
  position : d.head.position = src.position n

section Clauses

variable {a : Answers} {s : Surroundings} {scope : Scope} {n item : Node} {spec original bound exported : String}

theorem Renames.exportedNames_eq (renames : Renames s.source item original exported) :
    exportedNames s item = pure (original, exported) := by
  cases renames with
  | plain text plain => rw [exportedNames, Surroundings.readOrEmpty_eq text, Walk.pure_bind, plain]
  | aliased text renames newText =>
      rw [exportedNames, Surroundings.readOrEmpty_eq text, Walk.pure_bind, renames]
      dsimp only
      rw [Surroundings.read_eq newText, Walk.pure_bind]

theorem Renames.mem_nameOf {src : Source} (renames : Renames src item original bound) (named : bound ≠ "") :
    bound ∈ nameOf src (item.eitherField? "alias" "name") := by
  cases renames with
  | plain text plain =>
      rw [Node.eitherField?, plain, Option.none_or]
      unfold nameIn at text
      split at text
      next target found => simp [found, nameOf, text, Except.toOption, named]
      next missing =>
        cases text
        exact absurd rfl named
  | aliased text renames newText => simp [Node.eitherField?, renames, nameOf, newText, Except.toOption, named]

theorem ImportsAs.mem_importedNames {src : Source} (imports : ImportsAs src n spec original bound)
    (named : bound ≠ "") : bound ∈ importedNames src n := by
  obtain ⟨clause, part, item, held, among, kind, listed, renames⟩ := imports.listed
  simp only [importedNames, imports.noRequire, held, List.mem_flatMap]
  refine ⟨part, among, ?_⟩
  rw [importedInPart, if_neg (by simp [kind]), if_neg (by simp [kind]), if_pos kind, List.mem_flatMap]
  exact ⟨item, listed, renames.mem_nameOf named⟩

/-- A re-export is given out with its name, its origin and its one dependency. -/
theorem exists_passedOn (readable : s.source.Readable n) (x : Resolved) (passedOn exported : String) :
    ∃ d, PassedOn s.source n x passedOn (s.qualify exported) d ∧ ∀ P, Walk.Emits P d (emitReExport s n exported passedOn x) := by
  obtain ⟨text, read⟩ := readable n .here
  rw [emitReExport, Surroundings.read_eq read, Walk.pure_bind]
  exact ⟨_, ⟨rfl, rfl, rfl, rfl⟩, fun _ _ _ => List.mem_singleton.2 rfl⟩

/-- An item that lists an imported name gives out its re-export. -/
theorem exportItem_emits (around : a.Around s) (renames : Renames s.source item bound exported)
    (undeclared : bound ∉ scope.declared) {d : Declaration}
    (emits : ∀ P, Walk.Emits P d (emitReExport s n exported bound (a.look spec))) :
    Walk.Emits (a.Bound bound spec) d (exportItem s scope n item) := by
  intro l holds
  have asked : Walk.resolve a.resolver a.file (a.look spec).specifier l = { links := l, result := .ok (a.look spec) } := by
    simp only [Walk.resolve, holds.sound.imports bound _ holds.bound]
  rw [exportItem, renames.exportedNames_eq, Walk.pure_bind]
  dsimp only
  rw [if_neg (mt List.contains_iff_mem.1 undeclared)]
  simp only [Bind.bind, Walk.bind, Walk.imported?, holds.bound, around.resolve_eq, asked]
  exact List.mem_append_right _ (List.mem_append_right _ (emits _ l holds))

/-- A later export of an imported name gives out a re-export of the name it was imported under. -/
theorem processExport_emits_bound (around : a.Around s) (readable : s.source.Readable n)
    (exports : ExportsAs s.source n bound exported) (undeclared : bound ∉ scope.declared) :
    ∃ d, PassedOn s.source n (a.look spec) bound (s.qualify exported) d ∧
      Walk.Emits (a.Bound bound spec) d (processExport s scope n) := by
  obtain ⟨clause, item, held, listed, renames⟩ := exports.listed
  obtain ⟨d, passedOn, emits⟩ := exists_passedOn readable (a.look spec) bound exported
  refine ⟨d, passedOn, ?_⟩
  rw [exports.processExport_eq_clause exports.noValue held, processExportClause_eq]
  have below := readable.child (Node.mem_children_of_child? held)
  apply Walk.Emits.forEach listed (exportItem_emits around renames undeclared emits)
  · intro other mem
    exact exportItem_succeeds readable
      (below.child (Node.mem_children_of_mem_named (Node.mem_named_of_mem_namedOf mem)))
  · exact fun other _ => (exportItem_quiet around scope n other).leads fun _ holds => holds.sound

/-- Each listed name of another module is passed on. -/
theorem processReExport_emits (readable : s.source.Readable n) (listed : ListsExport s.source n original exported)
    {x : Resolved} {d : Declaration} (emits : ∀ P, Walk.Emits P d (emitReExport s n exported original x)) :
    Walk.Emits a.Sound d (processReExport s n x) := by
  obtain ⟨clause, item, held, listed, renames⟩ := listed
  have below := readable.child (Node.mem_children_of_child? held)
  unfold processReExport
  rw [held]
  dsimp only
  apply Walk.Emits.forEach listed
  · rw [renames.exportedNames_eq, Walk.pure_bind]
    exact emits _
  · intro other mem
    have child := Node.mem_children_of_mem_named (Node.mem_named_of_mem_namedOf mem)
    exact .bind (exportedNames_succeeds (below.child child)) fun _ => emitReExport_succeeds readable _ _ _
  · intro other _
    have quiet : Walk.Quiet a (exportedNames s other >>= fun names => emitReExport s n names.2 names.1 x) :=
      .bind (exportedNames_quiet other) fun _ => emitReExport_quiet n _ _ _
    exact quiet.leads fun _ => id

/-- An export from a module gives out a re-export of the name that the module has. -/
theorem processExport_emits_original (around : a.Around s) (readable : s.source.Readable n)
    (exports : ExportsFrom s.source n spec original exported) :
    ∃ d, PassedOn s.source n (a.look spec) original (s.qualify exported) d ∧ Walk.Emits a.Sound d (processExport s scope n) := by
  obtain ⟨d, passedOn, emits⟩ := exists_passedOn readable (a.look spec) original exported
  refine ⟨d, passedOn, ?_⟩
  have form : StatementForm.ofKind? n.kind = some .exporting := by rw [exports.kind]; rfl
  have mentions := exports.specifier
  rw [statementSpecifier_of_exporting form] at mentions
  cases source : n.field? "source" with
  | none =>
      rw [source] at mentions
      cases mentions
  | some target =>
      obtain ⟨text, read⟩ := readable target (.deeper .here (Node.mem_children_of_field? source))
      rw [source, specifierText?, specifierText, read] at mentions
      have same : stripQuotes text = spec := Option.some.inj (Except.ok.inj mentions)
      subst same
      rw [processExport_eq, exports.declaration, source]
      dsimp only
      rw [Surroundings.read_eq read, Walk.pure_bind, around.resolve_eq]
      intro l sound
      simp only [Bind.bind, Walk.bind, sound.resolved.resolve]
      exact List.mem_append_right _ (processReExport_emits readable exports.listed emits _ (sound.apply _))

/-- A statement gives out what the export gives out that it is. -/
theorem processStatement_emits {P : Links → Prop} {d : Declaration} (kind : n.kind = "export_statement")
    (faultless : n.hasError = false) (emits : Walk.Emits P d (processExport s scope n)) :
    Walk.Emits P d (processStatement s scope n false false) := by
  have whole : isBroken n = false := by simp [isBroken, kind, faultless]
  have form : StatementForm.ofKind? n.kind = some .exporting := by rw [kind]; rfl
  rw [processStatement, if_neg (by simp [whole]), form]
  dsimp only
  rw [processForm_eq]
  exact .absorb _ emits

/-- After an import that lists a name, the name is bound to what the module is. -/
theorem processStatement_leads_bound (around : a.Around s) (readable : s.source.Readable n)
    (imports : ImportsAs s.source n spec original bound) (named : bound ≠ "") :
    Walk.Leads a.Sound (a.Bound bound spec) (processStatement s scope n false false) := by
  have whole : isBroken n = false := by simp [isBroken, imports.kind, imports.faultless]
  have form : StatementForm.ofKind? n.kind = some .importing := by rw [imports.kind]; rfl
  intro l sound
  rw [processStatement, if_neg (by simp [whole]), form]
  dsimp only
  rw [processForm_eq]
  dsimp only
  simp only [Walk.absorb, processImport_eq_apply around readable imports.specifier sound]
  exact sound.bound_apply ⟨spec, importedNames s.source n⟩ (imports.mem_importedNames named)

/-- A statement whose imports bind the name, if at all, from the same module keeps it bound. -/
theorem processStatement_keeps_bound (around : a.Around s) (readable : s.source.Readable n)
    (same : ∀ m, n.Inside m → m.kind = "import_statement" → bound ∈ importedNames s.source m →
      statementSpecifier s.source m = .ok (some spec)) :
    Walk.Leads (a.Bound bound spec) (a.Bound bound spec) (processStatement s scope n false false) := by
  let allowed (step : LinkStep) : Prop := bound ∈ step.names → step.specifier = spec
  have allows : Allows a allowed s.source n := by
    refine ⟨fun _ none => absurd none List.not_mem_nil, fun m inside kind s' around' file => ?_⟩
    rw [← file] at readable same
    apply processImport_moves_of_readable around' (readable.of_inside inside)
    intro spec' mentions names
    have mentions' := same m inside kind names
    rw [mentions] at mentions'
    cases mentions'
    rfl
  obtain ⟨steps, fits, each⟩ := (processStatement_steady_of_allows around scope n false false allows).moves
  intro l holds
  rw [each l holds.sound]
  exact holds.applyAll fits

/-- A statement keeps the tables sound. -/
theorem processStatement_keeps_sound (around : a.Around s) (scope : Scope) (n : Node) :
    Walk.Leads a.Sound a.Sound (processStatement s scope n false false) := by
  have anything : Permits (fun _ => True) n := ⟨fun _ => trivial, fun _ _ _ _ => trivial⟩
  obtain ⟨steps, _, each⟩ := (processStatement_steady around scope n false false anything).moves
  intro l sound
  rw [each l sound]
  exact sound.applyAll steps

end Clauses

/-!
### Files
-/

/-- A file passes a name of a module on in two steps: a statement at its top imports it, and a later one exports what
    is imported. The bound name is not declared there, and no import in between binds it to another module. -/
structure InTwoSteps (src : Source) (root n : Node) (spec original bound exported : String) : Prop where
  placed : ∃ before imports between after, root.named = before ++ imports :: (between ++ n :: after) ∧
    ImportsAs src imports spec original bound ∧
    ∀ m ∈ between, ∀ i, m.Inside i → i.kind = "import_statement" → bound ∈ importedNames src i →
      statementSpecifier src i = .ok (some spec)
  named : bound ≠ ""
  exports : ExportsAs src n bound exported
  undeclared : ∀ scope, prescan src root = .ok scope → bound ∉ scope.declared

/-- A file passes a name of a module on in one step, by a statement at its top. -/
structure InOneStep (src : Source) (root n : Node) (spec original exported : String) : Prop where
  statement : n ∈ root.named
  exports : ExportsFrom src n spec original exported

section Files

variable {a : Answers} {s : Surroundings} {scope : Scope} {root n : Node} {spec original bound exported : String}

/-- A name that is imported and exported again is given out by the walk. -/
theorem InTwoSteps.emits (around : a.Around s) (readable : s.source.Readable root)
    (steps : InTwoSteps s.source root n spec original bound exported) (scanned : prescan s.source root = .ok scope) :
    ∃ d, PassedOn s.source n (a.look spec) bound (s.qualify exported) d ∧ Walk.Emits a.Sound d (statements s scope root) := by
  obtain ⟨before, imports, between, after, split, importsAs, same⟩ := steps.placed
  have readableAt : ∀ m ∈ root.named, s.source.Readable m := fun m mem =>
    readable.child (Node.mem_children_of_mem_named mem)
  simp only [split, List.forall_mem_append, List.forall_mem_cons] at readableAt
  obtain ⟨readableBefore, readableImport, readableBetween, readableExport, _⟩ := readableAt
  obtain ⟨d, passedOn, emits⟩ :=
    processExport_emits_bound around readableExport steps.exports (steps.undeclared scope scanned)
  refine ⟨d, passedOn, ?_⟩
  rw [statements, split, Walk.forEach_append]
  have succeeds := fun {m} (readable : s.source.Readable m) =>
    (processStatement_succeeds readable false false : (processStatement s scope m false false).Succeeds)
  apply Walk.Emits.after (.forEach fun m mem => succeeds (readableBefore m mem))
    (.forEach (fun m _ => processStatement_keeps_sound around scope m) fun m mem => succeeds (readableBefore m mem))
  intro _
  apply Walk.Emits.after (succeeds readableImport)
    (processStatement_leads_bound around readableImport importsAs steps.named)
  intro _
  rw [Walk.forEach_append]
  apply Walk.Emits.after (.forEach fun m mem => succeeds (readableBetween m mem))
    (.forEach (fun m mem => processStatement_keeps_bound around (readableBetween m mem) (same m mem))
      fun m mem => succeeds (readableBetween m mem))
  intro _
  exact .bind (processStatement_emits steps.exports.kind steps.exports.faultless emits)

/-- A name that is exported from another module at once is given out too. -/
theorem InOneStep.emits (scope : Scope) (around : a.Around s) (readable : s.source.Readable root)
    (step : InOneStep s.source root n spec original exported) :
    ∃ d, PassedOn s.source n (a.look spec) original (s.qualify exported) d ∧ Walk.Emits a.Sound d (statements s scope root) := by
  have readableAt : ∀ m ∈ root.named, s.source.Readable m := fun m mem =>
    readable.child (Node.mem_children_of_mem_named mem)
  obtain ⟨d, passedOn, emits⟩ := processExport_emits_original around (readableAt n step.statement) step.exports
  refine ⟨d, passedOn, ?_⟩
  apply Walk.Emits.forEach step.statement (processStatement_emits step.exports.kind step.exports.faultless emits)
  · exact fun m mem => processStatement_succeeds (readableAt m mem) false false
  · exact fun m _ => processStatement_keeps_sound around scope m

/-- The re-exports that the statements of a file give out are in its outline. -/
theorem mem_extractFrom {src : Source} (a : Answers) (readable : src.Readable root) :
    ∃ scope ds, prescan src root = .ok scope ∧ (extractFrom a.resolver src a.file root a.table).result = .ok ds ∧
      ∀ d, d.reExportSource?.isSome → Walk.Emits a.Sound d (statements ⟨src, a.file, a.resolver, ""⟩ scope root) →
        d ∈ ds := by
  obtain ⟨scope, scanned⟩ := prescan_ok readable
  have result := processScope_result (s := ⟨src, a.file, a.resolver, ""⟩) readable scanned { resolved := a.table }
  have outlined := extractFrom_result a.resolver src a.file root a.table
  rw [result] at outlined
  refine ⟨scope, _, scanned, outlined, fun d source emits => ?_⟩
  refine List.mem_map.2 ⟨d, emits _ a.sound_start, ?_⟩
  rw [applyExportsTo, if_pos source]

/-- A file in which a well-formed statement at the top mentions a specifier is outlined with that specifier confirmed
    by the probe, unless the probe breaks off. -/
theorem extractProbing_of_mentioned {src : Source} (path : String) (aliases : Aliases) (options : SearchOptions)
    (probe : Probe) (readable : src.Readable root) (parsed : root.kind ≠ "ERROR") (statement : n ∈ root.named)
    (wellFormed : n.isWellFormed = true) (mentions : statementSpecifier src n = .ok (some spec))
    (tells : ∀ p ∈ (extractProbing src path root aliases options probe).2, Tells probe p) :
    ∃ a : Answers, a.file = path ∧
      (Resolver.resolveProbing ⟨aliases, options⟩ (some probe) path spec).result = .ok (a.look spec) ∧
      (extractProbing src path root aliases options probe).1 = extractFrom a.resolver src a.file root a.table := by
  have usable : isHopeless root = false := by
    have some : root.named.any Node.isWellFormed = true := List.any_eq_true.2 ⟨n, statement, wellFormed⟩
    simp [isHopeless, parsed, some]
  obtain ⟨specs, collected⟩ := collectSpecifiers_of_readable root readable
  have accepted : acceptedSpecifiers src root = .ok specs := by
    have checked : checkTree src root = .ok () := by simp [checkTree, usable]
    rw [acceptedSpecifiers, checked, collected]
    rfl
  obtain ⟨table, ended, outlined⟩ :=
    exists_of_extractProbing_answered accepted ((extractProbing_answered_iff src path root aliases options probe).2 tells)
  have own : ∀ spec x, Entries.get? table spec = some x → x.specifier = spec := fun spec x found =>
    Resolver.specifier_of_resolveProbing (Resolver.resolveProbing_of_get? _ _ path specs spec ended found)
  obtain ⟨x, resolved, found⟩ := Resolver.get?_tableProbing_of_mem _ _ path specs spec ended
    ((collectSpecifiers_ok collected statement).1 spec mentions)
  refine ⟨⟨⟨aliases, options⟩, path, table, own⟩, rfl, ?_, outlined⟩
  rw [Answers.look, found, resolved]
  rfl

/-- The outline has a record for a name that is imported and exported again. -/
theorem InTwoSteps.outlined {src : Source} (path : String) (aliases : Aliases) (options : SearchOptions) (probe : Probe)
    (readable : src.Readable root) (parsed : root.kind ≠ "ERROR")
    (steps : InTwoSteps src root n spec original bound exported)
    (tells : ∀ p ∈ (extractProbing src path root aliases options probe).2, Tells probe p) :
    ∃ x ds d, (Resolver.resolveProbing ⟨aliases, options⟩ (some probe) path spec).result = .ok x ∧
      (extractProbing src path root aliases options probe).1.result = .ok ds ∧ d ∈ ds ∧
      PassedOn src n x bound exported d := by
  obtain ⟨before, imports, between, after, split, importsAs, _⟩ := steps.placed
  have statement : imports ∈ root.named := by simp [split]
  have wellFormed : imports.isWellFormed = true := by
    rw [Node.isWellFormed, importsAs.kind, importsAs.faultless]
    decide
  obtain ⟨a, rfl, resolved, same⟩ := extractProbing_of_mentioned path aliases options probe readable parsed statement
    wellFormed importsAs.specifier tells
  obtain ⟨scope, ds, scanned, outlined, each⟩ := mem_extractFrom a readable
  obtain ⟨d, passedOn, emits⟩ := steps.emits (s := ⟨src, a.file, a.resolver, ""⟩) ⟨rfl, rfl⟩ readable scanned
  rw [← same] at outlined
  exact ⟨_, ds, d, resolved, outlined, each d (by simp [passedOn.source]) emits, passedOn⟩

/-- It also has one for a name that is exported from another module at once. -/
theorem InOneStep.outlined {src : Source} (path : String) (aliases : Aliases) (options : SearchOptions) (probe : Probe)
    (readable : src.Readable root) (parsed : root.kind ≠ "ERROR")
    (step : InOneStep src root n spec original exported)
    (tells : ∀ p ∈ (extractProbing src path root aliases options probe).2, Tells probe p) :
    ∃ x ds d, (Resolver.resolveProbing ⟨aliases, options⟩ (some probe) path spec).result = .ok x ∧
      (extractProbing src path root aliases options probe).1.result = .ok ds ∧ d ∈ ds ∧
      PassedOn src n x original exported d := by
  have wellFormed : n.isWellFormed = true := by
    rw [Node.isWellFormed, step.exports.kind, step.exports.faultless]
    decide
  obtain ⟨a, rfl, resolved, same⟩ := extractProbing_of_mentioned path aliases options probe readable parsed
    step.statement wellFormed step.exports.specifier tells
  obtain ⟨scope, ds, _, outlined, each⟩ := mem_extractFrom a readable
  obtain ⟨d, passedOn, emits⟩ :=
    step.emits (s := ⟨src, a.file, a.resolver, ""⟩) scope ⟨rfl, rfl⟩ readable
  rw [← same] at outlined
  exact ⟨_, ds, d, resolved, outlined, each d (by simp [passedOn.source]) emits, passedOn⟩

/-- Different names that are passed on make different dependencies. -/
theorem reExportDependency_inj {x : Resolved} {name name' : String} :
    reExportDependency x name = reExportDependency x name' ↔ name = name' := by
  unfold reExportDependency
  split <;> simp

end Files

/-- A file that passes a name of a module on in two steps and one that passes it on in one step are both outlined, as
    long as the probe has an answer for the paths that it is asked for, and their statements give out re-exports under
    the same name and of the same origin, each with one dependency on the module. In two steps that is a dependency on
    the name bound by the import, in one step on the name that the module has. So the re-exports agree in their
    dependencies exactly if the import does not rename. -/
theorem passedOn_of_extract (path : String) (aliases : Aliases) (options : SearchOptions) (probe : Probe)
    {src src' : Source} {root root' n n' : Node} {spec original bound exported : String}
    (readable : src.Readable root) (parsed : root.kind ≠ "ERROR")
    (twoSteps : InTwoSteps src root n spec original bound exported)
    (tells : ∀ p ∈ (extractProbing src path root aliases options probe).2, Tells probe p)
    (readable' : src'.Readable root') (parsed' : root'.kind ≠ "ERROR")
    (oneStep : InOneStep src' root' n' spec original exported)
    (tells' : ∀ p ∈ (extractProbing src' path root' aliases options probe).2, Tells probe p) :
    ∃ x ds ds' d d', (Resolver.resolveProbing ⟨aliases, options⟩ (some probe) path spec).result = .ok x ∧
      (extractProbing src path root aliases options probe).1.result = .ok ds ∧
      (extractProbing src' path root' aliases options probe).1.result = .ok ds' ∧ d ∈ ds ∧ d' ∈ ds' ∧
      PassedOn src n x bound exported d ∧ PassedOn src' n' x original exported d' ∧
      d.head.name = d'.head.name ∧ d.reExportSource? = d'.reExportSource? ∧
      (d.head.dependencies = d'.head.dependencies ↔ bound = original) := by
  obtain ⟨x, ds, d, resolved, outlined, mem, passedOn⟩ :=
    twoSteps.outlined path aliases options probe readable parsed tells
  obtain ⟨x', ds', d', resolved', outlined', mem', passedOn'⟩ :=
    oneStep.outlined path aliases options probe readable' parsed' tells'
  cases resolved.symm.trans resolved'
  refine ⟨x, ds, ds', d, d', resolved, outlined, outlined', mem, mem', passedOn, passedOn', ?_, ?_, ?_⟩
  · rw [passedOn.name, passedOn'.name]
  · rw [passedOn.source, passedOn'.source]
  · rw [passedOn.dependencies, passedOn'.dependencies, List.cons.injEq, and_iff_left rfl, reExportDependency_inj]

/-- An import of a name, and an export of it under another name. -/
def twoStepSource : Source := ⟨"import{a}from\"./m\";export{a as c}"⟩

/-- The import of `twoStepSource`. -/
def twoStepImport : Node :=
  .construct "import_statement" none 0 19
    [.construct "import_clause" none 6 9
      [.construct "named_imports" none 6 9
        [.construct "import_specifier" none 7 8 [.construct "identifier" (some "name") 7 8 []]]],
     .construct "string" (some "source") 13 18 []]

/-- The export of `twoStepSource`. -/
def twoStepExport : Node :=
  .construct "export_statement" none 19 33
    [.construct "export_clause" none 25 33
      [.construct "export_specifier" none 26 32
        [.construct "identifier" (some "name") 26 27 [], .construct "identifier" (some "alias") 31 32 []]]]

/-- The tree of `twoStepSource`. -/
def twoStepTree : Node := .construct "program" none 0 33 [twoStepImport, twoStepExport]

/-- An export of a name from a module under another name. -/
def oneStepSource : Source := ⟨"export{a as c}from\"./m\""⟩

/-- The export of `oneStepSource`. -/
def oneStepExport : Node :=
  .construct "export_statement" none 0 23
    [.construct "export_clause" none 6 14
      [.construct "export_specifier" none 7 13
        [.construct "identifier" (some "name") 7 8 [], .construct "identifier" (some "alias") 12 13 []]],
     .construct "string" (some "source") 18 23 []]

/-- The tree of `oneStepSource`. -/
def oneStepTree : Node := .construct "program" none 0 23 [oneStepExport]

/-- Where the import does not rename, the re-exports agree. -/
theorem passedOn_of_extract_plain :
    ∃ ds ds' d d', (extractProbing twoStepSource "a.ts" twoStepTree [] {} fun _ => .absent).1.result = .ok ds ∧
      (extractProbing oneStepSource "a.ts" oneStepTree [] {} fun _ => .absent).1.result = .ok ds' ∧ d ∈ ds ∧ d' ∈ ds' ∧
      d.head.name = d'.head.name ∧ d.reExportSource? = d'.reExportSource? ∧
      d.head.dependencies = d'.head.dependencies := by
  have exported : ListsExport oneStepSource oneStepExport "a" "c" :=
    ⟨_, _, rfl, List.mem_singleton.2 rfl, .aliased rfl rfl rfl⟩
  have oneStep : InOneStep oneStepSource oneStepTree oneStepExport "./m" "a" "c" :=
    ⟨List.mem_singleton.2 rfl, rfl, rfl, rfl, rfl, exported⟩
  have imported : ImportsAs twoStepSource twoStepImport "./m" "a" "a" :=
    ⟨rfl, rfl, rfl, rfl, _, _, _, rfl, List.mem_singleton.2 rfl, rfl, List.mem_singleton.2 rfl, .plain rfl rfl⟩
  have listed : ListsExport twoStepSource twoStepExport "a" "c" :=
    ⟨_, _, rfl, List.mem_singleton.2 rfl, .aliased rfl rfl rfl⟩
  have scanned : (prescan twoStepSource twoStepTree).toOption = some {} := by decide +kernel
  have twoSteps : InTwoSteps twoStepSource twoStepTree twoStepExport "./m" "a" "a" "c" := by
    refine ⟨⟨[], twoStepImport, [], [], rfl, imported, nofun⟩, by decide, ⟨⟨rfl, rfl, rfl, rfl⟩, .inl rfl, listed⟩, ?_⟩
    intro scope found
    rw [found] at scanned
    cases scanned
    exact List.not_mem_nil
  have tells : ∀ path, Tells (fun _ => .absent) path := fun _ _ => nofun
  obtain ⟨_, ds, ds', d, d', _, outlined, outlined', mem, mem', _, _, name, source, dependencies⟩ :=
    passedOn_of_extract "a.ts" [] {} (fun _ => .absent) (by decide +kernel) (by decide) twoSteps (fun p _ => tells p)
      (by decide +kernel) (by decide) oneStep (fun p _ => tells p)
  exact ⟨ds, ds', d, d', outlined, outlined', mem, mem', name, source, dependencies.2 rfl⟩

/-- An import of a name under a name of its own, and an export of that under another name. -/
def renamingSource : Source := ⟨"import{a as b}from\"./m\";export{b as c}"⟩

/-- The tree of `renamingSource`. -/
def renamingTree : Node :=
  .construct "program" none 0 38
    [.construct "import_statement" none 0 24
      [.construct "import_clause" none 6 14
        [.construct "named_imports" none 6 14
          [.construct "import_specifier" none 7 13
            [.construct "identifier" (some "name") 7 8 [], .construct "identifier" (some "alias") 12 13 []]]],
       .construct "string" (some "source") 18 23 []],
     .construct "export_statement" none 24 38
      [.construct "export_clause" none 30 38
        [.construct "export_specifier" none 31 37
          [.construct "identifier" (some "name") 31 32 [], .construct "identifier" (some "alias") 36 37 []]]]]

/-- What stands in an outline of re-exports: names, origins and dependencies. -/
def reExportsOf (x : Extraction) : Option (List (String × Option String × List Dependency)) :=
  x.result.toOption.map fun ds => ds.map fun d => (d.head.name, d.reExportSource?, d.head.dependencies)

/-- Where the import renames, the dependency of the re-export is on a name that the module need not have. -/
theorem renamed_in_passing :
    reExportsOf (extractProbing renamingSource "a.ts" renamingTree [] {} fun _ => .absent).1 =
        some [("c", some "m", [.internal "m" ["b"]])] ∧
      reExportsOf (extractProbing oneStepSource "a.ts" oneStepTree [] {} fun _ => .absent).1 =
        some [("c", some "m", [.internal "m" ["a"]])] := by
  decide +kernel

end Outline
