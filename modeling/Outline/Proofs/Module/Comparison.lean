/-
Module: Outline.Proofs.Module.Comparison
Layer: Proofs
Purpose: Two walks over the same statements, from other tables, with another resolver or behind another qualifier.
  A `Comparison` says what may differ between the two and which few facts about names, tables and resolutions make
  the differences harmless. Whatever the tree looks like, the two walks then agree: they give out declarations that
  are alike, one for one, and fail alike. Every statement about two runs over one tree is an instance.
Main exports: Comparison, Comparison.equalTables, Surroundings.Alike, Surroundings.Alike.processScope
-/
import Outline.Proofs.Declaration.Likeness
import Outline.Proofs.Module.Equations
import Outline.Proofs.Tree.Inside
import Outline.Proofs.Walk.Agreement

namespace Outline

open Specifier (Resolved Resolver)

/-- A name behind a qualifier, which may be empty. -/
def qualifiedBy (qualifier name : String) : String :=
  if qualifier = "" then name else qualifier ++ "." ++ name

theorem qualifiedBy_congr {q q' : String} (n : String) (same : q = q') : qualifiedBy q n = qualifiedBy q' n := by
  rw [same]

/-- Equal qualifiers stay equal, whatever namespace is entered. -/
theorem qualifiedBy_enter {q q' n : String} (same : q = q') (_ : True) : qualifiedBy q n = qualifiedBy q' n :=
  qualifiedBy_congr n same

/-- What may differ between two walks over the same statements, one with the resolver `r` and one with `r'`. -/
structure Comparison (r r' : Resolver) extends Likeness where
  /-- Qualifiers that may stand for each other. -/
  qualifier : String → String → Prop
  /-- Names of namespaces behind which qualifiers may still stand for each other. -/
  entered : String → Prop
  /-- Tables that may stand for each other. -/
  links : Links → Links → Prop
  /-- Resolutions that may stand for each other. -/
  resolved : Resolved → Resolved → Prop
  /-- Specifiers of imported names that may stand for each other. -/
  specifier : String → String → Prop
  specifier_refl (spec : String) : specifier spec spec
  name_qualifiedBy {q q' : String} (n : String) : qualifier q q' → name (qualifiedBy q n) (qualifiedBy q' n)
  qualifier_enter {q q' n : String} : qualifier q q' → entered n → qualifier (qualifiedBy q n) (qualifiedBy q' n)
  /-- Related tables tell of related dependencies. -/
  dependencies_find {l l' : Links} (code : String) : links l l' →
    dependencies (findDependencies l.imports code) (findDependencies l'.imports code)
  dependencies_reExport {x x' : Resolved} (n : String) : resolved x x' →
    dependencies [reExportDependency x n] [reExportDependency x' n]
  origin_source {x x' : Resolved} : resolved x x' → origin x.source x'.source
  /-- A name is imported in both of two related tables or in none. -/
  imported {l l' : Links} (n : String) : links l l' →
    Option.Rel (fun b b' : Resolved => specifier b.specifier b'.specifier)
      (Entries.get? l.imports n) (Entries.get? l'.imports n)
  links_bind {l l' : Links} {x x' : Resolved} (n : String) : links l l' → resolved x x' →
    links { l with imports := Entries.put l.imports n x } { l' with imports := Entries.put l'.imports n x' }
  /-- Resolving keeps tables related. -/
  resolve {spec spec' : String} : specifier spec spec' →
    Walk.Agrees links (Declaration.Alike toLikeness) resolved (Walk.resolve r path spec) (Walk.resolve r' path spec')

variable {r r' : Resolver} {α β : Type}

/-- Agreement of two walks under a comparison. -/
abbrev Comparison.Walks (c : Comparison r r') (R : α → β → Prop) (x : Walk α) (y : Walk β) : Prop :=
  Walk.Agrees c.links (Declaration.Alike c.toLikeness) R x y

/-- Two walks that start from equal tables and resolve specifiers alike: whatever may differ between them comes from
    their qualifiers. -/
def Comparison.equalTables (k : Likeness) (sameDependencies : ∀ ds, k.dependencies ds ds)
    (sameOrigin : ∀ source, k.origin source source)
    (sameResolve : ∀ spec, r.resolve k.path spec = r'.resolve k.path spec)
    (qualifier : String → String → Prop) (entered : String → Prop)
    (qualifies : ∀ {q q'} n, qualifier q q' → k.name (qualifiedBy q n) (qualifiedBy q' n))
    (enters : ∀ {q q' n}, qualifier q q' → entered n → qualifier (qualifiedBy q n) (qualifiedBy q' n)) :
    Comparison r r' where
  toLikeness := k
  qualifier := qualifier
  entered := entered
  links := (· = ·)
  resolved := (· = ·)
  specifier := (· = ·)
  specifier_refl _ := rfl
  name_qualifiedBy := qualifies
  qualifier_enter := enters
  dependencies_find := by
    rintro l _ code rfl
    exact sameDependencies _
  dependencies_reExport := by
    rintro x _ n rfl
    exact sameDependencies _
  origin_source := by
    rintro x _ rfl
    exact sameOrigin _
  imported := by
    rintro l _ n rfl
    cases Entries.get? l.imports n with
    | none => exact .none
    | some b => exact .some rfl
  links_bind := by
    rintro l _ x _ n rfl rfl
    rfl
  resolve := by
    rintro spec _ rfl l _ rfl
    unfold Walk.resolve
    split
    · exact ⟨rfl, .nil, rfl, rfl, .ok rfl⟩
    · refine ⟨?_, .nil, rfl, rfl, .ok (sameResolve spec)⟩
      exact congrArg (fun x => { l with resolved := Entries.put l.resolved spec x }) (sameResolve spec)

/-- Surroundings of one file that differ only in the resolver and in the qualifier. -/
inductive Surroundings.Alike (c : Comparison r r') : Surroundings → Surroundings → Prop where
  | intro (source : Source) {q q' : String} (qualifiers : c.qualifier q q') :
      Surroundings.Alike c ⟨source, c.path, r, q⟩ ⟨source, c.path, r', q'⟩

namespace Surroundings.Alike

variable {c : Comparison r r'} {s s' : Surroundings}

/-- Two surroundings that are compared have one source. -/
theorem source_eq (alike : Alike c s s') : s'.source = s.source := by
  cases alike; rfl

theorem path_eq (alike : Alike c s s') : s'.path = s.path := by
  cases alike; rfl

theorem names (alike : Alike c s s') (n : String) : c.name (s.qualify n) (s'.qualify n) := by
  cases alike with
  | intro source qualifiers => exact c.name_qualifiedBy n qualifiers

/-- The addresses of a declaration correspond to each other. -/
theorem uris (alike : Alike c s s') (n : String) :
    c.Uris (declarationUri s.path (s.qualify n)) (declarationUri s'.path (s'.qualify n)) := by
  have names := alike.names n
  cases alike with
  | intro source qualifiers => exact c.uris_of_name names

/-- Inside a namespace the surroundings stay comparable. -/
theorem enter (alike : Alike c s s') {n : String} (entered : c.entered n) : Alike c (s.enter n) (s'.enter n) := by
  cases alike with
  | intro source qualifiers => exact .intro source (c.qualifier_enter qualifiers entered)

/-- With corresponding tables the sites of declarations correspond. -/
theorem site (alike : Alike c s s') {l l' : Links} (links : c.links l l') :
    Site.Alike c.toLikeness (s.site l.imports) (s'.site l'.imports) := by
  cases alike with
  | intro source qualifiers =>
      exact .intro source (fun n => c.name_qualifiedBy n qualifiers) fun code => c.dependencies_find code links

/-!
### Steps
-/

/-- Two readings that agree at corresponding sites agree in the walk. -/
theorem reading (alike : Alike c s s') {R : α → β → Prop} {x : Site → Reading α} {y : Site → Reading β}
    (agree : ∀ site site', Site.Alike c.toLikeness site site' → Reading.Agrees R (x site) (y site')) :
    c.Walks R (s.reading x) (s'.reading y) :=
  .reading fun _ _ links => agree _ _ (alike.site links)

/-- Readings that look at the text alone. -/
theorem readingText (alike : Alike c s s') (x : Source → Reading α) :
    c.Walks (· = ·) (s.reading fun site => x site.source) (s'.reading fun site => x site.source) := by
  refine alike.reading fun site site' sites => ?_
  cases sites with
  | intro source names dependencies => exact .refl _

theorem read (alike : Alike c s s') (n : Node) : c.Walks (· = ·) (s.read n) (s'.read n) :=
  alike.readingText (Reading.read · n)

theorem readText (alike : Alike c s s') (n : Node) :
    c.Walks (fun text text' => text = text' ∧ s.source.textOf n = .ok text) (s.read n) (s'.read n) := by
  cases alike with
  | intro source qualifiers =>
      unfold Surroundings.read Surroundings.reading
      exact .reading fun _ _ _ => .read source n

theorem readOrEmpty (alike : Alike c s s') (n : Option Node) :
    c.Walks (· = ·) (s.readOrEmpty n) (s'.readOrEmpty n) :=
  alike.readingText (Reading.readOrEmpty · n)

/-- Corresponding specifiers are resolved to corresponding modules. -/
theorem resolve (alike : Alike c s s') {spec spec' : String} (specifiers : c.specifier spec spec') :
    c.Walks c.resolved (s.resolve spec) (s'.resolve spec') := by
  cases alike with
  | intro source qualifiers => exact c.resolve specifiers

/-- Binding a name to corresponding modules keeps the tables corresponding. -/
theorem bindName {x x' : Resolved} (resolutions : c.resolved x x') (n : String) :
    c.Walks (· = ·) (Walk.bindName n x) (Walk.bindName n x') := by
  intro l l' links
  unfold Walk.bindName
  split
  · exact ⟨links, .nil, rfl, rfl, .ok rfl⟩
  · exact ⟨c.links_bind n links resolutions, .nil, rfl, rfl, .ok rfl⟩

/-- A name that is imported in one walk is imported in the other, from a corresponding specifier. -/
theorem imported? (n : String) :
    c.Walks (Option.Rel fun b b' : Resolved => c.specifier b.specifier b'.specifier)
      (Walk.imported? n) (Walk.imported? n) :=
  fun _ _ links => ⟨links, .nil, rfl, rfl, .ok (c.imported n links)⟩

theorem excerpt (alike : Alike c s s') (n : Node) : c.Walks (· = ·) (excerpt s n) (excerpt s' n) :=
  .after (alike.read n) fun _ => .pure rfl

theorem noteUnknown (alike : Alike c s s') (n : Node) (context : Option String) :
    c.Walks (· = ·) (noteUnknown s n context) (noteUnknown s' n context) := by
  refine .after (alike.excerpt n) fun raw => ?_
  rw [alike.source_eq, alike.path_eq]
  exact .note _

theorem emitWith (alike : Alike c s s') (n : Node) {d d' : Declaration}
    (declarations : Declaration.Alike c.toLikeness d d') :
    c.Walks (· = ·) (emitWith s n d) (emitWith s' n d') := by
  refine .bind (alike.reading fun _ _ sites => sites.dependencies n) fun ds ds' related => ?_
  refine .emit (declarations.mapHead fun heads => ?_)
  refine ⟨heads.name, heads.uri, related, ?_⟩
  rw [heads.rest]

/-- A statement declares alike in both if what is read of it corresponds. -/
theorem declare (alike : Alike c s s') (n : Node) {x y : Site → Reading Declaration}
    (agree : ∀ site site', Site.Alike c.toLikeness site site' →
      Reading.Agrees (Declaration.Alike c.toLikeness) (x site) (y site')) :
    c.Walks (· = ·) (declare s n x) (declare s' n y) :=
  .bind (alike.reading agree) fun _ _ declarations => alike.emitWith n declarations

theorem declareVariables (alike : Alike c s s') (n : Node) (isExported : Bool) :
    c.Walks (· = ·) (declareVariables s n isExported) (declareVariables s' n isExported) :=
  .bind (alike.reading fun _ _ sites => sites.variablesOf isExported n) fun _ _ related =>
    .forEach related fun _ _ declarations => alike.emitWith n declarations

theorem bindNode (alike : Alike c s s') {x x' : Resolved} (resolutions : c.resolved x x') (n : Option Node) :
    c.Walks (· = ·) (bindNode s x n) (bindNode s' x' n) :=
  .after (alike.readOrEmpty n) fun name => bindName resolutions name

theorem bindPart (alike : Alike c s s') {x x' : Resolved} (resolutions : c.resolved x x') (part : Node) :
    c.Walks (· = ·) (bindPart s x part) (bindPart s' x' part) := by
  unfold Outline.bindPart
  split
  · exact alike.bindNode resolutions _
  · split
    · exact alike.bindNode resolutions _
    · split
      · exact .forEach_mem _ fun spec _ => alike.bindNode resolutions _
      · exact .pure rfl

theorem processImport (alike : Alike c s s') (n : Node) :
    c.Walks (· = ·) (processImport s n) (processImport s' n) := by
  unfold Outline.processImport
  rw [alike.source_eq]
  refine .after (alike.readingText fun _ => ⟨[], statementSpecifier s.source n⟩) fun found => ?_
  cases found with
  | none => exact .pure rfl
  | some spec =>
      refine .bind (alike.resolve (c.specifier_refl spec)) fun x x' resolutions => ?_
      split
      · exact alike.bindNode resolutions _
      · exact .forEach_mem _ fun part _ => alike.bindPart resolutions part
      · exact .pure rfl

/-- A name that is passed on from corresponding modules is declared alike. -/
theorem emitReExport (alike : Alike c s s') (n : Node) (exported passedOn : String) {x x' : Resolved}
    (resolutions : c.resolved x x') :
    c.Walks (· = ·) (emitReExport s n exported passedOn x) (emitReExport s' n exported passedOn x') := by
  refine .after (alike.read n) fun text => ?_
  refine .emit (.reExport ⟨alike.names exported, alike.uris exported, c.dependencies_reExport passedOn resolutions, ?_⟩
    (c.origin_source resolutions))
  rw [alike.source_eq]

/-- An item of an export clause has the same names in both. -/
theorem exportedNames (alike : Alike c s s') (spec : Node) :
    c.Walks (· = ·) (exportedNames s spec) (exportedNames s' spec) := by
  refine .after (alike.readOrEmpty _) fun name => ?_
  split
  · exact .after (alike.read _) fun _ => .pure rfl
  · exact .pure rfl

/-- A re-export from corresponding modules is processed alike. -/
theorem processReExport (alike : Alike c s s') (n : Node) {x x' : Resolved} (resolutions : c.resolved x x') :
    c.Walks (· = ·) (processReExport s n x) (processReExport s' n x') := by
  unfold Outline.processReExport
  split
  · refine .forEach_mem _ fun spec _ => ?_
    exact .after (alike.exportedNames spec) fun names => alike.emitReExport n _ _ resolutions
  · exact .after (alike.readOrEmpty _) fun name => alike.emitReExport n _ _ resolutions
  · exact alike.emitReExport n _ _ resolutions

/-- Whether a name is declared is the same on both sides, and whether it is imported too. -/
theorem processExportClause (alike : Alike c s s') (scope : Scope) (n clause : Node) :
    c.Walks (· = ·) (processExportClause s scope n clause) (processExportClause s' scope n clause) := by
  refine .forEach_mem _ fun spec _ => ?_
  refine .after (alike.exportedNames spec) fun names => ?_
  dsimp only
  split
  · exact .exportLater _
  · refine .bind (imported? _) fun binding binding' bindings => ?_
    cases bindings with
    | none => exact alike.noteUnknown spec _
    | some specifiers =>
        exact .bind (alike.resolve specifiers) fun _ _ resolutions => alike.emitReExport n _ _ resolutions

theorem defaultValue (alike : Alike c s s') (n : Node) :
    Declaration.Alike c.toLikeness (defaultValue s n) (defaultValue s' n) := by
  refine .variableDecl ⟨alike.names "default", alike.uris "default", c.no_dependencies, ?_⟩
  rw [alike.source_eq]

theorem processDefaultValue (alike : Alike c s s') (scope : Scope) (n value : Node) :
    c.Walks (· = ·) (processDefaultValue s scope n value) (processDefaultValue s' scope n value) := by
  unfold Outline.processDefaultValue
  split
  · exact alike.declare value fun _ _ sites => sites.functionOf true true value
  · split
    · exact alike.declare value fun _ _ sites => sites.classOf true true value
    · split
      · refine .after (alike.read value) fun name => ?_
        split
        · exact .exportLater _
        · exact alike.emitWith n (alike.defaultValue n)
      · exact alike.emitWith n (alike.defaultValue n)

theorem processFunctionSignature (alike : Alike c s s') (scope : Scope) (n : Node) (isExported isDefault : Bool) :
    c.Walks (· = ·) (processFunctionSignature s scope n isExported isDefault)
      (processFunctionSignature s' scope n isExported isDefault) := by
  refine .after (alike.readOrEmpty _) fun name => ?_
  split
  · exact .pure rfl
  · exact alike.declare n fun _ _ sites => sites.functionOf isExported isDefault n

/-- A namespace with corresponding members is declared alike in both. -/
theorem namespaceDeclaration (alike : Alike c s s') (n : Node) (name : String) (isExported : Bool)
    {ds ds' : List Declaration} (members : List.Forall₂ (Declaration.Alike c.toLikeness) ds ds') :
    Declaration.Alike c.toLikeness (namespaceDeclaration s n name isExported ds)
      (namespaceDeclaration s' n name isExported ds') := by
  refine .namespaceDecl ⟨alike.names name, alike.uris name, c.no_dependencies, ?_⟩
    (Declaration.allAlike_of_forall₂ members)
  rw [alike.source_eq]

/-- An export clause hits the same declarations on both sides, since it tells their names apart alike. -/
theorem applyExportsTo (alike : Alike c s s') (es : List LocalExport) {d d' : Declaration}
    (declarations : Declaration.Alike c.toLikeness d d') :
    Declaration.Alike c.toLikeness (applyExportsTo s.qualify es d) (applyExportsTo s'.qualify es d') := by
  have hits : (es.filter fun e => s.qualify e.localName == d.head.name) =
      es.filter fun e => s'.qualify e.localName == d'.head.name := by
    refine List.filter_congr fun e _ => ?_
    rw [Bool.eq_iff_iff, beq_iff_eq, beq_iff_eq]
    exact c.name_eq_iff (alike.names e.localName) declarations.heads.name
  unfold Outline.applyExportsTo
  rw [← declarations.isSome_reExportSource?, hits]
  split
  · exact declarations
  · refine declarations.mapHead fun heads => ?_
    refine ⟨heads.name, heads.uri, heads.dependencies, ?_⟩
    rw [heads.rest]

/-- Exports that come later mark corresponding declarations. -/
theorem applyExports (alike : Alike c s s') (es : List LocalExport) {ds ds' : List Declaration}
    (declarations : List.Forall₂ (Declaration.Alike c.toLikeness) ds ds') :
    List.Forall₂ (Declaration.Alike c.toLikeness) (applyExports s.qualify es ds)
      (applyExports s'.qualify es ds') := by
  unfold Outline.applyExports
  induction declarations with
  | nil => exact .nil
  | cons head _ ih => exact .cons (alike.applyExportsTo es head) ih

/-!
### The walk
-/

mutual

/-- Two walks over a scope agree, whatever the tree looks like. Each statement is compared with itself, and the
    recursion is that of the walk: down to the statements inside a wrapper or a namespace. -/
theorem processScope {s s' : Surroundings} (alike : Alike c s s') (body : Node)
    (names : s.source.NamespaceNames c.entered body) :
    c.Walks (List.Forall₂ (Declaration.Alike c.toLikeness)) (processScope s body) (processScope s' body) := by
  rw [processScope_eq, processScope_eq, alike.source_eq]
  refine .after (alike.readingText fun _ => ⟨[], prescan s.source body⟩) fun scope => ?_
  refine .within (.forEach_mem _ fun n mem => ?_) fun es _ _ => alike.applyExports es
  have lighter := Node.weight_lt_of_mem_named mem
  exact processStatement alike scope n false false (names.child (Node.mem_children_of_mem_named mem))
termination_by 4 * body.weight

theorem processStatement {s s' : Surroundings} (alike : Alike c s s') (scope : Scope) (n : Node)
    (isExported isDefault : Bool) (names : s.source.NamespaceNames c.entered n) :
    c.Walks (· = ·) (processStatement s scope n isExported isDefault)
      (processStatement s' scope n isExported isDefault) := by
  rw [Outline.processStatement, Outline.processStatement, alike.source_eq, alike.path_eq]
  split
  · exact .after (alike.excerpt n) fun raw => .note _
  · split
    next =>
      split
      · exact .pure rfl
      · exact alike.noteUnknown n none
    next form known => exact .absorb _ (processForm alike scope form n isExported isDefault known names)
termination_by 4 * n.weight + 3

theorem processForm {s s' : Surroundings} (alike : Alike c s s') (scope : Scope) (form : StatementForm) (n : Node)
    (isExported isDefault : Bool) (known : StatementForm.ofKind? n.kind = some form)
    (names : s.source.NamespaceNames c.entered n) :
    c.Walks (· = ·) (processForm s scope form n isExported isDefault)
      (processForm s' scope form n isExported isDefault) := by
  rw [processForm_eq, processForm_eq]
  cases form with
  | ambient =>
      dsimp only
      cases wraps : n.named.head? with
      | none => exact alike.noteUnknown n _
      | some inner =>
          have among := List.mem_of_head? wraps
          have lighter := Node.weight_lt_of_mem_named among
          dsimp only
          split
          · have below := names.child (Node.mem_children_of_mem_named among)
            exact processStatement alike scope inner isExported isDefault below
          · exact alike.noteUnknown n _
  | expression =>
      dsimp only
      cases wraps : n.child? Node.namespaceKinds with
      | none => exact .pure rfl
      | some ns =>
          have lighter := Node.weight_lt_of_child? wraps
          exact processNamespace alike ns isExported (Node.kind_mem_of_child? wraps)
            (names.child (Node.mem_children_of_child? wraps))
  | exporting => exact processExport alike scope n names
  | nameSpace => exact processNamespace alike n isExported (StatementForm.ofKind?_eq_some_iff.1 known) names
  | importing => exact alike.processImport n
  | function => exact alike.declare n fun _ _ sites => sites.functionOf isExported isDefault n
  | functionSignature => exact alike.processFunctionSignature scope n isExported isDefault
  | classDecl => exact alike.declare n fun _ _ sites => sites.classOf isExported isDefault n
  | interfaceDecl => exact alike.declare n fun _ _ sites => sites.interfaceOf isExported isDefault n
  | typeAlias => exact alike.declare n fun _ _ sites => sites.typeAliasOf isExported isDefault n
  | enumDecl => exact alike.declare n fun _ _ sites => sites.enumOf isExported isDefault n
  | bindings => exact alike.declareVariables n isExported
termination_by 4 * n.weight + 2

theorem processExport {s s' : Surroundings} (alike : Alike c s s') (scope : Scope) (n : Node)
    (names : s.source.NamespaceNames c.entered n) :
    c.Walks (· = ·) (processExport s scope n) (processExport s' scope n) := by
  rw [processExport_eq, processExport_eq]
  cases wraps : n.field? "declaration" with
  | some declaration =>
      have lighter := Node.weight_lt_of_field? wraps
      exact processStatement alike scope declaration true _ (names.child (Node.mem_children_of_field? wraps))
  | none =>
      dsimp only
      split
      · refine .after (alike.read _) fun text => ?_
        refine .bind (alike.resolve (c.specifier_refl _)) fun _ _ resolutions => ?_
        exact alike.processReExport n resolutions
      · split
        · exact alike.processDefaultValue scope n _
        · exact alike.processExportClause scope n _
        · exact alike.noteUnknown n _
termination_by 4 * n.weight + 1

/-- So are namespaces, whose members are compared inside them. -/
theorem processNamespace {s s' : Surroundings} (alike : Alike c s s') (n : Node) (isExported : Bool)
    (kind : n.kind ∈ Node.namespaceKinds) (names : s.source.NamespaceNames c.entered n) :
    c.Walks (· = ·) (processNamespace s n isExported) (processNamespace s' n isExported) := by
  rw [processNamespace_eq, processNamespace_eq]
  cases named : n.field? "name" with
  | none => exact alike.noteUnknown n _
  | some nameNode =>
      dsimp only
      split
      next => exact alike.noteUnknown n _
      next notString =>
        refine .bind (alike.readText nameNode) ?_
        rintro text _ ⟨rfl, readable⟩
        have entered := names n .here kind nameNode named notString text readable
        have emitted : ∀ ds ds', List.Forall₂ (Declaration.Alike c.toLikeness) ds ds' →
            c.Walks (· = ·)
              (Outline.emitWith s n (Outline.namespaceDeclaration s n (Text.compact text) isExported ds))
              (Outline.emitWith s' n (Outline.namespaceDeclaration s' n (Text.compact text) isExported ds')) :=
          fun _ _ members => alike.emitWith n (alike.namespaceDeclaration n _ isExported members)
        cases holds : n.field? "body" with
        | none => exact .bind (.pure .nil) emitted
        | some body =>
            have lighter := Node.weight_lt_of_field? holds
            have below := names.child (Node.mem_children_of_field? holds)
            exact .bind (processScope (alike.enter entered) body below) emitted
termination_by 4 * n.weight + 1

end

end Surroundings.Alike

end Outline
