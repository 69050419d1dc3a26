/-
Module: Outline.Proofs.Declaration.Likeness
Layer: Proofs
Purpose: Declarations of one file that are alike: they may differ in qualified names, in the identifiers made from
  these, in dependencies and in the sources of re-exports, each as far as a `Likeness` allows, and in nothing
  else. Declarations read from one node in places that differ only so much are alike.
Main exports: Likeness, Likeness.sameNames, Likeness.exact, Likeness.Heads, Likeness.Members, Declaration.Alike,
  Site.Alike, Site.Alike.functionOf, Site.Alike.classOf, Site.Alike.variablesOf
-/
import Outline.Declaration.Extract
import Outline.Proofs.Reading.Agreement

namespace Outline

/-- How far the declarations of a file may differ. -/
structure Likeness where
  /-- Path of the file. -/
  path : String
  /-- Qualified names that may stand for each other. -/
  name : String → String → Prop
  /-- Dependencies that may stand for each other. -/
  dependencies : List Dependency → List Dependency → Prop
  /-- Sources of re-exports that may stand for each other. -/
  origin : String → String → Prop
  /-- Names that stand for each other are told apart alike. -/
  name_eq_iff {a a' b b' : String} : name a a' → name b b' → (a = b ↔ a' = b')
  /-- A member keeps its name behind owners that stand for each other. -/
  name_member {a a' : String} (m : String) : name a a' → name (a ++ "." ++ m) (a' ++ "." ++ m)
  no_dependencies : dependencies [] []

namespace Likeness

variable {k : Likeness}

/-- Identifiers made from names that may stand for each other. -/
def Uris (k : Likeness) (u u' : String) : Prop :=
  ∃ n n', k.name n n' ∧ u = declarationUri k.path n ∧ u' = declarationUri k.path n'

theorem uris_of_name {n n' : String} (names : k.name n n') :
    k.Uris (declarationUri k.path n) (declarationUri k.path n') :=
  ⟨n, n', names, rfl, rfl⟩

/-- A likeness under which names are the same. -/
def sameNames (path : String) (dependencies : List Dependency → List Dependency → Prop)
    (origin : String → String → Prop) (none : dependencies [] []) : Likeness where
  path
  name := (· = ·)
  dependencies
  origin
  name_eq_iff := by
    rintro a _ b _ rfl rfl
    exact Iff.rfl
  name_member := by
    rintro a _ m rfl
    rfl
  no_dependencies := none

/-- Identifiers made from the same name are the same. -/
theorem uris_sameNames {path u u' : String} {dependencies : List Dependency → List Dependency → Prop}
    {origin : String → String → Prop} {none : dependencies [] []}
    (uris : (sameNames path dependencies origin none).Uris u u') : u = u' := by
  obtain ⟨n, _, rfl, rfl, rfl⟩ := uris
  rfl

/-- A likeness under which nothing differs. -/
def exact (path : String) : Likeness := sameNames path (· = ·) (· = ·) rfl

theorem exact_dependencies (path : String) (ds : List Dependency) : (exact path).dependencies ds ds := rfl

theorem exact_origin (path source : String) : (exact path).origin source source := rfl

structure Heads (k : Likeness) (h h' : Head) : Prop where
  name : k.name h.name h'.name
  uri : k.Uris h.uri h'.uri
  dependencies : k.dependencies h.dependencies h'.dependencies
  rest : h' = { h with name := h'.name, uri := h'.uri, dependencies := h'.dependencies }

structure Methods (k : Likeness) (m m' : Method) : Prop where
  uri : k.Uris m.uri m'.uri
  dependencies : k.dependencies m.dependencies m'.dependencies
  rest : m' = { m with uri := m'.uri, dependencies := m'.dependencies }

structure Properties (k : Likeness) (p p' : Property) : Prop where
  uri : k.Uris p.uri p'.uri
  dependencies : k.dependencies p.dependencies p'.dependencies
  rest : p' = { p with uri := p'.uri, dependencies := p'.dependencies }

structure Members (k : Likeness) (ms ms' : ClassMembers) : Prop where
  properties : List.Forall₂ k.Properties ms.properties ms'.properties
  methods : List.Forall₂ k.Methods ms.methods ms'.methods
  constructor : Option.Rel k.Methods ms.constructor ms'.constructor

/-- Of members that are alike, either both have a constructor or neither has. -/
theorem Members.isNone_constructor {ms ms' : ClassMembers} (members : k.Members ms ms') :
    ms.constructor.isNone = ms'.constructor.isNone := by
  obtain ⟨_, _, c⟩ := ms
  obtain ⟨_, _, c'⟩ := ms'
  cases members.constructor <;> rfl

end Likeness

mutual

/-- Declarations of one kind that differ no further than a likeness allows, at any depth of namespaces. -/
inductive Declaration.Alike (k : Likeness) : Declaration → Declaration → Prop where
  | functionDecl {h h' : Head} {ps : List Parameter} {type : String} {isAsync isGenerator : Bool}
      (heads : k.Heads h h') :
      Declaration.Alike k (.functionDecl h ps type isAsync isGenerator)
        (.functionDecl h' ps type isAsync isGenerator)
  | classDecl {h h' : Head} {superclass : Option String} {interfaces : List String} {ms ms' : ClassMembers}
      {isAbstract : Bool} (heads : k.Heads h h') (members : k.Members ms ms') :
      Declaration.Alike k (.classDecl h superclass interfaces ms isAbstract)
        (.classDecl h' superclass interfaces ms' isAbstract)
  | interfaceDecl {h h' : Head} {supertypes : List String} (heads : k.Heads h h') :
      Declaration.Alike k (.interfaceDecl h supertypes) (.interfaceDecl h' supertypes)
  | typeAlias {h h' : Head} (heads : k.Heads h h') : Declaration.Alike k (.typeAlias h) (.typeAlias h')
  | enumDecl {h h' : Head} {ms : List EnumMember} {isConst : Bool} (heads : k.Heads h h') :
      Declaration.Alike k (.enumDecl h ms isConst) (.enumDecl h' ms isConst)
  | variableDecl {h h' : Head} {keyword : VariableKeyword} (heads : k.Heads h h') :
      Declaration.Alike k (.variableDecl h keyword) (.variableDecl h' keyword)
  | reExport {h h' : Head} {source source' : String} (heads : k.Heads h h') (origins : k.origin source source') :
      Declaration.Alike k (.reExport h source) (.reExport h' source')
  | namespaceDecl {h h' : Head} {ds ds' : List Declaration} (heads : k.Heads h h')
      (members : Declaration.AllAlike k ds ds') :
      Declaration.Alike k (.namespaceDecl h ds) (.namespaceDecl h' ds')

/-- Lists of declarations that are alike one for one. -/
inductive Declaration.AllAlike (k : Likeness) : List Declaration → List Declaration → Prop where
  | nil : Declaration.AllAlike k [] []
  | cons {d d' : Declaration} {ds ds' : List Declaration} (head : Declaration.Alike k d d')
      (tail : Declaration.AllAlike k ds ds') : Declaration.AllAlike k (d :: ds) (d' :: ds')

end

namespace Declaration

variable {k : Likeness}

/-- Declarations that are alike one by one are alike as lists. -/
theorem allAlike_of_forall₂ {ds ds' : List Declaration} (alike : List.Forall₂ (Alike k) ds ds') :
    AllAlike k ds ds' := by
  induction alike with
  | nil => exact .nil
  | cons head _ ih => exact .cons head ih

theorem Alike.heads {d d' : Declaration} (alike : Alike k d d') : k.Heads d.head d'.head := by
  cases alike <;> assumption

/-- Only a re-export is like a re-export. -/
theorem Alike.isSome_reExportSource? {d d' : Declaration} (alike : Alike k d d') :
    d.reExportSource?.isSome = d'.reExportSource?.isSome := by
  cases alike <;> rfl

/-- Changing the heads of declarations that are alike, so that the heads stay alike. -/
theorem Alike.mapHead {d d' : Declaration} {f g : Head → Head} (alike : Alike k d d')
    (maps : k.Heads d.head d'.head → k.Heads (f d.head) (g d'.head)) :
    Alike k (d.mapHead f) (d'.mapHead g) := by
  cases alike with
  | functionDecl heads => exact .functionDecl (maps heads)
  | classDecl heads members => exact .classDecl (maps heads) members
  | interfaceDecl heads => exact .interfaceDecl (maps heads)
  | typeAlias heads => exact .typeAlias (maps heads)
  | enumDecl heads => exact .enumDecl (maps heads)
  | variableDecl heads => exact .variableDecl (maps heads)
  | reExport heads origins => exact .reExport (maps heads) origins
  | namespaceDecl heads members => exact .namespaceDecl (maps heads) members

end Declaration

/-!
### Declarations read in two places
-/

/-- Places in one file that differ only in the namespaces around them and in the imports made before them, so that
    names and dependencies may stand for each other. -/
inductive Site.Alike (k : Likeness) : Site → Site → Prop where
  | intro (source : Source) {qualifier qualifier' : String} {imports imports' : Entries Specifier.Resolved}
      (names : ∀ n, k.name (Site.qualify ⟨source, k.path, qualifier, imports⟩ n)
        (Site.qualify ⟨source, k.path, qualifier', imports'⟩ n))
      (dependencies : ∀ code, k.dependencies (findDependencies imports code) (findDependencies imports' code)) :
      Site.Alike k ⟨source, k.path, qualifier, imports⟩ ⟨source, k.path, qualifier', imports'⟩

namespace Site.Alike

variable {k : Likeness} {site site' : Site}

/-- From sites that are alike, a node's dependencies are read alike. -/
theorem dependencies (alike : Site.Alike k site site') (n : Node) :
    Reading.Agrees k.dependencies (site.dependencies n) (site'.dependencies n) := by
  cases alike with
  | intro source names dependencies =>
      refine .after (Reading.read source n) fun code => ?_
      exact .pure (dependencies code)

/-- A method is read alike from sites that are alike, for owners of alike names. -/
theorem methodOf (alike : Site.Alike k site site') {owner owner' : String} (owners : k.name owner owner')
    (n : Node) : Reading.Agrees k.Methods (methodOf site owner n) (methodOf site' owner' n) := by
  have used := alike.dependencies n
  cases alike with
  | intro source names dependencies =>
      unfold Outline.methodOf
      refine .after _ fun name => ?_
      refine .after _ fun access => ?_
      refine .after _ fun ps => ?_
      refine .after _ fun result => ?_
      refine .bind used fun ds ds' related => ?_
      refine .after _ fun typeParameters => ?_
      exact .pure ⟨k.uris_of_name (k.name_member _ owners), related, rfl⟩

theorem constructorOf (alike : Site.Alike k site site') {owner owner' : String} (owners : k.name owner owner')
    (n : Node) : Reading.Agrees k.Methods (constructorOf site owner n) (constructorOf site' owner' n) := by
  have used := alike.dependencies n
  cases alike with
  | intro source names dependencies =>
      unfold Outline.constructorOf
      refine .after _ fun ps => ?_
      refine .bind used fun ds ds' related => ?_
      refine .after _ fun access => ?_
      refine .pure ⟨?_, related, rfl⟩
      have members := k.name_member "constructor" owners
      rw [String.append_assoc, String.append_assoc] at members
      exact k.uris_of_name members

/-- A property is read alike from sites that are alike, for owners of alike names. -/
theorem propertyOf (alike : Site.Alike k site site') {owner owner' : String} (owners : k.name owner owner')
    (n : Node) : Reading.Agrees k.Properties (propertyOf site owner n) (propertyOf site' owner' n) := by
  have used := alike.dependencies n
  cases alike with
  | intro source names dependencies =>
      unfold Outline.propertyOf
      refine .after _ fun name => ?_
      refine .after _ fun access => ?_
      refine .after _ fun type => ?_
      dsimp only
      cases n.field? "value" with
      | some value =>
          refine .after _ fun text => ?_
          refine .after _ fun initializer => ?_
          refine .bind used fun ds ds' related => ?_
          exact .pure ⟨k.uris_of_name (k.name_member _ owners), related, rfl⟩
      | none =>
          refine .after _ fun initializer => ?_
          refine .bind used fun ds ds' related => ?_
          exact .pure ⟨k.uris_of_name (k.name_member _ owners), related, rfl⟩

/-- One more member, added to members that are alike. The decisions taken on the way look at the kind and the
    name of the node, and at whether there is a constructor already, which both sides see alike. -/
theorem addMember (alike : Site.Alike k site site') {owner owner' : String} (owners : k.name owner owner')
    (implemented : List String) {ms ms' : ClassMembers} (members : k.Members ms ms') (n : Node) :
    Reading.Agrees k.Members (addMember site owner implemented ms n)
      (addMember site' owner' implemented ms' n) := by
  have method := alike.methodOf owners n
  have builder := alike.constructorOf owners n
  have property := alike.propertyOf owners n
  have sameNone := members.isNone_constructor
  cases alike with
  | intro source names dependencies =>
      unfold Outline.addMember
      rw [sameNone]
      split
      · refine .after _ fun name => ?_
        split
        · split
          · refine .bind builder fun m m' related => ?_
            exact .pure ⟨members.properties, members.methods, .some related⟩
          · exact .pure members
        · split
          · exact .pure members
          · refine .bind method fun m m' related => ?_
            exact .pure ⟨members.properties, List.rel_append members.methods (.cons related .nil),
              members.constructor⟩
      · split
        · refine .bind property fun p p' related => ?_
          exact .pure ⟨List.rel_append members.properties (.cons related .nil), members.methods,
            members.constructor⟩
        · exact .pure members

/-- Members added one after the other to alike members give alike members. -/
theorem addMembers (alike : Site.Alike k site site') {owner owner' : String} (owners : k.name owner owner')
    (implemented : List String) {ms ms' : ClassMembers} (members : k.Members ms ms') (ns : List Node) :
    Reading.Agrees k.Members (addMembers site owner implemented ms ns)
      (addMembers site' owner' implemented ms' ns) := by
  induction ns generalizing ms ms' with
  | nil => exact .pure members
  | cons n ns ih => exact .bind (alike.addMember owners implemented members n) fun _ _ more => ih more

/-- The members of a body are read alike, and so is a body that is missing. -/
theorem classMembers? (alike : Site.Alike k site site') {owner owner' : String} (owners : k.name owner owner')
    (body : Option Node) :
    Reading.Agrees k.Members (classMembers? site owner body) (classMembers? site' owner' body) := by
  have none : k.Members {} {} := ⟨.nil, .nil, .none⟩
  cases body with
  | none => exact .pure none
  | some body =>
      have more := fun implemented => alike.addMembers owners implemented none body.named
      cases alike with
      | intro source names dependencies => exact .after _ more

/-- A function is read alike from sites that are alike. -/
theorem functionOf (alike : Site.Alike k site site') (isExported isDefault : Bool) (n : Node) :
    Reading.Agrees (Declaration.Alike k) (functionOf site isExported isDefault n)
      (functionOf site' isExported isDefault n) := by
  cases alike with
  | intro source names dependencies =>
      unfold Outline.functionOf
      refine .after _ fun short => ?_
      refine .after _ fun typeParameters => ?_
      refine .after _ fun ps => ?_
      refine .after _ fun result => ?_
      refine .pure (.functionDecl ?_)
      exact ⟨names _, k.uris_of_name (names _), k.no_dependencies, rfl⟩

/-- A class is read alike from sites that are alike, with all its members. -/
theorem classOf (alike : Site.Alike k site site') (isExported isDefault : Bool) (n : Node) :
    Reading.Agrees (Declaration.Alike k) (classOf site isExported isDefault n)
      (classOf site' isExported isDefault n) := by
  have inside : ∀ owner owner', k.name owner owner' → ∀ body,
      Reading.Agrees k.Members (Outline.classMembers? site owner body) (Outline.classMembers? site' owner' body) :=
    fun _ _ owners body => alike.classMembers? owners body
  cases alike with
  | intro source names dependencies =>
      unfold Outline.classOf
      refine .after _ fun short => ?_
      refine .after _ fun typeParameters => ?_
      refine .after _ fun superclass => ?_
      refine .after _ fun interfaces => ?_
      refine .bind (inside _ _ (names _) _) fun ms ms' members => ?_
      refine .pure (.classDecl ?_ members)
      exact ⟨names _, k.uris_of_name (names _), k.no_dependencies, rfl⟩

theorem interfaceOf (alike : Site.Alike k site site') (isExported isDefault : Bool) (n : Node) :
    Reading.Agrees (Declaration.Alike k) (interfaceOf site isExported isDefault n)
      (interfaceOf site' isExported isDefault n) := by
  cases alike with
  | intro source names dependencies =>
      unfold Outline.interfaceOf
      refine .after _ fun short => ?_
      refine .after _ fun typeParameters => ?_
      refine .after _ fun supertypes => ?_
      refine .pure (.interfaceDecl ?_)
      exact ⟨names _, k.uris_of_name (names _), k.no_dependencies, rfl⟩

theorem typeAliasOf (alike : Site.Alike k site site') (isExported isDefault : Bool) (n : Node) :
    Reading.Agrees (Declaration.Alike k) (typeAliasOf site isExported isDefault n)
      (typeAliasOf site' isExported isDefault n) := by
  cases alike with
  | intro source names dependencies =>
      unfold Outline.typeAliasOf
      refine .after _ fun short => ?_
      refine .after _ fun typeParameters => ?_
      refine .after _ fun type => ?_
      refine .pure (.typeAlias ?_)
      exact ⟨names _, k.uris_of_name (names _), k.no_dependencies, rfl⟩

theorem enumOf (alike : Site.Alike k site site') (isExported isDefault : Bool) (n : Node) :
    Reading.Agrees (Declaration.Alike k) (enumOf site isExported isDefault n)
      (enumOf site' isExported isDefault n) := by
  cases alike with
  | intro source names dependencies =>
      unfold Outline.enumOf
      refine .after _ fun short => ?_
      refine .after _ fun members => ?_
      refine .pure (.enumDecl ?_)
      exact ⟨names _, k.uris_of_name (names _), k.no_dependencies, rfl⟩

/-- A declarator gives alike variables, or a variable on neither side. -/
theorem variableOf (alike : Site.Alike k site site') (isExported : Bool) (keyword : VariableKeyword)
    (statement n : Node) :
    Reading.Agrees (Option.Rel (Declaration.Alike k)) (variableOf site isExported keyword statement n)
      (variableOf site' isExported keyword statement n) := by
  cases alike with
  | intro source names dependencies =>
      unfold Outline.variableOf
      split
      · exact .pure .none
      · split
        · exact .pure .none
        · refine .after _ fun short => ?_
          refine .after _ fun type => ?_
          refine .pure (.some (.variableDecl ?_))
          exact ⟨names _, k.uris_of_name (names _), k.no_dependencies, rfl⟩

/-- The variables of a statement are read alike, one by one. -/
theorem variablesOf (alike : Site.Alike k site site') (isExported : Bool) (n : Node) :
    Reading.Agrees (List.Forall₂ (Declaration.Alike k)) (variablesOf site isExported n)
      (variablesOf site' isExported n) := by
  have each := fun keyword => alike.variableOf isExported keyword n
  cases alike with
  | intro source names dependencies =>
      unfold Outline.variablesOf
      refine .after _ fun keyword => ?_
      refine .bind (.collect (each keyword) _) fun found found' related => ?_
      exact .pure (List.rel_filterMap (fun _ _ same => same) related)

end Site.Alike

end Outline
