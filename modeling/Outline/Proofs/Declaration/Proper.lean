/-
Module: Outline.Proofs.Declaration.Proper
Layer: Proofs
Purpose: What holds of a declaration as soon as it is read from its node: its identifier is made of the path and its
  name, it is exported if it is the default, it is no re-export, and the identifiers of the members of a class are
  made of the name of the class and their own. Every reader of declarations sees to that.
Main exports: Declaration.members, Declaration.flattenOne_eq, Declaration.mem_flatten, Declaration.memberUris,
  Declaration.Proper, Declaration.Read, functionOf_read, classOf_read, interfaceOf_read, typeAliasOf_read,
  enumOf_read, variablesOf_read
-/
import Outline.Proofs.Declaration.Heads
import Outline.Proofs.Declaration.Members

namespace Outline

namespace Declaration

/-- The declarations inside a declaration; only namespaces have any. -/
def members : Declaration → List Declaration
  | namespaceDecl _ members => members
  | _ => []

/-- A declaration and all below it: itself, then what its members come to. -/
theorem flattenOne_eq (d : Declaration) : d.flattenOne = d :: flatten d.members := by
  cases d <;> rfl

/-- What stands in the flattened list stands at or below one of the declarations. -/
theorem mem_flatten {e : Declaration} {ds : List Declaration} : e ∈ flatten ds ↔ ∃ d ∈ ds, e ∈ d.flattenOne := by
  induction ds with
  | nil => simp [flatten]
  | cons d ds ih => simp [flatten, ih]

@[simp] theorem members_mapHead (f : Head → Head) (d : Declaration) : (d.mapHead f).members = d.members := by
  cases d <;> rfl

end Declaration

/-- The members of a class, each with its name and its identifier. -/
def ClassMembers.uris (ms : ClassMembers) : List (String × String) :=
  ms.properties.map (fun p => (p.name, p.uri)) ++ ms.methods.map (fun m => (m.name, m.uri)) ++
    ms.constructor.toList.map fun m => (m.name, m.uri)

namespace Declaration

/-- The names and identifiers of the members, if the declaration is a class. -/
def memberUris : Declaration → List (String × String)
  | classDecl _ _ _ members _ => members.uris
  | _ => []

/-- Another head leaves the identifiers of the members as they are. -/
@[simp] theorem memberUris_mapHead (f : Head → Head) (d : Declaration) :
    (d.mapHead f).memberUris = d.memberUris := by
  cases d <;> rfl

/-- The declaration is one of the file at `path`, with the identifiers and flags that such a declaration has. -/
structure Proper (path : String) (d : Declaration) : Prop where
  uri : d.head.uri = declarationUri path d.head.name
  exportedIfDefault : d.head.isDefault → d.head.isExported
  declaredHere : d.reExportSource? = none
  memberUris : ∀ m ∈ d.memberUris, m.2 = declarationUri path (d.head.name ++ "." ++ m.1)

/-- A declaration stays proper while its name and identifier stay. -/
theorem Proper.mapHead {path : String} {d : Declaration} (proper : d.Proper path) {f : Head → Head}
    (name : (f d.head).name = d.head.name) (uri : (f d.head).uri = d.head.uri)
    (flags : (f d.head).isDefault → (f d.head).isExported) : (d.mapHead f).Proper path := by
  constructor
  · rw [head_mapHead, name, uri]
    exact proper.uri
  · rw [head_mapHead]
    exact flags
  · rw [reExportSource?_mapHead]
    exact proper.declaredHere
  · rw [head_mapHead, memberUris_mapHead, name]
    exact proper.memberUris

/-- The declaration is proper, and nothing is declared inside it. -/
structure Read (path : String) (d : Declaration) : Prop extends d.Proper path where
  noMembers : d.members = []

end Declaration

section Readers

variable (site : Site) {isExported isDefault : Bool} (n : Node) (flags : isDefault → isExported)

/-!
### Members of classes
-/

/-- The identifiers of class members are made of the name of the class and their own. -/
structure ClassMembers.Under (site : Site) (owner : String) (ms : ClassMembers) : Prop where
  properties : ∀ p ∈ ms.properties, p.uri = site.uri (owner ++ "." ++ p.name)
  methods : ∀ m ∈ ms.methods, m.uri = site.uri (owner ++ "." ++ m.name)
  constructor : ∀ m ∈ ms.constructor, m.uri = site.uri (owner ++ "." ++ m.name)

/-- Members of an owner are identified by the owner's name, a dot and their own. -/
theorem ClassMembers.Under.uris {owner : String} {ms : ClassMembers} (under : ms.Under site owner) :
    ∀ m ∈ ms.uris, m.2 = site.uri (owner ++ "." ++ m.1) := by
  intro m mem
  simp only [ClassMembers.uris, List.mem_append, List.mem_map, Option.mem_toList] at mem
  rcases mem with (⟨p, among, rfl⟩ | ⟨m, among, rfl⟩) | ⟨m, among, rfl⟩
  · exact under.properties p among
  · exact under.methods m among
  · exact under.constructor m among

/-- A method is identified by the owner's name, a dot and its own. -/
theorem methodOf_uri (owner : String) :
    (methodOf site owner n).Ensures fun m => m.uri = site.uri (owner ++ "." ++ m.name) := by
  unfold methodOf
  refine .after _ fun name => ?_
  refine .after _ fun access => ?_
  refine .after _ fun ps => ?_
  refine .after _ fun result => ?_
  refine .after _ fun dependencies => ?_
  refine .after _ fun typeParameters => ?_
  exact .pure rfl

/-- A constructor is identified by the owner's name, a dot and its own. -/
theorem constructorOf_uri (owner : String) :
    (constructorOf site owner n).Ensures fun m => m.uri = site.uri (owner ++ "." ++ m.name) := by
  have dotted : owner ++ ".constructor" = owner ++ "." ++ "constructor" := by
    rw [String.append_assoc]
    rfl
  unfold constructorOf
  refine .after _ fun ps => ?_
  refine .after _ fun dependencies => ?_
  refine .after _ fun access => ?_
  exact .pure (congrArg site.uri dotted)

/-- A property is identified by the owner's name, a dot and its own. -/
theorem propertyOf_uri (owner : String) :
    (propertyOf site owner n).Ensures fun p => p.uri = site.uri (owner ++ "." ++ p.name) := by
  unfold propertyOf
  refine .after _ fun name => ?_
  refine .after _ fun access => ?_
  refine .after _ fun type => ?_
  dsimp only
  split
  · refine .after _ fun text => ?_
    refine .after _ fun initializer => ?_
    exact .after _ fun dependencies => .pure rfl
  · refine .after _ fun initializer => ?_
    exact .after _ fun dependencies => .pure rfl

/-- The members read from a body belong to the owner they are read for. -/
theorem classMembers?_under (owner : String) (body : Option Node) :
    (classMembers? site owner body).Ensures (·.Under site owner) := by
  have each : (classMembers? site owner body).Ensures
      (·.Each (fun p => p.uri = site.uri (owner ++ "." ++ p.name)) fun m =>
        m.uri = site.uri (owner ++ "." ++ m.name)) :=
    classMembers?_each (fun _ _ n _ => propertyOf_uri site n owner) (fun _ _ n _ => methodOf_uri site n owner)
      fun _ _ n _ => constructorOf_uri site n owner
  exact fun ms ended => ⟨(each ms ended).properties, (each ms ended).methods, (each ms ended).constructor⟩

/-!
### Declarations
-/

include flags

/-- A function is a declaration of its file: no re-export, identified by path and name. -/
theorem functionOf_read : (functionOf site isExported isDefault n).Ensures (Declaration.Read site.path) := by
  unfold functionOf
  refine .after _ fun name => ?_
  refine .after _ fun typeParameters => ?_
  refine .after _ fun ps => ?_
  refine .after _ fun result => ?_
  exact .pure ⟨⟨rfl, flags, rfl, by simp [Declaration.memberUris]⟩, rfl⟩

/-- A class is a declaration of its file, and its members are identified under it. -/
theorem classOf_read : (classOf site isExported isDefault n).Ensures (Declaration.Read site.path) := by
  unfold classOf
  refine .after _ fun name => ?_
  refine .after _ fun typeParameters => ?_
  refine .after _ fun superclass => ?_
  refine .after _ fun interfaces => ?_
  refine .bind (classMembers?_under site _ _) fun members under => ?_
  exact .pure ⟨⟨rfl, flags, rfl, under.uris⟩, rfl⟩

theorem interfaceOf_read : (interfaceOf site isExported isDefault n).Ensures (Declaration.Read site.path) := by
  unfold interfaceOf
  refine .after _ fun name => ?_
  refine .after _ fun typeParameters => ?_
  refine .after _ fun supertypes => ?_
  exact .pure ⟨⟨rfl, flags, rfl, by simp [Declaration.memberUris]⟩, rfl⟩

theorem typeAliasOf_read : (typeAliasOf site isExported isDefault n).Ensures (Declaration.Read site.path) := by
  unfold typeAliasOf
  refine .after _ fun name => ?_
  refine .after _ fun typeParameters => ?_
  refine .after _ fun type => ?_
  exact .pure ⟨⟨rfl, flags, rfl, by simp [Declaration.memberUris]⟩, rfl⟩

theorem enumOf_read : (enumOf site isExported isDefault n).Ensures (Declaration.Read site.path) := by
  unfold enumOf
  refine .after _ fun short => ?_
  refine .after _ fun members => ?_
  exact .pure ⟨⟨rfl, flags, rfl, by simp [Declaration.memberUris]⟩, rfl⟩

omit flags in
/-- A variable is never the default, so that its flags need no care. -/
theorem variableOf_read (keyword : VariableKeyword) (statement : Node) :
    (variableOf site isExported keyword statement n).Ensures fun found =>
      ∀ d, found = some d → d.Read site.path := by
  unfold variableOf
  split
  · exact .pure fun d impossible => by cases impossible
  · split
    · exact .pure fun d impossible => by cases impossible
    · refine .after _ fun short => ?_
      refine .after _ fun type => ?_
      refine .pure fun d found => ?_
      cases found
      exact ⟨⟨rfl, by simp [Declaration.head], rfl, by simp [Declaration.memberUris]⟩, rfl⟩

omit flags in
/-- Declared variables are declarations of their file. -/
theorem variablesOf_read :
    (variablesOf site isExported n).Ensures fun ds => ∀ d ∈ ds, d.Read site.path := by
  unfold variablesOf
  refine .after _ fun keyword => ?_
  refine .bind (.collect fun c _ => variableOf_read site c keyword n) fun found each => ?_
  refine .pure fun d mem => ?_
  obtain ⟨some?, among, same⟩ := List.mem_filterMap.1 mem
  obtain ⟨_, _, read⟩ := each some? among
  exact read d same

end Readers

end Outline
