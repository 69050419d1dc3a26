/-
Module: Outline.Proofs.Declaration.Drawing
Layer: Proofs
Purpose: Where the dependencies of the members of a class are taken from. Each member is scanned on its own, over the
  text of its node, with the names imported at the time.
Main exports: Declaration.memberDependencies, Declaration.DrawnAt, functionOf_drawnAt, classOf_drawnAt,
  interfaceOf_drawnAt, typeAliasOf_drawnAt, enumOf_drawnAt, variablesOf_drawnAt
-/
import Outline.Proofs.Declaration.Proper
import Outline.Proofs.Tree.Inside

namespace Outline

/-- The dependencies of the members of a class, member by member. -/
def ClassMembers.dependencies (ms : ClassMembers) : List (List Dependency) :=
  ms.properties.map (·.dependencies) ++ ms.methods.map (·.dependencies) ++
    ms.constructor.toList.map (·.dependencies)

namespace Declaration

/-- The dependencies of each member, if the declaration is a class. -/
def memberDependencies : Declaration → List (List Dependency)
  | classDecl _ _ _ members _ => members.dependencies
  | _ => []

/-- Another head leaves the dependencies of the members as they are. -/
@[simp] theorem memberDependencies_mapHead (f : Head → Head) (d : Declaration) :
    (d.mapHead f).memberDependencies = d.memberDependencies := by
  cases d <;> rfl

end Declaration

/-- The dependencies are those of the text of a node. -/
def Site.Scanned (site : Site) (n : Node) (deps : List Dependency) : Prop :=
  ∃ text, site.source.textOf n = .ok text ∧ deps = findDependencies site.imports text

/-- Nothing is declared inside the declaration, and the members of a class are scanned over nodes inside `n`. -/
structure Declaration.DrawnAt (site : Site) (n : Node) (d : Declaration) : Prop where
  noMembers : d.members = []
  memberDependencies : ∀ deps ∈ d.memberDependencies, ∃ m, n.Inside m ∧ site.Scanned m deps

section Readers

variable (site : Site) (n : Node) (isExported isDefault : Bool)

/-- The dependencies read at a node are found in the text of the node. -/
theorem dependencies_scanned : (site.dependencies n).Ensures (site.Scanned n) :=
  .bind (.read site.source n) fun text read => .pure ⟨text, read, rfl⟩

/-!
### Members of classes
-/

/-- The dependencies of a method are found in the text of its node. -/
theorem methodOf_scanned (owner : String) :
    (methodOf site owner n).Ensures fun m => site.Scanned n m.dependencies := by
  unfold methodOf
  refine .after _ fun name => ?_
  refine .after _ fun access => ?_
  refine .after _ fun ps => ?_
  refine .after _ fun result => ?_
  refine .bind (dependencies_scanned site n) fun dependencies scanned => ?_
  refine .after _ fun typeParameters => ?_
  exact .pure scanned

/-- The dependencies of a constructor are found in the text of its node. -/
theorem constructorOf_scanned (owner : String) :
    (constructorOf site owner n).Ensures fun m => site.Scanned n m.dependencies := by
  unfold constructorOf
  refine .after _ fun ps => ?_
  refine .bind (dependencies_scanned site n) fun dependencies scanned => ?_
  refine .after _ fun access => ?_
  exact .pure scanned

/-- The dependencies of a property are found in the text of its node. -/
theorem propertyOf_scanned (owner : String) :
    (propertyOf site owner n).Ensures fun p => site.Scanned n p.dependencies := by
  unfold propertyOf
  refine .after _ fun name => ?_
  refine .after _ fun access => ?_
  refine .after _ fun type => ?_
  dsimp only
  split
  · refine .after _ fun text => ?_
    refine .after _ fun initializer => ?_
    exact .bind (dependencies_scanned site n) fun dependencies scanned => .pure scanned
  · refine .after _ fun initializer => ?_
    exact .bind (dependencies_scanned site n) fun dependencies scanned => .pure scanned

/-- The members of a class are scanned over nodes of its body. -/
theorem classMembers?_scanned (owner : String) (body : Option Node) :
    (classMembers? site owner body).Ensures fun ms =>
      ∀ deps ∈ ms.dependencies, ∃ b ∈ body, ∃ m ∈ b.named, site.Scanned m deps := by
  have each : (classMembers? site owner body).Ensures
      (·.Each (fun p => ∃ b ∈ body, ∃ m ∈ b.named, site.Scanned m p.dependencies)
        fun m' => ∃ b ∈ body, ∃ m ∈ b.named, site.Scanned m m'.dependencies) := by
    apply classMembers?_each
    · exact fun b holds m mem p ended => ⟨b, holds, m, mem, propertyOf_scanned site m owner p ended⟩
    · exact fun b holds m mem m' ended => ⟨b, holds, m, mem, methodOf_scanned site m owner m' ended⟩
    · exact fun b holds m mem m' ended => ⟨b, holds, m, mem, constructorOf_scanned site m owner m' ended⟩
  intro ms ended deps mem
  obtain ⟨properties, methods, constructor⟩ := each ms ended
  simp only [ClassMembers.dependencies, List.mem_append, List.mem_map, Option.mem_toList] at mem
  rcases mem with (⟨p, among, rfl⟩ | ⟨m, among, rfl⟩) | ⟨m, among, rfl⟩
  · exact properties p among
  · exact methods m among
  · exact constructor m among

/-!
### Declarations
-/

/-- Only classes have members with dependencies of their own. -/
theorem Declaration.DrawnAt.of_nil {site : Site} {n : Node} {d : Declaration} (noMembers : d.members = [])
    (none : d.memberDependencies = []) : d.DrawnAt site n :=
  ⟨noMembers, by simp [none]⟩

/-- The dependencies of a function are drawn from its node. -/
theorem functionOf_drawnAt : (functionOf site isExported isDefault n).Ensures (Declaration.DrawnAt site n) := by
  unfold functionOf
  refine .after _ fun name => ?_
  refine .after _ fun typeParameters => ?_
  refine .after _ fun ps => ?_
  refine .after _ fun result => ?_
  exact .pure (.of_nil rfl rfl)

/-- The dependencies of a class are drawn from its node, those of its members from theirs. -/
theorem classOf_drawnAt : (classOf site isExported isDefault n).Ensures (Declaration.DrawnAt site n) := by
  unfold classOf
  refine .after _ fun name => ?_
  refine .after _ fun typeParameters => ?_
  refine .after _ fun superclass => ?_
  refine .after _ fun interfaces => ?_
  refine .bind (classMembers?_scanned site _ _) fun members scanned => ?_
  refine .pure ⟨rfl, fun deps mem => ?_⟩
  obtain ⟨body, holds, m, among, scannedAt⟩ := scanned deps mem
  have inBody : body.Inside m := .deeper .here (Node.mem_children_of_mem_named among)
  exact ⟨m, .of_child (Node.mem_children_of_field? holds) inBody, scannedAt⟩

theorem interfaceOf_drawnAt : (interfaceOf site isExported isDefault n).Ensures (Declaration.DrawnAt site n) := by
  unfold interfaceOf
  refine .after _ fun name => ?_
  refine .after _ fun typeParameters => ?_
  refine .after _ fun supertypes => ?_
  exact .pure (.of_nil rfl rfl)

theorem typeAliasOf_drawnAt : (typeAliasOf site isExported isDefault n).Ensures (Declaration.DrawnAt site n) := by
  unfold typeAliasOf
  refine .after _ fun name => ?_
  refine .after _ fun typeParameters => ?_
  refine .after _ fun type => ?_
  exact .pure (.of_nil rfl rfl)

theorem enumOf_drawnAt : (enumOf site isExported isDefault n).Ensures (Declaration.DrawnAt site n) := by
  unfold enumOf
  refine .after _ fun short => ?_
  refine .after _ fun members => ?_
  exact .pure (.of_nil rfl rfl)

/-- A variable has no members, so that it does not matter which names are imported. -/
theorem variableOf_drawnAt (keyword : VariableKeyword) (statement : Node) :
    (variableOf site isExported keyword statement n).Ensures fun found =>
      ∀ d, found = some d → ∀ imports, d.DrawnAt { site with imports } statement := by
  unfold variableOf
  split
  · refine .pure fun d found => ?_
    cases found
  · split
    · refine .pure fun d found => ?_
      cases found
    · refine .after _ fun short => ?_
      refine .after _ fun type => ?_
      refine .pure fun d found imports => ?_
      cases found
      exact .of_nil rfl rfl

/-- The dependencies of declared variables are drawn from the statement, whatever names are imported. -/
theorem variablesOf_drawnAt :
    (variablesOf site isExported n).Ensures fun ds => ∀ d ∈ ds, ∀ imports, d.DrawnAt { site with imports } n := by
  unfold variablesOf
  refine .after _ fun keyword => ?_
  refine .bind (.collect fun c _ => variableOf_drawnAt site c isExported keyword n) fun found each => ?_
  refine .pure fun d mem => ?_
  obtain ⟨some?, among, same⟩ := List.mem_filterMap.1 mem
  obtain ⟨_, _, drawn⟩ := each some? among
  exact drawn d same

end Readers

end Outline
