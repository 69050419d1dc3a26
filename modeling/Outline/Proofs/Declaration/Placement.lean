/-
Module: Outline.Proofs.Declaration.Placement
Layer: Proofs
Purpose: Where a declaration says that it stands. What is read from a node has the position of that node, and the
  members of a class have the positions of nodes inside it. `WellPlaced` says what the positions of a declaration and
  of what belongs to it have to do with each other.
Main exports: Declaration.memberPositions, Declaration.ReadAt, functionOf_readAt, classOf_readAt, interfaceOf_readAt,
  typeAliasOf_readAt, enumOf_readAt, variablesOf_readAt, Declaration.StartsBefore, Declaration.WellPlaced
-/
import Outline.Proofs.Declaration.Proper
import Outline.Proofs.Position.Order

namespace Outline

/-- The positions of the members of a class: properties, methods and constructor. -/
def ClassMembers.positions (ms : ClassMembers) : List Position :=
  ms.properties.map (·.position) ++ ms.methods.map (·.position) ++ ms.constructor.toList.map (·.position)

namespace Declaration

/-- The positions of the members, if the declaration is a class. -/
def memberPositions : Declaration → List Position
  | classDecl _ _ _ members _ => members.positions
  | _ => []

/-- Another head leaves the positions of the members as they are. -/
@[simp] theorem memberPositions_mapHead (f : Head → Head) (d : Declaration) :
    (d.mapHead f).memberPositions = d.memberPositions := by
  cases d <;> rfl

/-- The declaration stands where the node `n` does, the members of a class where nodes inside `n` do, and nothing is
    declared inside it. -/
structure ReadAt (src : Source) (n : Node) (d : Declaration) : Prop where
  position : d.head.position = src.position n
  memberPositions : ∀ p ∈ d.memberPositions, ∃ m, n.Inside m ∧ p = src.position m
  noMembers : d.members = []

end Declaration

/-!
### Members of classes
-/

section Readers

variable (site : Site) (n : Node) (isExported isDefault : Bool)

theorem methodOf_position (owner : String) :
    (methodOf site owner n).Ensures fun m => m.position = site.source.position n := by
  unfold methodOf
  refine .after _ fun name => ?_
  refine .after _ fun access => ?_
  refine .after _ fun ps => ?_
  refine .after _ fun result => ?_
  refine .after _ fun dependencies => ?_
  refine .after _ fun typeParameters => ?_
  exact .pure rfl

theorem constructorOf_position (owner : String) :
    (constructorOf site owner n).Ensures fun m => m.position = site.source.position n := by
  unfold constructorOf
  refine .after _ fun ps => ?_
  refine .after _ fun dependencies => ?_
  refine .after _ fun access => ?_
  exact .pure rfl

theorem propertyOf_position (owner : String) :
    (propertyOf site owner n).Ensures fun p => p.position = site.source.position n := by
  unfold propertyOf
  refine .after _ fun name => ?_
  refine .after _ fun access => ?_
  refine .after _ fun type => ?_
  dsimp only
  split
  · refine .after _ fun text => ?_
    refine .after _ fun initializer => ?_
    exact .after _ fun dependencies => .pure rfl
  · refine .after _ fun initializer => ?_
    exact .after _ fun dependencies => .pure rfl

/-- The members stand where nodes satisfying `P` do. -/
structure ClassMembers.At (src : Source) (P : Node → Prop) (ms : ClassMembers) : Prop where
  properties : ∀ p ∈ ms.properties, ∃ m, P m ∧ p.position = src.position m
  methods : ∀ p ∈ ms.methods, ∃ m, P m ∧ p.position = src.position m
  constructor : ∀ p ∈ ms.constructor, ∃ m, P m ∧ p.position = src.position m

/-- The positions of members read from nodes are those of the nodes. -/
theorem ClassMembers.At.positions {src : Source} {P : Node → Prop} {ms : ClassMembers} (placed : ms.At src P) :
    ∀ p ∈ ms.positions, ∃ m, P m ∧ p = src.position m := by
  intro p mem
  simp only [ClassMembers.positions, List.mem_append, List.mem_map, Option.mem_toList] at mem
  rcases mem with (⟨q, among, rfl⟩ | ⟨q, among, rfl⟩) | ⟨q, among, rfl⟩
  · exact placed.properties q among
  · exact placed.methods q among
  · exact placed.constructor q among

/-- The members of a class are read from the statements of its body. -/
theorem classMembers?_at (owner : String) (body : Option Node) :
    (classMembers? site owner body).Ensures (·.At site.source fun m => ∃ b, body = some b ∧ m ∈ b.named) := by
  have each : (classMembers? site owner body).Ensures
      (·.Each (fun p => ∃ m, (∃ b, body = some b ∧ m ∈ b.named) ∧ p.position = site.source.position m) fun p =>
        ∃ m, (∃ b, body = some b ∧ m ∈ b.named) ∧ p.position = site.source.position m) := by
    apply classMembers?_each
    · exact fun b holds m mem p ended => ⟨m, ⟨b, holds, mem⟩, propertyOf_position site m owner p ended⟩
    · exact fun b holds m mem p ended => ⟨m, ⟨b, holds, mem⟩, methodOf_position site m owner p ended⟩
    · exact fun b holds m mem p ended => ⟨m, ⟨b, holds, mem⟩, constructorOf_position site m owner p ended⟩
  exact fun ms ended => ⟨(each ms ended).properties, (each ms ended).methods, (each ms ended).constructor⟩

/-!
### Declarations
-/

theorem functionOf_readAt :
    (functionOf site isExported isDefault n).Ensures (Declaration.ReadAt site.source n) := by
  unfold functionOf
  refine .after _ fun name => ?_
  refine .after _ fun typeParameters => ?_
  refine .after _ fun ps => ?_
  refine .after _ fun result => ?_
  exact .pure ⟨rfl, by simp [Declaration.memberPositions], rfl⟩

/-- A class is read at its node, its members at nodes inside it and in their order. -/
theorem classOf_readAt : (classOf site isExported isDefault n).Ensures (Declaration.ReadAt site.source n) := by
  unfold classOf
  refine .after _ fun name => ?_
  refine .after _ fun typeParameters => ?_
  refine .after _ fun superclass => ?_
  refine .after _ fun interfaces => ?_
  refine .bind (classMembers?_at site _ _) fun members placed => ?_
  refine .pure ⟨rfl, fun p mem => ?_, rfl⟩
  obtain ⟨m, ⟨body, holds, among⟩, rfl⟩ := placed.positions p mem
  have inBody : body.Inside m := .deeper .here (Node.mem_children_of_mem_named among)
  exact ⟨m, .of_child (Node.mem_children_of_field? holds) inBody, rfl⟩

theorem interfaceOf_readAt :
    (interfaceOf site isExported isDefault n).Ensures (Declaration.ReadAt site.source n) := by
  unfold interfaceOf
  refine .after _ fun name => ?_
  refine .after _ fun typeParameters => ?_
  refine .after _ fun supertypes => ?_
  exact .pure ⟨rfl, by simp [Declaration.memberPositions], rfl⟩

theorem typeAliasOf_readAt :
    (typeAliasOf site isExported isDefault n).Ensures (Declaration.ReadAt site.source n) := by
  unfold typeAliasOf
  refine .after _ fun name => ?_
  refine .after _ fun typeParameters => ?_
  refine .after _ fun type => ?_
  exact .pure ⟨rfl, by simp [Declaration.memberPositions], rfl⟩

theorem enumOf_readAt : (enumOf site isExported isDefault n).Ensures (Declaration.ReadAt site.source n) := by
  unfold enumOf
  refine .after _ fun short => ?_
  refine .after _ fun members => ?_
  exact .pure ⟨rfl, by simp [Declaration.memberPositions], rfl⟩

/-- A variable stands where the whole statement does, not where its declarator does. -/
theorem variableOf_readAt (keyword : VariableKeyword) (statement : Node) :
    (variableOf site isExported keyword statement n).Ensures fun found =>
      ∀ d, found = some d → d.ReadAt site.source statement := by
  unfold variableOf
  split
  · refine .pure fun d found => ?_
    cases found
  · split
    · refine .pure fun d found => ?_
      cases found
    · refine .after _ fun short => ?_
      refine .after _ fun type => ?_
      refine .pure fun d found => ?_
      cases found
      exact ⟨rfl, by simp [Declaration.memberPositions], rfl⟩

theorem variablesOf_readAt :
    (variablesOf site isExported n).Ensures fun ds => ∀ d ∈ ds, d.ReadAt site.source n := by
  unfold variablesOf
  refine .after _ fun keyword => ?_
  refine .bind (.collect fun c _ => variableOf_readAt site c isExported keyword n) fun found each => ?_
  refine .pure fun d mem => ?_
  obtain ⟨some?, among, same⟩ := List.mem_filterMap.1 mem
  obtain ⟨_, _, placed⟩ := each some? among
  exact placed d same

end Readers

/-!
### Declarations and what belongs to them
-/

namespace Declaration

/-- Starts no later than another one. -/
def StartsBefore (d e : Declaration) : Prop := d.head.position.start ≤ e.head.position.start

/-- A declaration does not end before it starts, it encloses what belongs to it, and its members follow one
    another. -/
structure WellPlaced (d : Declaration) : Prop where
  ordered : d.head.position.start ≤ d.head.position.stop
  classMembers : ∀ p ∈ d.memberPositions, d.head.position.Within p
  members : ∀ m ∈ d.members, d.head.position.Within m.head.position
  sorted : d.members.Pairwise StartsBefore

/-- Positions are all that counts. -/
theorem WellPlaced.mapHead {d : Declaration} (placed : d.WellPlaced) {f : Head → Head}
    (same : (f d.head).position = d.head.position) : (d.mapHead f).WellPlaced := by
  constructor
  · rw [head_mapHead, same]
    exact placed.ordered
  · rw [head_mapHead, memberPositions_mapHead, same]
    exact placed.classMembers
  · rw [head_mapHead, members_mapHead, same]
    exact placed.members
  · rw [members_mapHead]
    exact placed.sorted

/-- What is read from a node of a well-nested tree is well placed. -/
theorem ReadAt.wellPlaced {src : Source} {n : Node} {d : Declaration} (read : d.ReadAt src n) (nested : n.Nested)
    (inText : n.stop ≤ src.text.utf8ByteSize) : d.WellPlaced := by
  constructor
  · rw [read.position]
    exact (Source.position_within nested inText .here).ordered
  · rw [read.position]
    intro p mem
    obtain ⟨m, inside, rfl⟩ := read.memberPositions p mem
    exact Source.position_within nested inText inside
  · simp [read.noMembers]
  · simp [read.noMembers]

end Declaration

end Outline
