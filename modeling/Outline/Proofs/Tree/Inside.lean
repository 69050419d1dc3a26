/-
Module: Outline.Proofs.Tree.Inside
Layer: Proofs
Purpose: The nodes of a tree at any depth, and two conditions that speak of all of them: that every text can be
  read, and that the names of the namespaces satisfy a given condition. Both pass from a tree to its children,
  which is all that a walk over the tree needs of them, and both can be decided by going through the list of all
  nodes.
Main exports: Node.Inside, Node.nodes, Node.inside_iff_mem_nodes, Source.Readable, Source.NamespaceNames
-/
import Outline.Module.Specifiers
import Outline.Source

namespace Outline

/-- The nodes of a tree: its root and, over and over, the children of its nodes. -/
inductive Node.Inside (root : Node) : Node → Prop where
  | here : Inside root root
  | deeper {n c : Node} (inside : Inside root n) (child : c ∈ n.children) : Inside root c

/-- What is inside a child is inside the tree. -/
theorem Node.Inside.of_child {root c n : Node} (child : c ∈ root.children) (inside : c.Inside n) :
    root.Inside n := by
  induction inside with
  | here => exact .deeper .here child
  | deeper _ grandchild ih => exact .deeper ih grandchild

/-- What stands inside a node inside a root stands inside the root. -/
theorem Node.Inside.trans {root n m : Node} (outer : root.Inside n) (inner : n.Inside m) : root.Inside m := by
  induction inner with
  | here => exact outer
  | deeper _ child ih => exact .deeper ih child

/-- What is inside a tree is its root or inside a child. -/
theorem Node.Inside.eq_or_child {root n : Node} (inside : root.Inside n) :
    n = root ∨ ∃ c ∈ root.children, c.Inside n := by
  induction inside with
  | here => exact Or.inl rfl
  | deeper _ child ih =>
      rcases ih with rfl | ⟨c, mem, inside⟩
      · exact Or.inr ⟨_, child, .here⟩
      · exact Or.inr ⟨c, mem, .deeper inside child⟩

namespace Node

/-- A construct of the grammar without faults, as examples are built from. -/
def construct (kind : String) (field : Option String) (start stop : Nat) (children : List Node) : Node :=
  { kind, start, stop, isNamed := true, isMissing := false, hasError := false, field, children }

/-- The same construct, with an error reported in it. -/
def flawed (n : Node) : Node := { n with hasError := true }

mutual

/-- All nodes of a tree in reading order. -/
def nodes : Node → List Node
  | ⟨kind, start, stop, isNamed, isMissing, hasError, field, children⟩ =>
    ⟨kind, start, stop, isNamed, isMissing, hasError, field, children⟩ :: nodesOfAll children

/-- All nodes of a list of trees. -/
def nodesOfAll : List Node → List Node
  | [] => []
  | n :: ns => nodes n ++ nodesOfAll ns

end

/-- The nodes of a tree: the root, then those of its children. -/
theorem nodes_eq (n : Node) : n.nodes = n :: nodesOfAll n.children := by
  cases n; rw [nodes]

theorem mem_nodesOfAll {n : Node} {ns : List Node} : n ∈ nodesOfAll ns ↔ ∃ c ∈ ns, n ∈ c.nodes := by
  induction ns with
  | nil => simp [nodesOfAll]
  | cons c cs ih => simp [nodesOfAll, ih]

theorem inside_of_mem_nodes {root n : Node} (mem : n ∈ root.nodes) : root.Inside n := by
  rw [nodes_eq, List.mem_cons, mem_nodesOfAll] at mem
  rcases mem with rfl | ⟨c, child, mem⟩
  · exact .here
  · have lighter := weight_lt_of_mem_children child
    exact .of_child child (inside_of_mem_nodes mem)
termination_by root.weight

/-- With a node its children are among the nodes of a tree. -/
theorem mem_nodes_of_mem_children {root n c : Node} (mem : n ∈ root.nodes) (child : c ∈ n.children) :
    c ∈ root.nodes := by
  rw [nodes_eq, List.mem_cons, mem_nodesOfAll] at mem
  rw [nodes_eq root, List.mem_cons, mem_nodesOfAll]
  rcases mem with rfl | ⟨d, child', mem⟩
  · refine Or.inr ⟨c, child, ?_⟩
    rw [nodes_eq]
    exact List.mem_cons_self
  · have lighter := weight_lt_of_mem_children child'
    exact Or.inr ⟨d, child', mem_nodes_of_mem_children mem child⟩
termination_by root.weight

/-- The nodes inside a tree are those of its list of nodes. -/
theorem inside_iff_mem_nodes {root n : Node} : root.Inside n ↔ n ∈ root.nodes := by
  refine ⟨fun inside => ?_, inside_of_mem_nodes⟩
  induction inside with
  | here =>
      rw [nodes_eq]
      exact List.mem_cons_self
  | deeper _ child ih => exact mem_nodes_of_mem_children ih child

/-- A child found by its kind is of one of these kinds. -/
theorem kind_mem_of_child? {n c : Node} {kinds : List String} (h : n.child? kinds = some c) : c.kind ∈ kinds := by
  have found := List.find?_some h
  exact List.contains_iff_mem.1 found

/-- The namespace that a statement declares is inside it. -/
theorem inside_of_namespaceOf? {n ns : Node} (found : n.namespaceOf? = some ns) : n.Inside ns := by
  fun_induction namespaceOf? n with
  | case1 =>
      cases found
      exact .here
  | case2 => exact .deeper .here (mem_children_of_child? found)
  | case3 n _ _ _ declaration lt below ih =>
      have wraps : n.field? "declaration" = some declaration := by
        rw [← map_val_fieldBelow?, below]
        rfl
      exact .of_child (mem_children_of_field? wraps) (ih found)
  | case4 => cases found
  | case5 => cases found

end Node

namespace Source

/-- Every text of the tree can be read: no span cuts a character. -/
def Readable (src : Source) (root : Node) : Prop :=
  ∀ n, root.Inside n → ∃ text, src.textOf n = .ok text

/-- The names of all namespaces of the tree, blanks removed, satisfy a condition. Namespaces named by a string
    are not meant: they only add to another module. -/
def NamespaceNames (src : Source) (condition : String → Prop) (root : Node) : Prop :=
  ∀ ns, root.Inside ns → ns.kind ∈ Node.namespaceKinds →
    ∀ name, ns.field? "name" = some name → name.kind ≠ "string" →
      ∀ text, src.textOf name = .ok text → condition (Text.compact text)

variable {src : Source} {root c : Node}

theorem Readable.child (readable : src.Readable root) (child : c ∈ root.children) : src.Readable c :=
  fun n inside => readable n (.of_child child inside)

theorem Readable.of_inside {n : Node} (readable : src.Readable root) (inside : root.Inside n) : src.Readable n :=
  fun m deeper => readable m (inside.trans deeper)

/-- What holds of the names of all namespaces in a node holds of those in its children. -/
theorem NamespaceNames.child {condition : String → Prop} (names : src.NamespaceNames condition root)
    (child : c ∈ root.children) : src.NamespaceNames condition c :=
  fun ns inside => names ns (.of_child child inside)

instance (src : Source) (root : Node) : Decidable (src.Readable root) :=
  decidable_of_iff (∀ n ∈ root.nodes, (src.textOf n).isOk) <| by
    refine forall_congr' fun n => ?_
    rw [Node.inside_iff_mem_nodes]
    refine imp_congr_right fun _ => ?_
    cases src.textOf n <;> simp [Except.isOk, Except.toBool]

/-- Is the name of a namespace as a condition asks? -/
def namespaceNameOk (src : Source) (condition : String → Bool) (ns : Node) : Bool :=
  match ns.field? "name" with
  | none => true
  | some name =>
    name.kind == "string" ||
      match src.textOf name with
      | .ok text => condition (Text.compact text)
      | .error _ => true

/-- What the check of a namespace's name says: it has no name, a quoted one, or one that fits. -/
theorem namespaceNameOk_iff {condition : String → Bool} {ns : Node} :
    namespaceNameOk src condition ns ↔
      ∀ name, ns.field? "name" = some name → name.kind ≠ "string" →
        ∀ text, src.textOf name = .ok text → condition (Text.compact text) := by
  unfold namespaceNameOk
  cases ns.field? "name" with
  | none => simp
  | some name =>
      by_cases string : name.kind = "string"
      · simp [string]
      · cases text : src.textOf name with
        | ok text => simp [string, text]
        | error span => simp [string, text]

instance (src : Source) (condition : String → Prop) [DecidablePred condition] (root : Node) :
    Decidable (src.NamespaceNames condition root) :=
  decidable_of_iff
    (∀ ns ∈ root.nodes, ns.kind ∈ Node.namespaceKinds → namespaceNameOk src (fun name => condition name) ns) <| by
    simp only [NamespaceNames, Node.inside_iff_mem_nodes, namespaceNameOk_iff, decide_eq_true_eq]

/-- A condition that always holds, holds of the names of all namespaces. -/
theorem namespaceNames_of_forall {condition : String → Prop} (always : ∀ name, condition name) :
    src.NamespaceNames condition root :=
  fun _ _ _ _ _ _ _ _ => always _

end Source

end Outline
