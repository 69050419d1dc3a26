/-
Module: Outline.Proofs.Tree.Nested
Layer: Proofs
Purpose: Trees whose spans are well nested: no span ends before it starts, children lie inside their parent, and
  siblings follow one another without overlap. This is what a parser gives; a tree taken as it comes need not be so.
Main exports: Node.Nested, Node.Nested.child, Node.Nested.span_inside
-/
import Outline.Proofs.Tree.Inside

namespace Outline.Node

/-- The span of a node and those of its children fit together. -/
structure FitsChildren (n : Node) : Prop where
  ordered : n.start ≤ n.stop
  inside : ∀ c ∈ n.children, n.start ≤ c.start ∧ c.stop ≤ n.stop
  apart : n.children.Pairwise fun a b => a.stop ≤ b.start

/-- The spans of a tree are well nested, at every node. -/
def Nested (root : Node) : Prop := ∀ n, root.Inside n → n.FitsChildren

/-- In a nested tree the children of the root fit into it. -/
theorem Nested.here {n : Node} (nested : n.Nested) : n.FitsChildren := nested n .here

theorem Nested.child {n c : Node} (nested : n.Nested) (child : c ∈ n.children) : c.Nested :=
  fun m inside => nested m (.of_child child inside)

theorem Nested.of_inside {n m : Node} (nested : n.Nested) (inside : n.Inside m) : m.Nested :=
  fun k deeper => nested k (inside.trans deeper)

/-- Whatever is inside a well-nested tree lies inside its span. -/
theorem Nested.span_inside {n m : Node} (nested : n.Nested) (inside : n.Inside m) :
    n.start ≤ m.start ∧ m.start ≤ m.stop ∧ m.stop ≤ n.stop := by
  induction inside with
  | here => exact ⟨Nat.le_refl _, nested.here.ordered, Nat.le_refl _⟩
  | deeper within child ih =>
      have parent := (nested _ within).inside _ child
      have own := (nested _ (within.deeper child)).ordered
      omega

instance (n : Node) : Decidable n.FitsChildren :=
  decidable_of_iff
    (n.start ≤ n.stop ∧ (∀ c ∈ n.children, n.start ≤ c.start ∧ c.stop ≤ n.stop) ∧
      n.children.Pairwise fun a b => a.stop ≤ b.start)
    ⟨fun ⟨ordered, inside, apart⟩ => ⟨ordered, inside, apart⟩, fun fits => ⟨fits.ordered, fits.inside, fits.apart⟩⟩

instance (root : Node) : Decidable root.Nested :=
  decidable_of_iff (∀ n ∈ root.nodes, n.FitsChildren) <| by
    simp only [Nested, inside_iff_mem_nodes]

end Outline.Node
