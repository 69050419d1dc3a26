/-
Module: Outline.Proofs.Tree.Address
Layer: Proofs
Purpose: Nodes of a tree by their addresses. Two nodes of a tree may be equal; their addresses tell them apart, and put
  in lexicographic order the addresses follow the text. A tree may be given other children at an address, and what is
  read off the nodes above stays.
Main exports: Node.nodeAt?, Node.withChildrenAt, Node.field?_withChildrenAt
-/
import Outline.Tree.Node

namespace Outline.Node

/-- The node at an address: the way down to it by the numbers of the children. -/
def nodeAt? (n : Node) : List Nat → Option Node
  | [] => some n
  | i :: rest => n.children[i]?.bind fun c => c.nodeAt? rest

/-- The tree in which the node at an address has other children. -/
def withChildrenAt (n : Node) (children : List Node) : List Nat → Node
  | [] => { n with children }
  | i :: rest => { n with children := n.children.modify i fun c => c.withChildrenAt children rest }

/-- An address leads through a child, and from there by the rest. -/
theorem nodeAt?_cons {n m : Node} {i : Nat} {rest : List Nat} :
    n.nodeAt? (i :: rest) = some m ↔ ∃ c, n.children[i]? = some c ∧ c.nodeAt? rest = some m := by
  rw [nodeAt?, Option.bind_eq_some_iff]

section Data

variable (n : Node) (children : List Node) (address : List Nat)

/-- Replacing children somewhere below leaves the kind of a node as it is. -/
@[simp] theorem kind_withChildrenAt : (n.withChildrenAt children address).kind = n.kind := by
  cases address <;> rfl

@[simp] theorem isNamed_withChildrenAt : (n.withChildrenAt children address).isNamed = n.isNamed := by
  cases address <;> rfl

/-- Replacing children somewhere below leaves the field of a node as it is. -/
@[simp] theorem field_withChildrenAt : (n.withChildrenAt children address).field = n.field := by
  cases address <;> rfl

end Data

/-- Where an element is changed that a test does not tell from its change, the same element is found, or the changed
    one in its place. -/
theorem find?_modify {α : Type} {p : α → Bool} {f : α → α} (same : ∀ a, p (f a) = p a) (i : Nat) (as : List α) :
    (as.modify i f).find? p = as.find? p ∨
      ∃ a, as[i]? = some a ∧ as.find? p = some a ∧ (as.modify i f).find? p = some (f a) := by
  induction as generalizing i with
  | nil => exact .inl (by rw [List.modify_nil])
  | cons a as ih =>
      cases i with
      | zero =>
          rw [List.modify_zero_cons, List.find?_cons, List.find?_cons, same]
          cases holds : p a with
          | true => exact .inr ⟨a, rfl, rfl, rfl⟩
          | false => exact .inl rfl
      | succ i =>
          rw [List.modify_succ_cons, List.find?_cons, List.find?_cons]
          cases p a with
          | true => exact .inl rfl
          | false => simpa using ih i

/-- A field is filled by the same child, or by the child with the change inside. -/
theorem field?_withChildrenAt (n : Node) (children : List Node) (i : Nat) (rest : List Nat) (name : String) :
    (n.withChildrenAt children (i :: rest)).field? name = n.field? name ∨
      ∃ c, n.children[i]? = some c ∧ n.field? name = some c ∧
        (n.withChildrenAt children (i :: rest)).field? name = some (c.withChildrenAt children rest) :=
  find?_modify (fun c => by rw [field_withChildrenAt]) i n.children

end Outline.Node
