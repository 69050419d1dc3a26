/-
Module: Outline.Tree.Below
Layer: Tree
Purpose: The children of a node together with the fact that they weigh less than it. Functions that call
  themselves on such children end, whatever the tree looks like.
Main exports: Node.Below, Node.fieldBelow?, Node.childBelow?, Node.namedBelow, Node.operandsBelow,
  Node.firstBelow?
-/
import Outline.Tree.Node

namespace Outline.Node

/-- The nodes lighter than `n`; its children are among them. -/
abbrev Below (n : Node) := { c : Node // c.weight < n.weight }

/-- First child that fills a field. -/
def fieldBelow? (n : Node) (name : String) : Option n.Below :=
  (n.field? name).attachWith _ fun _ h => weight_lt_of_field? h

/-- First child of one of the given kinds. -/
def childBelow? (n : Node) (kinds : List String) : Option n.Below :=
  (n.child? kinds).attachWith _ fun _ h => weight_lt_of_child? h

/-- First named child that is not a comment. -/
def firstBelow? (n : Node) : Option n.Below :=
  n.firstOperand?.attachWith _ fun _ h => weight_lt_of_firstOperand? h

/-- Named children. -/
def namedBelow (n : Node) : List n.Below :=
  n.named.attachWith _ fun _ h => weight_lt_of_mem_named h

/-- Named children of one of the given kinds. -/
def namedOfBelow (n : Node) (kinds : List String) : List n.Below :=
  (n.namedOf kinds).attachWith _ fun _ h => weight_lt_of_mem_namedOf h

/-- Named children other than comments. -/
def operandsBelow (n : Node) : List n.Below :=
  n.operands.attachWith _ fun _ h => weight_lt_of_mem_operands h

/-- Forgetting the bound gives back the children. -/
@[simp] theorem map_val_namedBelow (n : Node) : n.namedBelow.map (·.1) = n.named := by
  simp [namedBelow]

/-- The children with the proof of their weight are the children. -/
@[simp] theorem map_val_namedOfBelow (n : Node) (kinds : List String) :
    (n.namedOfBelow kinds).map (·.1) = n.namedOf kinds := by
  simp [namedOfBelow]

@[simp] theorem map_val_operandsBelow (n : Node) : n.operandsBelow.map (·.1) = n.operands := by
  simp [operandsBelow]

@[simp] theorem map_val_fieldBelow? (n : Node) (name : String) :
    (n.fieldBelow? name).map (·.1) = n.field? name := by
  simp [fieldBelow?]

@[simp] theorem map_val_childBelow? (n : Node) (kinds : List String) :
    (n.childBelow? kinds).map (·.1) = n.child? kinds := by
  simp [childBelow?]

@[simp] theorem map_val_firstBelow? (n : Node) : n.firstBelow?.map (·.1) = n.firstOperand? := by
  simp [firstBelow?]

end Outline.Node
