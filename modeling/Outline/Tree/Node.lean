/-
Module: Outline.Tree.Node
Layer: Tree
Purpose: Concrete syntax trees as a grammar gives them: every node has a kind, a byte span, a few flags, the
  name of the field it fills in its parent, and all of its children in order. The tree is taken as it
  comes: no child, field or flag is assumed to be there or to agree with another.
  `weight` counts nodes; it is the measure by which everything that walks a tree ends.
Main exports: Node, Node.weight, Node.field?, Node.child?, Node.hasChild, Node.named, Node.operands,
  Node.firstOperand?
-/

namespace Outline

/-- A node of a syntax tree. -/
structure Node where
  /-- Kind of construct, such as `union_type`, or the token itself for punctuation and keywords. -/
  kind : String
  /-- First byte of its text. -/
  start : Nat
  /-- End of its text, one past the last byte. -/
  stop : Nat
  /-- Is it a construct of the grammar, not mere punctuation? -/
  isNamed : Bool
  /-- Was it supplied by the parser although the text lacks it? -/
  isMissing : Bool
  /-- Does the parser report an error in it? -/
  hasError : Bool
  /-- Field that it fills in its parent. -/
  field : Option String
  /-- All children, punctuation included. -/
  children : List Node
deriving Repr, Inhabited, BEq

namespace Node

mutual

/-- Number of nodes in the tree. -/
def weight : Node → Nat
  | ⟨_, _, _, _, _, _, _, children⟩ => 1 + weightAll children

/-- Number of nodes in a list of trees. -/
def weightAll : List Node → Nat
  | [] => 0
  | c :: cs => c.weight + weightAll cs

end

/-- Weight of a node through its children. -/
theorem weight_eq (n : Node) : n.weight = 1 + weightAll n.children := by
  cases n; rw [weight]

/-- One tree of a list weighs at most as much as the list. -/
theorem weight_le_weightAll {c : Node} {cs : List Node} (h : c ∈ cs) : c.weight ≤ weightAll cs := by
  induction cs with
  | nil => simp at h
  | cons d ds ih =>
    rw [weightAll]
    rcases List.mem_cons.1 h with rfl | h
    · exact Nat.le_add_right _ _
    · exact Nat.le_trans (ih h) (Nat.le_add_left _ _)

/-- A child weighs less than its parent. -/
theorem weight_lt_of_mem_children {c n : Node} (h : c ∈ n.children) : c.weight < n.weight := by
  have := weight_le_weightAll h
  rw [weight_eq n]; omega

/-!
### Children by field, kind and role
-/

/-- First child that fills a field. -/
def field? (n : Node) (name : String) : Option Node :=
  n.children.find? fun c => c.field == some name

/-- First child, punctuation included, of one of the given kinds. -/
def child? (n : Node) (kinds : List String) : Option Node :=
  n.children.find? fun c => kinds.contains c.kind

/-- Is there a child of this kind? -/
def hasChild (n : Node) (kind : String) : Bool :=
  (n.child? [kind]).isSome

/-- Children that are constructs of the grammar. -/
def named (n : Node) : List Node :=
  n.children.filter (·.isNamed)

/-- Named children of one of the given kinds. -/
def namedOf (n : Node) (kinds : List String) : List Node :=
  n.named.filter fun c => kinds.contains c.kind

/-- Named children other than comments. -/
def operands (n : Node) : List Node :=
  n.named.filter fun c => c.kind != "comment"

/-- First named child that is not a comment. -/
def firstOperand? (n : Node) : Option Node :=
  n.operands.head?

/-- First child that fills one of two fields, the first field preferred. -/
def eitherField? (n : Node) (preferred other : String) : Option Node :=
  (n.field? preferred).or (n.field? other)

/-!
### Weights of the children found
-/

theorem mem_children_of_mem_named {c n : Node} (h : c ∈ n.named) : c ∈ n.children :=
  (List.mem_filter.1 h).1

theorem mem_named_of_mem_namedOf {c n : Node} {kinds : List String} (h : c ∈ n.namedOf kinds) :
    c ∈ n.named :=
  (List.mem_filter.1 h).1

theorem mem_named_of_mem_operands {c n : Node} (h : c ∈ n.operands) : c ∈ n.named :=
  (List.mem_filter.1 h).1

theorem mem_children_of_field? {c n : Node} {name : String} (h : n.field? name = some c) :
    c ∈ n.children :=
  List.mem_of_find?_eq_some h

theorem mem_children_of_child? {c n : Node} {kinds : List String} (h : n.child? kinds = some c) :
    c ∈ n.children :=
  List.mem_of_find?_eq_some h

theorem mem_operands_of_firstOperand? {c n : Node} (h : n.firstOperand? = some c) :
    c ∈ n.operands :=
  List.mem_of_head? h

theorem mem_children_of_eitherField? {c n : Node} {preferred other : String}
    (h : n.eitherField? preferred other = some c) : c ∈ n.children := by
  rcases Option.or_eq_some_iff.1 h with h | ⟨_, h⟩
  · exact mem_children_of_field? h
  · exact mem_children_of_field? h

/-- A named child is lighter than its node. The recursions over trees descend on the weight. -/
theorem weight_lt_of_mem_named {c n : Node} (h : c ∈ n.named) : c.weight < n.weight :=
  weight_lt_of_mem_children (mem_children_of_mem_named h)

theorem weight_lt_of_mem_namedOf {c n : Node} {kinds : List String} (h : c ∈ n.namedOf kinds) :
    c.weight < n.weight :=
  weight_lt_of_mem_named (mem_named_of_mem_namedOf h)

theorem weight_lt_of_mem_operands {c n : Node} (h : c ∈ n.operands) : c.weight < n.weight :=
  weight_lt_of_mem_named (mem_named_of_mem_operands h)

theorem weight_lt_of_field? {c n : Node} {name : String} (h : n.field? name = some c) :
    c.weight < n.weight :=
  weight_lt_of_mem_children (mem_children_of_field? h)

theorem weight_lt_of_child? {c n : Node} {kinds : List String} (h : n.child? kinds = some c) :
    c.weight < n.weight :=
  weight_lt_of_mem_children (mem_children_of_child? h)

theorem weight_lt_of_firstOperand? {c n : Node} (h : n.firstOperand? = some c) :
    c.weight < n.weight :=
  weight_lt_of_mem_operands (mem_operands_of_firstOperand? h)

theorem weight_lt_of_eitherField? {c n : Node} {preferred other : String}
    (h : n.eitherField? preferred other = some c) : c.weight < n.weight :=
  weight_lt_of_mem_children (mem_children_of_eitherField? h)

end Node

end Outline
