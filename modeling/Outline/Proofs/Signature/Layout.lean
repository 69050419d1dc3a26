/-
Module: Outline.Proofs.Signature.Layout
Layer: Proofs
Purpose: Text together with its syntax tree. A sketch says what is written: constructs with their parts, and the gaps
  between these. From it follow the text and, once it is known where the text begins, the tree with all its spans.
  Where the source has the text of a sketch, every node of the tree reads what its sketch says, and children are found
  in the tree as they are found in the sketch.
Main exports: Sketch, Part, Sketch.text, Sketch.tree, Source.HasAt, Sketch.Stands, Sketch.Stands.read,
  Sketch.Stands.field?, Sketch.Stands.hasChild, Sketch.Stands.named, Sketch.Stands.operands, separated
-/
import Mathlib.Data.List.Forall2
import Outline.Reading

namespace Outline

mutual

/-- A construct as it is written. -/
inductive Sketch where
  /-- A construct or a token without parts. -/
  | leaf (kind : String) (isNamed : Bool) (text : String)
  /-- A construct with parts. -/
  | node (kind : String) (parts : List Part)

/-- A part of a construct. -/
inductive Part where
  /-- Text that belongs to no node. -/
  | gap (text : String)
  /-- A construct, with the field that it fills. -/
  | child (field : Option String) (content : Sketch)

end

/-- A token: its kind is its text. -/
def Part.token (text : String) : Part := .child none (.leaf text false text)

/-- Constructs one after the other, with a mark and a space between them. -/
def separated (mark : String) : List Sketch → List Part
  | [] => []
  | [s] => [.child none s]
  | s :: t :: rest => .child none s :: .token mark :: .gap " " :: separated mark (t :: rest)

namespace Sketch

def kind : Sketch → String
  | leaf kind _ _ => kind
  | node kind _ => kind

def isNamed : Sketch → Bool
  | leaf _ isNamed _ => isNamed
  | node _ _ => true

mutual

/-- The text of a construct. -/
def text : Sketch → String
  | leaf _ _ t => t
  | node _ parts => textAll parts

/-- The text of parts that follow one another. -/
def textAll : List Part → String
  | [] => ""
  | .gap t :: parts => t ++ textAll parts
  | .child _ s :: parts => s.text ++ textAll parts

end

mutual

/-- The tree of a construct that fills a field and begins at a byte. -/
def tree : Sketch → Option String → Nat → Node
  | leaf kind isNamed t, field, start =>
    ⟨kind, start, start + t.utf8ByteSize, isNamed, false, false, field, []⟩
  | node kind parts, field, start =>
    ⟨kind, start, start + (textAll parts).utf8ByteSize, true, false, false, field, trees parts start⟩

/-- The trees of parts that follow one another. -/
def trees : List Part → Nat → List Node
  | [], _ => []
  | .gap t :: parts, start => trees parts (start + t.utf8ByteSize)
  | .child field s :: parts, start => s.tree field start :: trees parts (start + s.text.utf8ByteSize)

end

/-!
### Children of a sketch
-/

/-- The constructs among some parts, with the fields they fill. -/
def childrenOf : List Part → List (Option String × Sketch)
  | [] => []
  | .gap _ :: parts => childrenOf parts
  | .child field s :: parts => (field, s) :: childrenOf parts

/-- The children of parts that follow each other follow each other. -/
theorem childrenOf_append (parts more : List Part) :
    childrenOf (parts ++ more) = childrenOf parts ++ childrenOf more := by
  induction parts with
  | nil => rfl
  | cons part parts ih => cases part <;> simp [childrenOf, ih]

/-- The children of a construct. -/
def children : Sketch → List (Option String × Sketch)
  | leaf _ _ _ => []
  | node _ parts => childrenOf parts

/-- First child that fills a field. -/
def field? (s : Sketch) (name : String) : Option Sketch :=
  (s.children.find? fun c => c.1 == some name).map (·.2)

/-- Is there a child of this kind? -/
def hasChild (s : Sketch) (kind : String) : Bool := s.children.any fun c => c.2.kind == kind

/-- Children that are constructs of the grammar. -/
def named (s : Sketch) : List Sketch := (s.children.map (·.2)).filter (·.isNamed)

/-- Named children of one of the given kinds. -/
def namedOf (s : Sketch) (kinds : List String) : List Sketch := s.named.filter fun c => kinds.contains c.kind

/-- Named children other than comments. -/
def operands (s : Sketch) : List Sketch := s.named.filter fun c => c.kind != "comment"

end Sketch

namespace Sketch

@[simp] theorem kind_leaf (kind : String) (isNamed : Bool) (t : String) : (leaf kind isNamed t).kind = kind := rfl

@[simp] theorem kind_node (kind : String) (parts : List Part) : (node kind parts).kind = kind := rfl

@[simp] theorem textAll_nil : textAll [] = "" := by rw [textAll]

@[simp] theorem textAll_gap (t : String) (parts : List Part) : textAll (.gap t :: parts) = t ++ textAll parts := by
  rw [textAll]

@[simp] theorem textAll_child (field : Option String) (s : Sketch) (parts : List Part) :
    textAll (.child field s :: parts) = s.text ++ textAll parts := by
  rw [textAll]

@[simp] theorem textAll_token (t : String) (parts : List Part) : textAll (.token t :: parts) = t ++ textAll parts := by
  rw [Part.token, textAll, text]

@[simp] theorem text_leaf (kind : String) (isNamed : Bool) (t : String) : (leaf kind isNamed t).text = t := by rw [text]

@[simp] theorem text_node (kind : String) (parts : List Part) : (node kind parts).text = textAll parts := by rw [text]

/-- The texts of parts that follow each other follow each other. -/
@[simp] theorem textAll_append (parts more : List Part) : textAll (parts ++ more) = textAll parts ++ textAll more := by
  induction parts with
  | nil => simp
  | cons part parts ih => cases part <;> simp [ih, String.append_assoc]

/-- The first of some parts that fills a field. -/
def fieldIn (name : String) (parts : List Part) : Option Sketch :=
  ((childrenOf parts).find? fun c => c.1 == some name).map (·.2)

@[simp] theorem field?_node (kind name : String) (parts : List Part) :
    (node kind parts).field? name = fieldIn name parts := rfl

@[simp] theorem fieldIn_nil (name : String) : fieldIn name [] = none := rfl

@[simp] theorem fieldIn_gap (name t : String) (parts : List Part) :
    fieldIn name (.gap t :: parts) = fieldIn name parts := rfl

@[simp] theorem fieldIn_token (name t : String) (parts : List Part) :
    fieldIn name (.token t :: parts) = fieldIn name parts := rfl

@[simp] theorem fieldIn_child (name : String) (field : Option String) (s : Sketch) (parts : List Part) :
    fieldIn name (.child field s :: parts) = if field = some name then some s else fieldIn name parts := by
  by_cases fills : field = some name <;> simp [fieldIn, childrenOf, fills]

@[simp] theorem fieldIn_append (name : String) (parts more : List Part) :
    fieldIn name (parts ++ more) = (fieldIn name parts).or (fieldIn name more) := by
  simp [fieldIn, childrenOf_append, Option.map_or]

/-- Is one of some parts a construct or token of this kind? -/
def hasIn (kind : String) (parts : List Part) : Bool := (childrenOf parts).any fun c => c.2.kind == kind

@[simp] theorem hasChild_node (k kind : String) (parts : List Part) :
    (node k parts).hasChild kind = hasIn kind parts := rfl

@[simp] theorem hasIn_nil (kind : String) : hasIn kind [] = false := rfl

@[simp] theorem hasIn_gap (kind t : String) (parts : List Part) : hasIn kind (.gap t :: parts) = hasIn kind parts := rfl

@[simp] theorem hasIn_token (kind t : String) (parts : List Part) :
    hasIn kind (.token t :: parts) = (t == kind || hasIn kind parts) := rfl

@[simp] theorem hasIn_child (kind : String) (field : Option String) (s : Sketch) (parts : List Part) :
    hasIn kind (.child field s :: parts) = (s.kind == kind || hasIn kind parts) := rfl

/-- A child of some kind is in the parts behind if it is not in those in front. -/
@[simp] theorem hasIn_append (kind : String) (parts more : List Part) :
    hasIn kind (parts ++ more) = (hasIn kind parts || hasIn kind more) := by
  simp [hasIn, childrenOf_append]

/-- The constructs of the grammar among some parts. -/
def namedIn (parts : List Part) : List Sketch := ((childrenOf parts).map (·.2)).filter (·.isNamed)

/-- The named children of a node come from its parts. -/
theorem named_node (kind : String) (parts : List Part) : (node kind parts).named = namedIn parts := rfl

@[simp] theorem namedIn_nil : namedIn [] = [] := rfl

@[simp] theorem namedIn_gap (t : String) (parts : List Part) : namedIn (.gap t :: parts) = namedIn parts := rfl

@[simp] theorem namedIn_token (t : String) (parts : List Part) : namedIn (.token t :: parts) = namedIn parts := rfl

theorem namedIn_child {field : Option String} {s : Sketch} (named : s.isNamed = true) (parts : List Part) :
    namedIn (.child field s :: parts) = s :: namedIn parts := by
  simp [namedIn, childrenOf, named]

@[simp] theorem namedIn_append (parts more : List Part) : namedIn (parts ++ more) = namedIn parts ++ namedIn more := by
  simp [namedIn, childrenOf_append]

/-- The constructs in a list of constructs. -/
theorem namedIn_separated {mark : String} {ss : List Sketch} (named : ∀ s ∈ ss, s.isNamed = true) :
    namedIn (separated mark ss) = ss := by
  fun_induction separated mark ss with
  | case1 => rfl
  | case2 s => exact namedIn_child (named s List.mem_cons_self) []
  | case3 s t rest ih =>
      rw [List.forall_mem_cons] at named
      rw [namedIn_child named.1, namedIn_token, namedIn_gap, ih named.2]

end Sketch

/-!
### Text in a source
-/

/-- The source has a text at a byte. -/
def Source.HasAt (src : Source) (start : Nat) (t : String) : Prop :=
  ∃ before after, src.text = before ++ t ++ after ∧ before.utf8ByteSize = start

namespace Source.HasAt

variable {src : Source} {start : Nat} {t u : String}

/-- What stands between two texts is cut out by its place. -/
theorem extract_middle (a b c : ByteArray) : (a ++ b ++ c).extract a.size (a.size + b.size) = b := by
  have rest : a.size + b.size - (a ++ b).size = 0 := by simp
  rw [ByteArray.extract_append, ByteArray.extract_append_eq_right rfl rfl, rest]
  simp

/-- The front of a text stands where the whole stands. -/
theorem left (has : src.HasAt start (t ++ u)) : src.HasAt start t := by
  obtain ⟨before, after, text, size⟩ := has
  exact ⟨before, u ++ after, by rw [text]; simp only [String.append_assoc], size⟩

theorem right (has : src.HasAt start (t ++ u)) : src.HasAt (start + t.utf8ByteSize) u := by
  obtain ⟨before, after, text, size⟩ := has
  refine ⟨before ++ t, after, by rw [text]; simp only [String.append_assoc], ?_⟩
  rw [String.utf8ByteSize_append, size]

theorem slice (has : src.HasAt start t) : src.slice? start (start + t.utf8ByteSize) = some t := by
  obtain ⟨before, after, text, rfl⟩ := has
  have bytes : src.bytes.extract before.utf8ByteSize (before.utf8ByteSize + t.utf8ByteSize) = t.toByteArray := by
    rw [Source.bytes, text, String.toUTF8, String.toByteArray_append, String.toByteArray_append]
    exact extract_middle _ _ _
  simp only [slice?, bytes, String.fromUTF8?, dif_pos t.isValidUTF8]
  rfl

/-- The text of a node is the one that stands in its span. -/
theorem textOf {n : Node} (has : src.HasAt n.start t) (size : n.stop = n.start + t.utf8ByteSize) :
    src.textOf n = .ok t := by
  rw [Source.textOf, size, has.slice]

end Source.HasAt

theorem Reading.read_eq {src : Source} {n : Node} {text : String} (written : src.textOf n = .ok text) :
    Reading.read src n = pure text := by
  rw [Reading.read, written]
  rfl

namespace Sketch

/-- A node is that of a sketch whose text the source has there. -/
def Stands (src : Source) (s : Sketch) (n : Node) : Prop :=
  ∃ field start, src.HasAt start s.text ∧ n = s.tree field start

namespace Stands

variable {src : Source} {s : Sketch} {n : Node}

/-- A node has the kind of the sketch that it stands for. -/
theorem kind (stands : Stands src s n) : n.kind = s.kind := by
  obtain ⟨field, start, _, rfl⟩ := stands
  cases s <;> rfl

theorem isNamed (stands : Stands src s n) : n.isNamed = s.isNamed := by
  obtain ⟨field, start, _, rfl⟩ := stands
  cases s <;> rfl

/-- The node reads what its sketch says. -/
theorem textOf (stands : Stands src s n) : src.textOf n = .ok s.text := by
  obtain ⟨field, start, has, rfl⟩ := stands
  cases s with
  | leaf kind isNamed t => exact has.textOf rfl
  | node kind parts => exact has.textOf rfl

theorem read (stands : Stands src s n) : Reading.read src n = pure s.text := Reading.read_eq stands.textOf

/-- The trees of parts are those of the constructs among them. -/
theorem of_trees {start : Nat} (parts : List Part) (has : src.HasAt start (textAll parts)) :
    List.Forall₂ (fun c m => m.field = c.1 ∧ Stands src c.2 m) (childrenOf parts) (trees parts start) := by
  induction parts generalizing start with
  | nil => exact .nil
  | cons part parts ih =>
      cases part with
      | gap t => exact ih has.right
      | child field s =>
          refine .cons ⟨?_, field, start, has.left, rfl⟩ (ih has.right)
          cases s <;> rfl

/-- The children of a node stand for those of its sketch, field by field. -/
theorem children (stands : Stands src s n) :
    List.Forall₂ (fun c m => m.field = c.1 ∧ Stands src c.2 m) s.children n.children := by
  obtain ⟨field, start, has, rfl⟩ := stands
  cases s with
  | leaf kind isNamed t => exact .nil
  | node kind parts => exact of_trees parts has

/-!
### Children found in the tree
-/

theorem field? (stands : Stands src s n) (name : String) : Option.Rel (Stands src) (s.field? name) (n.field? name) := by
  rw [Sketch.field?, Node.field?]
  have children := stands.children
  generalize s.children = cs at children ⊢
  generalize n.children = ns at children ⊢
  induction children with
  | nil => exact .none
  | cons head _ ih =>
      rw [List.find?_cons, List.find?_cons, head.1]
      split
      · exact .some head.2
      · exact ih

theorem hasChild (stands : Stands src s n) (kind : String) : n.hasChild kind = s.hasChild kind := by
  rw [Node.hasChild, Node.child?, List.isSome_find?, Sketch.hasChild]
  have children := stands.children
  generalize s.children = cs at children ⊢
  generalize n.children = ns at children ⊢
  induction children with
  | nil => rfl
  | cons head _ ih =>
      rw [List.any_cons, List.any_cons, ih, head.2.kind, List.contains_cons, List.contains_nil, Bool.or_false]

/-- The named children of a node stand for those of its sketch. -/
theorem named (stands : Stands src s n) : List.Forall₂ (Stands src) s.named n.named := by
  rw [Sketch.named, Node.named]
  have children := stands.children
  generalize s.children = cs at children ⊢
  generalize n.children = ns at children ⊢
  induction children with
  | nil => exact .nil
  | cons head _ ih =>
      rw [List.map_cons, List.filter_cons, List.filter_cons, head.2.isNamed]
      split
      · exact .cons head.2 ih
      · exact ih

/-- Choosing by kind keeps nodes and sketches together. -/
theorem filter_kind {ss : List Sketch} {ns : List Node} (together : List.Forall₂ (Stands src) ss ns)
    (p : String → Bool) : List.Forall₂ (Stands src) (ss.filter fun c => p c.kind) (ns.filter fun c => p c.kind) := by
  induction together with
  | nil => exact .nil
  | cons head _ ih =>
      rw [List.filter_cons, List.filter_cons, head.kind]
      split
      · exact .cons head ih
      · exact ih

theorem namedOf (stands : Stands src s n) (kinds : List String) :
    List.Forall₂ (Stands src) (s.namedOf kinds) (n.namedOf kinds) :=
  filter_kind stands.named kinds.contains

theorem operands (stands : Stands src s n) : List.Forall₂ (Stands src) s.operands n.operands :=
  filter_kind stands.named (· != "comment")

end Stands

end Sketch

end Outline
