/-
Module: Outline.Proofs.Tree.Comments
Layer: Proofs
Purpose: Two trees that differ in comments alone. Some comments of the first are missing in the second, at any depth;
  of a literal type the first named child stays, as that is what it goes by. Children looked for by field, by kind or
  among the named ones that are no comment correspond to each other.
Main exports: Node.IsComment, Node.CommentsDropped, Node.CommentsDropped.field?, Node.CommentsDropped.child?,
  Node.CommentsDropped.operands, Node.CommentsDropped.uncommented, Node.CommentInserted, Node.CommentInserted.dropped
-/
import Outline.Proofs.Entries.Related
import Outline.Proofs.Tree.Uncommented

namespace Outline.Node

/-!
### Dropping comments
-/

/-- A comment outside all fields that holds nothing but such comments. -/
inductive IsComment : Node → Prop where
  | mk {n : Node} (kind : n.kind = "comment") (field : n.field = none) (children : ∀ c ∈ n.children, c.IsComment) :
      IsComment n

theorem IsComment.kind {n : Node} : n.IsComment → n.kind = "comment"
  | ⟨kind, _, _⟩ => kind

theorem IsComment.field {n : Node} : n.IsComment → n.field = none
  | ⟨_, field, _⟩ => field

theorem IsComment.children {n : Node} : n.IsComment → ∀ c ∈ n.children, c.IsComment
  | ⟨_, _, children⟩ => children

/-- The children of a node and those that are left of them, each related to what is left of it. Only comments are
    dropped, and none before the first named child if that is kept. -/
inductive DroppedAmong (R : Node → Node → Prop) : Bool → List Node → List Node → Prop where
  | nil {keepsFirst : Bool} : DroppedAmong R keepsFirst [] []
  | kept {keepsFirst : Bool} {c c' : Node} {cs cs' : List Node} (child : R c c')
      (others : DroppedAmong R (keepsFirst && !c.isNamed) cs cs') : DroppedAmong R keepsFirst (c :: cs) (c' :: cs')
  | dropped {c : Node} {cs cs' : List Node} (comment : c.IsComment) (others : DroppedAmong R false cs cs') :
      DroppedAmong R false (c :: cs) cs'

/-- The second tree is the first without some of its comments. -/
inductive CommentsDropped : Node → Node → Prop where
  | node {n n' : Node} (kind : n'.kind = n.kind) (start : n'.start = n.start) (stop : n'.stop = n.stop)
      (isNamed : n'.isNamed = n.isNamed) (field : n'.field = n.field)
      (children : DroppedAmong CommentsDropped (n.kind == "literal_type") n.children n'.children) :
      CommentsDropped n n'

namespace DroppedAmong

variable {R : Node → Node → Prop} {keepsFirst : Bool} {cs cs' : List Node} {p : Node → Bool}

/-- A test that comments fail finds corresponding children. -/
theorem find? (among : DroppedAmong R keepsFirst cs cs') (same : ∀ c c', R c c' → p c' = p c)
    (fails : ∀ c : Node, c.IsComment → p c = false) : Option.Rel R (cs.find? p) (cs'.find? p) := by
  induction among with
  | nil => exact .none
  | @kept _ c c' cs cs' child _ ih =>
      rw [List.find?_cons, List.find?_cons, same c c' child]
      cases p c with
      | true => exact .some child
      | false => exact ih
  | dropped comment _ ih =>
      rw [List.find?_cons, fails _ comment]
      exact ih

/-- Picking nodes by something that comments do not have finds related nodes on both sides. -/
theorem filter (among : DroppedAmong R keepsFirst cs cs') (same : ∀ c c', R c c' → p c' = p c)
    (fails : ∀ c : Node, c.IsComment → p c = false) : List.Forall₂ R (cs.filter p) (cs'.filter p) := by
  induction among with
  | nil => exact .nil
  | @kept _ c c' cs cs' child _ ih =>
      rw [List.filter_cons, List.filter_cons, same c c' child]
      cases p c with
      | true => exact .cons child ih
      | false => exact ih
  | dropped comment _ ih =>
      rw [List.filter_cons, fails _ comment]
      exact ih

/-- The first named child is kept if it is asked for. -/
theorem head?_named (among : DroppedAmong R true cs cs') (same : ∀ c c', R c c' → c'.isNamed = c.isNamed) :
    Option.Rel R (cs.filter (·.isNamed)).head? (cs'.filter (·.isNamed)).head? := by
  generalize keeps : true = keepsFirst at among
  induction among with
  | nil => exact .none
  | @kept _ c c' cs cs' child _ ih =>
      rw [List.filter_cons, List.filter_cons, same c c' child]
      cases named : c.isNamed with
      | true => exact .some child
      | false => exact ih (by rw [← keeps, named]; rfl)
  | dropped => cases keeps

end DroppedAmong

/-!
### The children found
-/

namespace CommentsDropped

variable {n n' : Node}

theorem kind : n.CommentsDropped n' → n'.kind = n.kind
  | ⟨kind, _, _, _, _, _⟩ => kind

theorem start : n.CommentsDropped n' → n'.start = n.start
  | ⟨_, start, _, _, _, _⟩ => start

theorem stop : n.CommentsDropped n' → n'.stop = n.stop
  | ⟨_, _, stop, _, _, _⟩ => stop

theorem isNamed : n.CommentsDropped n' → n'.isNamed = n.isNamed
  | ⟨_, _, _, isNamed, _, _⟩ => isNamed

theorem sameField : n.CommentsDropped n' → n'.field = n.field
  | ⟨_, _, _, _, field, _⟩ => field

/-- The children of the one node are those of the other, with comments dropped among them. -/
theorem children : n.CommentsDropped n' →
    DroppedAmong CommentsDropped (n.kind == "literal_type") n.children n'.children
  | ⟨_, _, _, _, _, children⟩ => children

theorem field? (dropped : n.CommentsDropped n') (name : String) :
    Option.Rel CommentsDropped (n.field? name) (n'.field? name) :=
  dropped.children.find? (fun c c' child => by rw [child.sameField]) fun c comment => by simp [comment.field]

/-- The preferred of two fields is found on both sides or on neither. -/
theorem eitherField? (dropped : n.CommentsDropped n') (preferred other : String) :
    Option.Rel CommentsDropped (n.eitherField? preferred other) (n'.eitherField? preferred other) :=
  rel_or (dropped.field? preferred) (dropped.field? other)

/-- A child of certain kinds is found on both sides or on neither, unless comments are asked for. -/
theorem child? (dropped : n.CommentsDropped n') {kinds : List String} (other : "comment" ∉ kinds) :
    Option.Rel CommentsDropped (n.child? kinds) (n'.child? kinds) := by
  refine dropped.children.find? (fun c c' child => by rw [child.kind]) fun c comment => ?_
  rw [comment.kind]
  exact Bool.eq_false_iff.2 fun found => other (List.contains_iff_mem.1 found)

theorem hasChild (dropped : n.CommentsDropped n') {kind : String} (other : "comment" ≠ kind) :
    n'.hasChild kind = n.hasChild kind :=
  isSome_of_rel (dropped.child? (by simpa using other))

/-- The operands on both sides are the same but for dropped comments. -/
theorem operands (dropped : n.CommentsDropped n') : List.Forall₂ CommentsDropped n.operands n'.operands := by
  simp only [Node.operands, named, List.filter_filter]
  refine dropped.children.filter (fun c c' child => by rw [child.kind, child.isNamed]) fun c comment => ?_
  simp [comment.kind]

theorem firstOperand? (dropped : n.CommentsDropped n') :
    Option.Rel CommentsDropped n.firstOperand? n'.firstOperand? :=
  rel_head? dropped.operands

/-- The named children of certain kinds on both sides are the same but for dropped comments. -/
theorem namedOf (dropped : n.CommentsDropped n') {kinds : List String} (other : "comment" ∉ kinds) :
    List.Forall₂ CommentsDropped (n.namedOf kinds) (n'.namedOf kinds) := by
  simp only [Node.namedOf, named, List.filter_filter]
  refine dropped.children.filter (fun c c' child => by rw [child.kind, child.isNamed]) fun c comment => ?_
  rw [comment.kind, Bool.and_eq_false_imp]
  exact fun found => absurd (List.contains_iff_mem.1 found) other

/-- The first named child of a literal type is kept, even if it is a comment. -/
theorem head?_named (dropped : n.CommentsDropped n') (literal : n.kind = "literal_type") :
    Option.Rel CommentsDropped n.named.head? n'.named.head? := by
  have among := dropped.children
  rw [literal] at among
  exact among.head?_named fun _ _ child => child.isNamed

end CommentsDropped

/-!
### Trees without comments
-/

theorem isComment_of_remark {n : Node} (remark : n.isRemark = true) : n.IsComment := by
  have known := isRemark_iff.1 remark
  refine .mk known.kind known.field fun c mem => ?_
  have lighter := weight_lt_of_mem_children mem
  exact isComment_of_remark (known.children c mem)
termination_by n.weight

mutual

/-- Comments are what a tree without comments lacks. -/
theorem CommentsDropped.uncommented : (n : Node) → n.CommentsDropped n.uncommented
  | ⟨kind, start, stop, isNamed, isMissing, hasError, field, children⟩ => by
    rw [Node.uncommented]
    refine .node rfl rfl rfl rfl rfl (DroppedAmong.uncommentedAll ?_ children)
    intro literal
    simp_all [takesFirst]

/-- Taking all comments out of a list of children drops comments among them. -/
theorem DroppedAmong.uncommentedAll {keeps keepsFirst : Bool} (kept : keeps = true → keepsFirst = true) :
    (cs : List Node) → DroppedAmong CommentsDropped keeps cs (uncommentedAll keepsFirst cs)
  | [] => .nil
  | c :: cs => by
    rw [Node.uncommentedAll]
    split
    next remark =>
      rw [Bool.and_eq_true, Bool.not_eq_true'] at remark
      obtain ⟨remark, passes⟩ := remark
      have free : keeps = false := Bool.eq_false_iff.2 fun keeps => by simp [kept keeps] at passes
      subst free
      exact .dropped (isComment_of_remark remark) (DroppedAmong.uncommentedAll (absurd · Bool.false_ne_true) cs)
    next =>
      refine .kept (CommentsDropped.uncommented c) (DroppedAmong.uncommentedAll (fun both => ?_) cs)
      rw [Bool.and_eq_true] at both ⊢
      exact ⟨kept both.1, both.2⟩

end

/-!
### Inserting a comment
-/

/-- What stands in front stays. -/
theorem DroppedAmong.behind {R : Node → Node → Prop} {keepsFirst : Bool} {before cs cs' : List Node}
    (same : ∀ c ∈ before, R c c) (among : DroppedAmong R (keepsFirst && !before.any (·.isNamed)) cs cs') :
    DroppedAmong R keepsFirst (before ++ cs) (before ++ cs') := by
  induction before generalizing keepsFirst with
  | nil => simpa using among
  | cons c before ih =>
      rw [List.forall_mem_cons] at same
      rw [List.any_cons, Bool.not_or, ← Bool.and_assoc] at among
      exact .kept same.1 (ih same.2 among)

theorem DroppedAmong.refl {R : Node → Node → Prop} {cs : List Node} (same : ∀ c ∈ cs, R c c) (keepsFirst : Bool) :
    DroppedAmong R keepsFirst cs cs := by
  have none : DroppedAmong R (keepsFirst && !cs.any (·.isNamed)) [] [] := .nil
  simpa using DroppedAmong.behind same none

theorem CommentsDropped.refl (n : Node) : n.CommentsDropped n := by
  refine .node rfl rfl rfl rfl rfl (.refl (fun c mem => ?_) _)
  have lighter := weight_lt_of_mem_children mem
  exact CommentsDropped.refl c
termination_by n.weight

/-- The second tree is the first with one comment more, of any span and with any flags, at any place. In a literal type
    itself it comes behind a named child. -/
inductive CommentInserted : Node → Node → Prop where
  | here {n remark : Node} {before after : List Node} (kind : remark.kind = "comment") (field : remark.field = none)
      (children : remark.children = []) (split : n.children = before ++ after)
      (behind : n.kind = "literal_type" → ∃ c ∈ before, c.isNamed = true) :
      CommentInserted n { n with children := before ++ remark :: after }
  | deeper {n c c' : Node} {before after : List Node} (split : n.children = before ++ c :: after)
      (inside : CommentInserted c c') : CommentInserted n { n with children := before ++ c' :: after }

/-- Without the comment that was inserted, the tree is as before. -/
theorem CommentInserted.dropped {n n' : Node} (inserted : CommentInserted n n') : n'.CommentsDropped n := by
  have same : ∀ cs : List Node, ∀ c ∈ cs, c.CommentsDropped c := fun _ c _ => .refl c
  induction inserted with
  | @here n remark before after kind field children split behind =>
      refine .node rfl rfl rfl rfl rfl ?_
      rw [split]
      refine .behind (same before) ?_
      -- In a literal type, a named child in front of the comment has been kept.
      have past : (n.kind == "literal_type" && !before.any (·.isNamed)) = false := by
        rw [Bool.and_eq_false_imp]
        intro literal
        simpa using behind (by simpa using literal)
      rw [past]
      exact .dropped (.mk kind field (by simp [children])) (.refl (same after) false)
  | @deeper n c c' before after split inside ih =>
      refine .node rfl rfl rfl rfl rfl ?_
      rw [split]
      exact .behind (same before) (.kept ih (.refl (same after) _))

end Outline.Node
