/-
Module: Outline.Proofs.Tree.Uncommented
Layer: Proofs
Purpose: Trees without their comments. Children are looked for by field, by kind, or among the named ones that are no
  comment, and none of these meets a comment. A few nodes take their first named child as it comes; a comment that
  stands there is left in place. Adding comments anywhere else does not change the tree without comments.
Main exports: Node.isRemark, Node.takesFirst, Node.uncommented, Node.field?_uncommented, Node.child?_uncommented,
  Node.operands_uncommented, Node.parts, Node.CommentAdded, Node.CommentAdded.uncommented_eq
-/
import Outline.Proofs.Tree.Inside

namespace Outline.Node

mutual

/-- Is the node a comment, outside all fields and without faults, that holds nothing but such comments? -/
def isRemark : Node → Bool
  | ⟨kind, _, _, isNamed, isMissing, hasError, field, children⟩ =>
    kind == "comment" && isNamed && !isMissing && !hasError && field.isNone && allRemarks children

/-- Are all nodes such comments? -/
def allRemarks : List Node → Bool
  | [] => true
  | c :: cs => c.isRemark && allRemarks cs

end

/-- Does the node go by its first named child, be it a comment or not? -/
def takesFirst (n : Node) : Bool :=
  ["ambient_declaration", "namespace_export", "literal_type"].contains n.kind ||
    (n.kind == "extends_clause" && (n.field? "value").isNone)

mutual

/-- The tree without comments, those apart that a node goes by. -/
def uncommented : Node → Node
  | ⟨kind, start, stop, isNamed, isMissing, hasError, field, children⟩ =>
    let n : Node := ⟨kind, start, stop, isNamed, isMissing, hasError, field, children⟩
    ⟨kind, start, stop, isNamed, isMissing, hasError, field, uncommentedAll n.takesFirst children⟩

/-- The trees without comments. The first named one stays if asked for. -/
def uncommentedAll (keepsFirst : Bool) : List Node → List Node
  | [] => []
  | c :: cs =>
    if c.isRemark && !keepsFirst then uncommentedAll false cs
    else c.uncommented :: uncommentedAll (keepsFirst && !c.isNamed) cs

end

/-- A comment as the grammar gives it. -/
def comment (start stop : Nat) : Node := .construct "comment" none start stop []

/-- A tree with one comment more. Where a node goes by its first named child, the comment comes behind that. -/
inductive CommentAdded : Node → Node → Prop where
  | here (n : Node) {before after : List Node} (start stop : Nat) (split : n.children = before ++ after)
      (behind : n.takesFirst = true → ∃ c ∈ before, c.isNamed = true) :
      CommentAdded n { n with children := before ++ comment start stop :: after }
  | deeper (n : Node) {before after : List Node} {c c' : Node} (split : n.children = before ++ c :: after)
      (inside : CommentAdded c c') : CommentAdded n { n with children := before ++ c' :: after }

/-!
### The node itself
-/

section Data

variable (n : Node)

/-- The children left are those of the node, without comments and uncommented themselves. -/
theorem children_uncommented : n.uncommented.children = uncommentedAll n.takesFirst n.children := by
  cases n; rw [uncommented]

@[simp] theorem kind_uncommented : n.uncommented.kind = n.kind := by
  cases n; rw [uncommented]

@[simp] theorem start_uncommented : n.uncommented.start = n.start := by
  cases n; rw [uncommented]

@[simp] theorem stop_uncommented : n.uncommented.stop = n.stop := by
  cases n; rw [uncommented]

@[simp] theorem isNamed_uncommented : n.uncommented.isNamed = n.isNamed := by
  cases n; rw [uncommented]

@[simp] theorem isMissing_uncommented : n.uncommented.isMissing = n.isMissing := by
  cases n; rw [uncommented]

@[simp] theorem hasError_uncommented : n.uncommented.hasError = n.hasError := by
  cases n; rw [uncommented]

@[simp] theorem field_uncommented : n.uncommented.field = n.field := by
  cases n; rw [uncommented]

end Data

/-- What is known of a comment. -/
structure Remark (n : Node) : Prop where
  kind : n.kind = "comment"
  isNamed : n.isNamed = true
  isMissing : n.isMissing = false
  hasError : n.hasError = false
  field : n.field = none
  children : ∀ c ∈ n.children, c.isRemark = true

theorem allRemarks_iff {cs : List Node} : allRemarks cs = true ↔ ∀ c ∈ cs, c.isRemark = true := by
  induction cs with
  | nil => simp [allRemarks]
  | cons c cs ih => simp [allRemarks, ih]

theorem isRemark_iff {n : Node} : n.isRemark = true ↔ n.Remark := by
  obtain ⟨kind, start, stop, isNamed, isMissing, hasError, field, children⟩ := n
  simp only [isRemark, Bool.and_eq_true, beq_iff_eq, Bool.not_eq_true', Option.isNone_iff_eq_none, allRemarks_iff]
  constructor
  · rintro ⟨⟨⟨⟨⟨kind, named⟩, missing⟩, error⟩, field⟩, children⟩
    exact ⟨kind, named, missing, error, field, children⟩
  · rintro ⟨kind, named, missing, error, field, children⟩
    exact ⟨⟨⟨⟨⟨kind, named⟩, missing⟩, error⟩, field⟩, children⟩

theorem isRemark_comment (start stop : Nat) : (comment start stop).isRemark = true := rfl

/-- A comment has no child with a field. -/
theorem Remark.field?_eq_none {n : Node} (remark : n.Remark) (name : String) : n.field? name = none := by
  rw [field?, List.find?_eq_none]
  intro c mem
  simp [(isRemark_iff.1 (remark.children c mem)).field]

theorem Remark.takesFirst {n : Node} (remark : n.Remark) : n.takesFirst = false := by
  simp [Node.takesFirst, remark.kind]

/-!
### The children found
-/

/-- Children found by a test that comments fail and that does not look below are the same without comments. -/
theorem find?_uncommentedAll {p : Node → Bool} (same : ∀ c : Node, p c.uncommented = p c)
    (fails : ∀ c : Node, c.isRemark = true → p c = false) (keepsFirst : Bool) (cs : List Node) :
    (uncommentedAll keepsFirst cs).find? p = (cs.find? p).map uncommented := by
  induction cs generalizing keepsFirst with
  | nil => rfl
  | cons c cs ih =>
      rw [uncommentedAll]
      split
      next dropped =>
        rw [Bool.and_eq_true] at dropped
        rw [List.find?_cons, fails c dropped.1, ih]
      next =>
        rw [List.find?_cons, List.find?_cons, same, ih]
        cases p c <;> rfl

/-- Picking nodes by something comments do not have finds the same ones without the comments. -/
theorem filter_uncommentedAll {p : Node → Bool} (same : ∀ c : Node, p c.uncommented = p c)
    (fails : ∀ c : Node, c.isRemark = true → p c = false) (keepsFirst : Bool) (cs : List Node) :
    (uncommentedAll keepsFirst cs).filter p = (cs.filter p).map uncommented := by
  induction cs generalizing keepsFirst with
  | nil => rfl
  | cons c cs ih =>
      rw [uncommentedAll]
      split
      next dropped =>
        rw [Bool.and_eq_true] at dropped
        rw [List.filter_cons, fails c dropped.1, ih]
        rfl
      next =>
        rw [List.filter_cons, List.filter_cons, same, ih]
        cases p c <;> rfl

section Children

variable (n : Node)

/-- A field is found without the comments, and is uncommented. -/
@[simp] theorem field?_uncommented (name : String) :
    n.uncommented.field? name = (n.field? name).map uncommented := by
  rw [field?, children_uncommented]
  refine find?_uncommentedAll (fun c => by rw [field_uncommented]) (fun c remark => ?_) _ _
  simp [(isRemark_iff.1 remark).field]

/-- The preferred of two fields is found without the comments. -/
@[simp] theorem eitherField?_uncommented (preferred other : String) :
    n.uncommented.eitherField? preferred other = (n.eitherField? preferred other).map uncommented := by
  rw [eitherField?, eitherField?, field?_uncommented, field?_uncommented]
  cases n.field? preferred <;> rfl

/-- A child of certain kinds is found without the comments, unless comments are asked for. -/
theorem child?_uncommented {kinds : List String} (other : "comment" ∉ kinds) :
    n.uncommented.child? kinds = (n.child? kinds).map uncommented := by
  rw [child?, children_uncommented]
  refine find?_uncommentedAll (fun c => by rw [kind_uncommented]) (fun c remark => ?_) _ _
  rw [(isRemark_iff.1 remark).kind]
  exact Bool.eq_false_iff.2 fun found => other (List.contains_iff_mem.1 found)

/-- Whether there is a child of a kind is the same without the comments. -/
theorem hasChild_uncommented {kind : String} (other : "comment" ≠ kind) :
    n.uncommented.hasChild kind = n.hasChild kind := by
  rw [hasChild, child?_uncommented n (by simpa using other), Option.isSome_map]
  rfl

/-- The operands of a node are the same without the comments, each uncommented. -/
@[simp] theorem operands_uncommented : n.uncommented.operands = n.operands.map uncommented := by
  simp only [operands, named, List.filter_filter, children_uncommented]
  refine filter_uncommentedAll (fun c => by simp) (fun c remark => ?_) _ _
  simp [(isRemark_iff.1 remark).kind]

/-- The first operand is the same without the comments. -/
@[simp] theorem firstOperand?_uncommented : n.uncommented.firstOperand? = n.firstOperand?.map uncommented := by
  rw [firstOperand?, operands_uncommented, List.head?_map]
  rfl

/-- The named children of certain kinds are the same without the comments. -/
theorem namedOf_uncommented {kinds : List String} (other : "comment" ∉ kinds) :
    n.uncommented.namedOf kinds = (n.namedOf kinds).map uncommented := by
  simp only [namedOf, named, List.filter_filter, children_uncommented]
  refine filter_uncommentedAll (fun c => by simp) (fun c remark => ?_) _ _
  rw [(isRemark_iff.1 remark).kind, Bool.and_eq_false_imp]
  exact fun found => absurd (List.contains_iff_mem.1 found) other

end Children

/-!
### Comments stay comments
-/

theorem uncommentedAll_eq_nil {cs : List Node} (remarks : ∀ c ∈ cs, c.isRemark = true) :
    uncommentedAll false cs = [] := by
  induction cs with
  | nil => rfl
  | cons c cs ih =>
      rw [List.forall_mem_cons] at remarks
      rw [uncommentedAll, remarks.1]
      exact ih remarks.2

theorem mem_uncommentedAll {c : Node} {cs : List Node} (mem : c ∈ cs) (kept : c.isRemark = false)
    (keepsFirst : Bool) : c.uncommented ∈ uncommentedAll keepsFirst cs := by
  induction cs generalizing keepsFirst with
  | nil => simp at mem
  | cons d cs ih =>
      rw [uncommentedAll]
      rcases List.mem_cons.1 mem with rfl | mem
      · simp [kept]
      · split
        · exact ih mem false
        · exact List.mem_cons_of_mem _ (ih mem _)

/-- A node is a comment with or without the comments in it. -/
@[simp] theorem isRemark_uncommented (n : Node) : n.uncommented.isRemark = n.isRemark := by
  rw [Bool.eq_iff_iff, isRemark_iff, isRemark_iff]
  constructor
  · rintro ⟨kind, named, missing, error, field, children⟩
    refine ⟨by simpa using kind, by simpa using named, by simpa using missing, by simpa using error,
      by simpa using field, fun c mem => ?_⟩
    have lighter := weight_lt_of_mem_children mem
    cases other : c.isRemark with
    | true => rfl
    | false =>
        rw [children_uncommented] at children
        rw [← other, ← isRemark_uncommented c]
        exact children _ (mem_uncommentedAll mem other _)
  · intro remark
    refine ⟨by simpa using remark.kind, by simpa using remark.isNamed, by simpa using remark.isMissing,
      by simpa using remark.hasError, by simpa using remark.field, fun c mem => ?_⟩
    rw [children_uncommented, remark.takesFirst, uncommentedAll_eq_nil remark.children] at mem
    simp at mem
termination_by n.weight

/-- Named children other than comments without faults. -/
def parts (n : Node) : List Node := n.named.filter fun c => !c.isRemark

@[simp] theorem parts_uncommented (n : Node) : n.uncommented.parts = n.parts.map uncommented := by
  simp only [parts, named, List.filter_filter, children_uncommented]
  exact filter_uncommentedAll (fun c => by simp) (fun c remark => by simp [remark]) _ _

/-- What is made of comments may be dropped before the results are put together, if it leaves no trace there. -/
theorem mapM_parts {m : Type → Type} [Monad m] [LawfulMonad m] {β γ : Type} {f : Node → m β} {e : β}
    (nothing : ∀ c : Node, c.isRemark = true → f c = pure e) (fold : List β → γ)
    (drop : ∀ bs bs' : List β, fold (bs ++ e :: bs') = fold (bs ++ bs')) (cs : List Node) :
    fold <$> cs.mapM f = fold <$> (cs.filter fun c => !c.isRemark).mapM f := by
  induction cs generalizing fold with
  | nil => rfl
  | cons c cs ih =>
      cases remark : c.isRemark with
      | true =>
          have skips : ∀ bs, fold (e :: bs) = fold bs := drop []
          rw [List.filter_cons_of_neg (by simp [remark]), ← ih fold drop, List.mapM_cons, nothing c remark]
          simp [skips]
      | false =>
          have rest : ∀ b, (fun bs => fold (b :: bs)) <$> cs.mapM f =
              (fun bs => fold (b :: bs)) <$> (cs.filter fun c => !c.isRemark).mapM f := fun b =>
            ih (fun bs => fold (b :: bs)) fun bs bs' => drop (b :: bs) bs'
          simp only [List.filter_cons_of_pos, remark, Bool.not_false, List.mapM_cons, map_bind, bind_pure_comp,
            Functor.map_map, rest]

/-- A traversal that does the same without comments does so for all nodes of a list. -/
theorem mapM_uncommented {m : Type → Type} [Monad m] [LawfulMonad m] {β : Type} {f : Node → m β} {cs : List Node}
    (same : ∀ c ∈ cs, f c.uncommented = f c) : (cs.map uncommented).mapM f = cs.mapM f := by
  induction cs with
  | nil => rfl
  | cons c cs ih =>
      rw [List.forall_mem_cons] at same
      rw [List.map_cons, List.mapM_cons, List.mapM_cons, same.1, ih same.2]

/-- Results for the named children are put together the same without comments. -/
theorem mapM_named_uncommented {m : Type → Type} [Monad m] [LawfulMonad m] {β γ : Type} {f : Node → m β} {e : β}
    (nothing : ∀ c : Node, c.isRemark = true → f c = pure e) (fold : List β → γ)
    (drop : ∀ bs bs' : List β, fold (bs ++ e :: bs') = fold (bs ++ bs')) (n : Node)
    (same : ∀ c ∈ n.named, f c.uncommented = f c) :
    fold <$> n.uncommented.named.mapM f = fold <$> n.named.mapM f := by
  have each : (n.parts.map uncommented).mapM f = n.parts.mapM f :=
    mapM_uncommented fun c mem => same c (List.mem_filter.1 mem).1
  calc fold <$> n.uncommented.named.mapM f
      = fold <$> n.uncommented.parts.mapM f := mapM_parts nothing fold drop _
    _ = fold <$> n.parts.mapM f := by rw [parts_uncommented, each]
    _ = fold <$> n.named.mapM f := (mapM_parts nothing fold drop _).symm

/-- A node that goes by its first named child has the same one without comments. -/
theorem head?_named_uncommented {n : Node} (takes : n.takesFirst = true) :
    n.uncommented.named.head? = n.named.head?.map uncommented := by
  rw [named, named, children_uncommented, takes]
  generalize n.children = cs
  induction cs with
  | nil => rfl
  | cons c cs ih =>
      rw [uncommentedAll, if_neg (by simp), List.filter_cons, List.filter_cons, isNamed_uncommented]
      cases named : c.isNamed with
      | true => rfl
      | false => exact ih

/-!
### Adding comments
-/

/-- Two lists of children one after the other; only the first named one of all counts as the first. -/
theorem uncommentedAll_append (keepsFirst : Bool) (before after : List Node) :
    uncommentedAll keepsFirst (before ++ after) =
      uncommentedAll keepsFirst before ++ uncommentedAll (keepsFirst && !before.any (·.isNamed)) after := by
  induction before generalizing keepsFirst with
  | nil => simp [uncommentedAll]
  | cons c cs ih =>
      simp only [List.cons_append, uncommentedAll]
      split
      next dropped =>
        have keeps : keepsFirst = false := by simpa using (Bool.and_eq_true_iff.1 dropped).2
        rw [ih, keeps]
        rfl
      next =>
        rw [ih, List.cons_append, List.any_cons, Bool.not_or, Bool.and_assoc]

/-- Whether a node goes by its first named child depends on its kind and the fields of its children. -/
theorem takesFirst_congr {n : Node} {cs : List Node}
    (fields : (cs.any fun c => c.field == some "value") = n.children.any fun c => c.field == some "value") :
    takesFirst { n with children := cs } = n.takesFirst := by
  have same : (field? { n with children := cs } "value").isNone = (n.field? "value").isNone := by
    rw [← Option.not_isSome, ← Option.not_isSome, field?, field?, List.isSome_find?, List.isSome_find?, fields]
  rw [takesFirst, takesFirst, same]

/-- Other children make no difference if they are the same without comments. -/
theorem uncommented_congr {n : Node} {cs : List Node}
    (fields : (cs.any fun c => c.field == some "value") = n.children.any fun c => c.field == some "value")
    (same : uncommentedAll n.takesFirst cs = uncommentedAll n.takesFirst n.children) :
    uncommented { n with children := cs } = n.uncommented := by
  have takes := takesFirst_congr fields
  obtain ⟨kind, start, stop, isNamed, isMissing, hasError, field, children⟩ := n
  rw [uncommented, uncommented, takes, same]

/-- A comment more does not change the tree without comments. -/
theorem CommentAdded.uncommented_eq {n n' : Node} (added : CommentAdded n n') : n'.uncommented = n.uncommented := by
  induction added with
  | @here n before after start stop split behind =>
      apply uncommented_congr
      · rw [split, List.any_append, List.any_append, List.any_cons]
        rfl
      · rw [split, uncommentedAll_append, uncommentedAll_append]
        -- Where the first named child counts, it is in front of the comment.
        have past : (n.takesFirst && !before.any (·.isNamed)) = false := by
          rw [Bool.and_eq_false_imp]
          intro takes
          simpa using behind takes
        rw [past, uncommentedAll, isRemark_comment]
        rfl
  | @deeper n before after c c' split inside ih =>
      have field : c'.field = c.field := by rw [← field_uncommented, ih, field_uncommented]
      have named : c'.isNamed = c.isNamed := by rw [← isNamed_uncommented, ih, isNamed_uncommented]
      have remark : c'.isRemark = c.isRemark := by rw [← isRemark_uncommented, ih, isRemark_uncommented]
      apply uncommented_congr
      · rw [split, List.any_append, List.any_append, List.any_cons, List.any_cons, field]
      · rw [split, uncommentedAll_append, uncommentedAll_append, uncommentedAll, uncommentedAll, ih, named, remark]

end Outline.Node
