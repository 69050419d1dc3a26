/-
Module: Outline.Proofs.Signature.Faithful
Layer: Proofs
Purpose: What it means that the renderer shows a sketch faithfully: wherever the text of the sketch stands, its node is
  rendered as the sketch is shown. A type is also followed through the operands of unions and intersections, because
  nested ones are opened up there. A type is shown faithfully as soon as its form is.
Main exports: Rendered, OperandRendered, TypeRendered, ParameterRendered, TypeParameterRendered, MemberRendered,
  Rendered.collect, TypeRendered.of_form
-/
import Outline.Proofs.Signature.Canonical
import Outline.Proofs.Signature.Equations
import Outline.Proofs.Text.Split

namespace Outline

open Reading (readOrEmpty collect)
open Sketch (Stands)

/-!
### Text that is kept
-/

namespace Text

theorem dropWhile_solid {cs : List Char} (solid : ∀ c ∈ cs, isBlank c = false) : cs.dropWhile isBlank = cs := by
  cases cs with
  | nil => rfl
  | cons c cs => simp [solid c List.mem_cons_self]

theorem collapse_solid {cs : List Char} (solid : ∀ c ∈ cs, isBlank c = false) : collapse cs = cs := by
  induction cs with
  | nil => rfl
  | cons c cs ih =>
      rw [List.forall_mem_cons] at solid
      simp [collapse, solid.1, ih solid.2]

theorem squash_solid {s : String} (solid : ∀ c ∈ s.toList, isBlank c = false) : squash s = s := by
  have backwards : ∀ c ∈ s.toList.reverse, isBlank c = false := fun c mem => solid c (List.mem_reverse.1 mem)
  rw [squash, collapse_solid solid, trimWhile, dropWhile_solid solid, dropEndWhile, dropWhile_solid backwards,
    List.reverse_reverse, String.ofList_toList]

theorem compact_solid {s : String} (solid : ∀ c ∈ s.toList, isBlank c = false) : compact s = s := by
  rw [compact, List.filter_eq_self.2 fun c mem => by rw [solid c mem]; rfl, String.ofList_toList]

/-- On one line, a text begins with the same character, if it does not begin with a blank. -/
theorem squash_begins {s : String} {c : Char} {cs : List Char} (begins : s.toList = c :: cs)
    (solid : isBlank c = false) : ∃ rest, (squash s).toList = c :: rest := by
  have solid' : ¬ isBlank c = true := by simp [solid]
  rw [squash, String.toList_ofList, begins, collapse, if_neg solid', trimWhile, List.dropWhile_cons_of_neg solid',
    dropEndWhile, List.reverse_cons, List.dropWhile_append]
  split
  next => exact ⟨[], by rw [List.dropWhile_cons_of_neg solid']; rfl⟩
  next => exact ⟨_, by rw [List.reverse_append]; rfl⟩

end Text

theorem Signature.requote_quoted (t : String) : Signature.requote ("\"" ++ t ++ "\"") = "\"" ++ t ++ "\"" := by
  have inner : Text.dropLast 1 (Text.dropFirst 1 ("\"" ++ t ++ "\"")) = t := by
    simp [Text.dropLast, Text.dropFirst, String.toList_append]
  rw [Signature.requote, inner]

/-!
### Nodes found
-/

namespace Sketch.Stands

variable {src : Source} {s c : Sketch} {n : Node}

/-- What stands for a sketch has its fields, standing for those of the sketch. -/
theorem of_field (stands : Stands src s n) (name : String) (found : s.field? name = some c) :
    ∃ m, n.field? name = some m ∧ Stands src c m := by
  have related := stands.field? name
  rw [found] at related
  cases node : n.field? name with
  | none => rw [node] at related; cases related
  | some m =>
      rw [node] at related
      cases related with
      | some child => exact ⟨m, rfl, child⟩

theorem of_no_field (stands : Stands src s n) (name : String) (missing : s.field? name = none) :
    n.field? name = none := by
  have related := stands.field? name
  rw [missing] at related
  cases node : n.field? name with
  | none => rfl
  | some m => rw [node] at related; cases related

theorem of_first {rest : List Sketch} (stands : Stands src s n) (found : s.operands = c :: rest) :
    ∃ m, n.firstOperand? = some m ∧ Stands src c m := by
  have operands := stands.operands
  rw [found] at operands
  rw [Node.firstOperand?]
  generalize n.operands = ms at operands ⊢
  cases operands with
  | cons head _ => exact ⟨_, rfl, head⟩

/-- The text of what fills a field. -/
theorem readOrEmpty (stands : Stands src s n) (name : String) (found : s.field? name = some c) :
    Reading.readOrEmpty src (n.field? name) = pure c.text := by
  obtain ⟨m, node, child⟩ := stands.of_field name found
  rw [node]
  exact child.read

end Sketch.Stands

/-- Children that are no comments are operands. -/
theorem Sketch.operands_of_named {s : Sketch} {ss : List Sketch} (children : s.named = ss)
    (operand : ∀ t ∈ ss, t.kind ≠ "comment") : s.operands = ss := by
  rw [operands, children, List.filter_eq_self]
  exact fun t mem => bne_iff_ne.2 (operand t mem)

/-!
### What is rendered
-/

/-- A construct that a function of the renderer shows faithfully. -/
structure Rendered (src : Source) (render : Node → Reading String) (s : Sketch) : Prop where
  named : s.isNamed = true
  operand : s.kind ≠ "comment"
  renders : ∀ n, Stands src s n → render n = pure s.shown

/-- An operand of unions or intersections: what it adds to the list of operands, joined, is what is shown of it. -/
def OperandRendered (src : Source) (kind mark : String) (s : Sketch) : Prop :=
  ∀ n, Stands src s n → ∃ texts,
    (if n.kind = kind then Signature.operandTypes src kind n else do return [← Signature.renderType src n]) =
        pure texts ∧
      texts ≠ [] ∧ Text.joinWith mark texts = s.shown

/-- A type that is shown faithfully, alone and as an operand. -/
structure TypeRendered (src : Source) (s : Sketch) : Prop extends Rendered src (Signature.renderType src) s where
  noKeyword : s.kind ≠ "abstract"
  noClause : s.kind ≠ "mapped_type_clause"
  nonempty : s.shown ≠ ""
  unions : OperandRendered src "union_type" " | " s
  intersections : OperandRendered src "intersection_type" " & " s

/-- A type parameter that is shown faithfully. -/
structure TypeParameterRendered (src : Source) (s : Sketch) : Prop
    extends Rendered src (Signature.typeParameter src) s where
  kind : s.kind = "type_parameter"

/-- A member of an object type that is shown faithfully. -/
structure MemberRendered (src : Source) (s : Sketch) : Prop extends Rendered src (Signature.objectMember src) s where
  nonempty : s.shown ≠ ""
  isMember : ∀ n, Stands src s n → Signature.isMappedMember n = false

/-- A parameter whose normal form is shown faithfully. -/
structure ParameterRendered (src : Source) (s : Sketch) : Prop where
  named : s.isNamed = true
  kind : s.kind ∈ ["required_parameter", "optional_parameter"]
  renders : ∀ n, Stands src s n → ∃ p, Signature.parameter src n = pure p ∧ Signature.formatParameter p = s.shown

variable {src : Source}

/-- What is shown of constructs that are read one after the other. -/
theorem collect_shown {α : Type} {render : Node → Reading α} {format : α → String} {ss : List Sketch} {ns : List Node}
    (rendered : ∀ s ∈ ss, ∀ n, Stands src s n → ∃ a, render n = pure a ∧ format a = s.shown)
    (stand : List.Forall₂ (Stands src) ss ns) :
    ∃ as, collect render ns = pure as ∧ as.map format = ss.map Sketch.shown := by
  induction stand with
  | nil => exact ⟨[], rfl, rfl⟩
  | cons head _ ih =>
      rw [List.forall_mem_cons] at rendered
      obtain ⟨a, first, shown⟩ := rendered.1 _ head
      obtain ⟨as, others, rest⟩ := ih rendered.2
      exact ⟨a :: as, by rw [collect, first, others]; rfl, by rw [List.map_cons, List.map_cons, shown, rest]⟩

/-- Nodes that stand for sketches are rendered one by one as the sketches are shown. -/
theorem Rendered.collect {render : Node → Reading String} {ss : List Sketch} {ns : List Node}
    (rendered : ∀ s ∈ ss, Rendered src render s) (stand : List.Forall₂ (Stands src) ss ns) :
    collect render ns = pure (ss.map Sketch.shown) := by
  obtain ⟨texts, collected, shown⟩ :
      ∃ texts, Reading.collect render ns = pure texts ∧ texts.map id = ss.map Sketch.shown :=
    collect_shown (fun s mem n stands => ⟨s.shown, (rendered s mem).renders n stands, rfl⟩) stand
  rw [collected, ← shown, List.map_id]

namespace Signature

/-- A type of a known form is rendered as its form is, or as `any` if nothing is shown of that. -/
theorem renderType_orElse {n : Node} {form : TypeForm} {t : String} (known : TypeForm.ofKind? n.kind = some form)
    (renders : renderForm src form n = pure t) : renderType src n = pure (orElse t "any") := by
  rw [renderType, known]
  simp only [renders, pure_bind]
  rfl

/-- A type is rendered as its form is, unless that is empty. -/
theorem renderType_of_form {n : Node} {form : TypeForm} {t : String} (known : TypeForm.ofKind? n.kind = some form)
    (nonempty : t ≠ "") (renders : renderForm src form n = pure t) : renderType src n = pure t := by
  rw [renderType_orElse known renders, orElse, if_neg nonempty]

end Signature

theorem OperandRendered.of_renders {kind mark : String} {s : Sketch} (other : s.kind ≠ kind)
    (renders : ∀ n, Stands src s n → Signature.renderType src n = pure s.shown) : OperandRendered src kind mark s := by
  intro n stands
  refine ⟨[s.shown], ?_, List.cons_ne_nil _ _, rfl⟩
  rw [if_neg (stands.kind ▸ other), renders n stands]
  rfl

/-- A type is shown faithfully if its form is rendered so. -/
theorem TypeRendered.of_form {s : Sketch} (kind : String) (form : Signature.TypeForm) (isKind : s.kind = kind)
    (known : Signature.TypeForm.ofKind? kind = some form)
    (single : kind ∉ ["comment", "abstract", "mapped_type_clause", "union_type", "intersection_type"])
    (named : s.isNamed = true) (nonempty : s.shown ≠ "")
    (renders : ∀ n, Stands src s n → Signature.renderForm src form n = pure s.shown) : TypeRendered src s := by
  subst isKind
  have rendered : ∀ n, Stands src s n → Signature.renderType src n = pure s.shown := fun n stands =>
    Signature.renderType_of_form (stands.kind ▸ known) nonempty (renders n stands)
  simp only [List.mem_cons, List.not_mem_nil, or_false, not_or] at single
  obtain ⟨operand, noKeyword, noClause, noUnion, noIntersection⟩ := single
  exact {
    named, operand, noKeyword, noClause, nonempty
    renders := rendered
    unions := .of_renders noUnion rendered
    intersections := .of_renders noIntersection rendered }

end Outline
