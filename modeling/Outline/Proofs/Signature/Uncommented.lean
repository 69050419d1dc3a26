/-
Module: Outline.Proofs.Signature.Uncommented
Layer: Proofs
Purpose: Types, parameters, expressions and heritage names are rendered the same without comments.
Main exports: renderType_uncommented, typeParameters_uncommented, functionParameters_uncommented,
  returnType_uncommented, inferExpression_uncommented, expressionName_uncommented, heritageName_uncommented
-/
import Outline.Proofs.Signature.Comments

namespace Outline

open Node
open Reading (readOrEmpty)

/-- Taking comments out of a node leaves its text, which is cut out by its span. -/
@[simp] theorem Source.textOf_uncommented (src : Source) (n : Node) : src.textOf n.uncommented = src.textOf n := by
  rw [Source.textOf, Source.textOf, start_uncommented, stop_uncommented]

@[simp] theorem Source.line_uncommented (src : Source) (n : Node) : src.line n.uncommented = src.line n := by
  rw [Source.line, Source.line, start_uncommented]

/-- What is done with a child that may be missing is the same without comments, if it is for the child itself. -/
theorem Node.option_uncommented {α : Type} {f : Option Node → α} {o : Option Node}
    (same : ∀ c, o = some c → f (some c.uncommented) = f (some c)) : f (o.map uncommented) = f o := by
  cases o with
  | none => rfl
  | some c => exact same c rfl

namespace Reading

/-- A node is read in the same way without its comments. -/
@[simp] theorem read_uncommented (src : Source) (n : Node) : read src n.uncommented = read src n := by
  rw [read, read, Source.textOf_uncommented]

@[simp] theorem readOrEmpty_uncommented (src : Source) (o : Option Node) :
    readOrEmpty src (o.map uncommented) = readOrEmpty src o :=
  option_uncommented fun c _ => read_uncommented src c

theorem collect_eq_mapM {α β : Type} (f : α → Reading β) (as : List α) : collect f as = as.mapM f := by
  induction as with
  | nil => rfl
  | cons a as ih => rw [collect, List.mapM_cons, ih]

theorem collect_congr {α β : Type} {f g : α → Reading β} {as : List α} (same : ∀ a ∈ as, f a = g a) :
    collect f as = collect g as := by
  induction as with
  | nil => rfl
  | cons a as ih =>
      rw [List.forall_mem_cons] at same
      rw [collect, collect, same.1, ih same.2]

/-- Collecting over children is the same without comments if each child gives the same. -/
theorem collect_uncommented {α : Type} {f : Node → Reading α} {cs : List Node}
    (same : ∀ c ∈ cs, f c.uncommented = f c) : collect f (cs.map uncommented) = collect f cs := by
  rw [collect_map]
  exact collect_congr same

end Reading

namespace Signature

variable (src : Source) (n : Node)

/-!
### Rendering
-/

theorem isAsync_uncommented : isAsync n.uncommented = isAsync n := isAsync_of_dropped (.uncommented n)

theorem isGenerator_uncommented : isGenerator n.uncommented = isGenerator n := isGenerator_of_dropped (.uncommented n)

/-- A type is rendered in the same way without its comments. -/
theorem renderType_uncommented : renderType src n.uncommented = renderType src n :=
  renderType_of_dropped src (.uncommented n)

theorem typeParameters_uncommented : typeParameters src n.uncommented = typeParameters src n :=
  typeParameters_of_dropped src (.uncommented n)

theorem functionParameters_uncommented : functionParameters src n.uncommented = functionParameters src n :=
  functionParameters_of_dropped src (.uncommented n)

theorem returnType_uncommented (ps : List Parameter) : returnType src n.uncommented ps = returnType src n ps :=
  returnType_of_dropped src (.uncommented n) ps

theorem inferExpression_uncommented : inferExpression src n.uncommented = inferExpression src n :=
  inferExpression_of_dropped src (.uncommented n)

/-!
### Heritage
-/

theorem expressionName_uncommented (n : Node) : expressionName src n.uncommented = expressionName src n := by
  rw [expressionName_eq, expressionName_eq, kind_uncommented, Reading.read_uncommented, field?_uncommented,
    field?_uncommented]
  cases found : n.field? "object" with
  | none => rfl
  | some object =>
      have lighter := weight_lt_of_field? found
      simp only [Option.map_some, expressionName_uncommented object]
      cases n.field? "property" with
      | none => rfl
      | some property => simp only [Option.map_some, Reading.read_uncommented]
termination_by n.weight

theorem heritageName_uncommented (n : Node) : heritageName src n.uncommented = heritageName src n := by
  rw [heritageName_eq, heritageName_eq, kind_uncommented, Reading.read_uncommented, field?_uncommented,
    expressionName_uncommented]
  cases found : n.field? "name" with
  | none => rfl
  | some name =>
      have lighter := weight_lt_of_field? found
      simp only [Option.map_some, heritageName_uncommented name]
termination_by n.weight

end Signature

end Outline
