/-
Module: Outline.Proofs.Signature.Requoting
Layer: Proofs
Purpose: String literal types are shown between double quotes, whatever their own quotes are, and with the same text
  between them. That is a literal of the same string exactly if no double quote is left bare in the text. Two such
  types that denote different strings are never shown alike; but one in which a double quote is bare may be shown like
  a union.
Main exports: StringType, StringType.render, OtherLiteral, OfOthers, renderType_stringType, mistaken_for_union
-/
import Outline.Proofs.Signature.Faithful
import Outline.Proofs.Text.StringLiteral
import Outline.Proofs.Tree.Inside

namespace Outline

open Signature (TypeForm renderForm_eq)
open StringLiteral

variable {src : Source} {n : Node} {quote : Char} {body : List Char}

/-!
### Literal types
-/

/-- A text between double quotes. -/
def doubleQuoted (body : List Char) : String := String.ofList ('"' :: (body ++ ['"']))

@[simp] theorem toList_doubleQuoted (body : List Char) : (doubleQuoted body).toList = '"' :: (body ++ ['"']) :=
  String.toList_ofList

/-- A literal type of which the first construct is a string with quotes around a body. -/
structure StringType (src : Source) (n : Node) (quote : Char) (body : List Char) : Prop where
  kind : n.kind = "literal_type"
  isQuote : quote ∈ quotes
  written : ∃ lit, n.named.head? = some lit ∧ lit.kind = "string" ∧
    src.textOf lit = .ok (String.ofList (quote :: (body ++ [quote])))

/-- The quotes around a body are exchanged. -/
theorem requote_ofList (quote : Char) (body : List Char) :
    Signature.requote (String.ofList (quote :: (body ++ [quote]))) = doubleQuoted body := by
  have inner : Text.dropLast 1 (Text.dropFirst 1 (String.ofList (quote :: (body ++ [quote])))) =
      String.ofList body := by
    simp [Text.dropLast, Text.dropFirst]
  rw [Signature.requote, inner, ← String.toList_inj]
  simp

/-- A string type is rendered in double quotes, with the same body. -/
theorem StringType.render (string : StringType src n quote body) :
    Signature.renderType src n = pure (doubleQuoted body) := by
  obtain ⟨lit, first, isString, text⟩ := string.written
  have nonempty : doubleQuoted body ≠ "" := by
    intro empty
    have none := congrArg String.toList empty
    simp at none
  have form : TypeForm.ofKind? n.kind = some .literal := by rw [string.kind]; rfl
  refine Signature.renderType_of_form form nonempty ?_
  rw [renderForm_eq]
  simp only [first, Option.getD_some, isString, if_true, Reading.read_eq text, pure_bind, requote_ofList]

/-- A literal type that does not denote the string: it denotes another one, or it is no string and does not begin like
    one. -/
inductive OtherLiteral (legacy : Bool) (src : Source) (value : List Nat) (n : Node) : Prop where
  | string {quote : Char} {body : List Char} {value' : List Nat} (string : StringType src n quote body)
      (denotes : Denotes legacy quote body value') (differs : value' ≠ value)
  | noString {text : String} {c : Char} {cs : List Char} (kind : n.kind = "literal_type")
      (noString : (n.named.head?.getD n).kind ≠ "string") (written : src.textOf (n.named.head?.getD n) = .ok text)
      (begins : text.toList = c :: cs) (solid : Text.isBlank c = false) (unquoted : c ≠ '"')

/-- Such a literal type, or a union of which the operands are such types again. -/
inductive OfOthers (legacy : Bool) (src : Source) (value : List Nat) : Node → Prop where
  | literal {n : Node} (other : OtherLiteral legacy src value n) : OfOthers legacy src value n
  | union {n : Node} (kind : n.kind = "union_type") (operands : ∀ c ∈ n.operands, OfOthers legacy src value c) :
      OfOthers legacy src value n

/-!
### How they are shown
-/

/-- How a literal type that does not denote the string is shown: as another body between double quotes, or as a text
    that does not begin with one. -/
inductive ShownOther (legacy : Bool) (value : List Nat) (text : String) : Prop where
  | string {quote : Char} {body : List Char} {value' : List Nat} (shown : text = doubleQuoted body)
      (denotes : Denotes legacy quote body value') (differs : value' ≠ value)
  | noString {c : Char} {cs : List Char} (begins : text.toList = c :: cs) (unquoted : c ≠ '"')

section Shown

variable {legacy : Bool} {value : List Nat} {text : String}

/-- The string between double quotes is not what another literal is shown as. -/
theorem ShownOther.ne_doubleQuoted (shown : ShownOther legacy value text) (denotes : Denotes legacy quote body value) :
    text ≠ doubleQuoted body := by
  rintro rfl
  cases shown with
  | @string _ body' _ isShown denotes' differs =>
      have bodies := congrArg String.toList isShown
      rw [toList_doubleQuoted, toList_doubleQuoted, List.cons.injEq, List.append_left_inj] at bodies
      rw [← bodies.2] at denotes'
      exact differs (denotes'.value_unique denotes)
  | noString begins unquoted =>
      rw [toList_doubleQuoted, List.cons.injEq] at begins
      exact unquoted begins.1.symm

/-- Any other literal of the value is rendered as the text it is shown as. -/
theorem OtherLiteral.render (other : OtherLiteral legacy src value n) :
    ∃ text, Signature.renderType src n = pure text ∧ ShownOther legacy value text := by
  cases other with
  | string string denotes differs => exact ⟨_, string.render, .string rfl denotes differs⟩
  | @noString text c cs kind noString written begins solid unquoted =>
      obtain ⟨rest, begins⟩ := Text.squash_begins begins solid
      have nonempty : Text.squash text ≠ "" := by
        intro empty
        rw [empty] at begins
        cases begins
      have form : TypeForm.ofKind? n.kind = some .literal := by rw [kind]; rfl
      refine ⟨_, Signature.renderType_of_form form nonempty ?_, .noString begins unquoted⟩
      rw [renderForm_eq]
      simp only [if_neg noString, Reading.read_eq written, pure_bind]

/-- No other literal is rendered as a string literal of its value. -/
theorem OtherLiteral.render_ne (other : OtherLiteral legacy src value n) (denotes : Denotes legacy quote body value) :
    (Signature.renderType src n).result ≠ .ok (doubleQuoted body) := by
  obtain ⟨text, rendered, shown⟩ := other.render
  rw [rendered]
  exact fun same => shown.ne_doubleQuoted denotes (Except.ok.inj same)

/-- The operands of such types, nested unions opened up, are shown as literals that do not denote the string. -/
theorem OfOthers.operands (others : OfOthers legacy src value n) :
    ∃ texts, (if n.kind = "union_type" then Signature.operandTypes src "union_type" n
        else do return [← Signature.renderType src n]) = pure texts ∧ ∀ text ∈ texts, ShownOther legacy value text := by
  induction others with
  | @literal n other =>
      obtain ⟨text, rendered, shown⟩ := other.render
      have kind : n.kind ≠ "union_type" := by
        cases other with
        | string string => simp [string.kind]
        | noString kind => simp [kind]
      refine ⟨[text], ?_, List.forall_mem_singleton.2 shown⟩
      rw [if_neg kind, rendered]
      rfl
  | @union n kind _ ih =>
      rw [if_pos kind, Signature.operandTypes_eq]
      obtain ⟨groups, read, shown⟩ := Reading.exists_collect_eq_pure ih
      refine ⟨groups.flatten, by rw [read, pure_bind], fun text mem => ?_⟩
      obtain ⟨texts, among, mem⟩ := List.mem_flatten.1 mem
      exact shown texts among text mem

/-- Behind the end of a body, a double quote is bare: a longer text between double quotes has a bare one. -/
theorem hasBare_of_longer {body' more : List Char} (denotes : Denotes legacy quote body' value)
    (longer : body ++ ['"'] = body' ++ '"' :: more) (some : more ≠ []) : hasBare '"' body = true := by
  have whole : body = body' ++ '"' :: more.dropLast := by
    have shorter := congrArg List.dropLast longer
    rw [List.dropLast_concat, List.dropLast_append_of_ne_nil (List.cons_ne_nil _ _),
      List.dropLast_cons_of_ne_nil some] at shorter
    exact shorter
  rw [whole]
  exact denotes.hasBare_append (by decide) _

/-- Unless a double quote is bare in the body, it is not what other literals are shown as, joined by bars. -/
theorem joinWith_ne_doubleQuoted {texts : List String} (shown : ∀ text ∈ texts, ShownOther legacy value text)
    (denotes : Denotes legacy quote body value) (clean : hasBare '"' body = false) :
    Text.joinWith " | " texts ≠ doubleQuoted body := by
  rcases texts with _ | ⟨first, _ | ⟨second, rest⟩⟩
  · intro same
    have chars := congrArg String.toList same
    simp [Text.joinWith] at chars
  · exact (shown first (.head _)).ne_doubleQuoted denotes
  · intro same
    have chars := congrArg String.toList same
    rw [toList_doubleQuoted, Text.joinWith, String.toList_append, String.toList_append] at chars
    cases shown first (.head _) with
    | noString begins unquoted =>
        rw [begins, List.cons_append, List.cons_append, List.cons.injEq] at chars
        exact unquoted chars.1
    | @string _ body' _ isShown denotes' _ =>
        -- The first operand ends at a double quote that would be within the body.
        rw [isShown, toList_doubleQuoted] at chars
        simp only [List.cons_append, List.append_assoc, List.cons.injEq, true_and, List.nil_append] at chars
        have bare := hasBare_of_longer denotes' chars.symm (by simp)
        rw [clean] at bare
        cases bare

/-- No other type is rendered as the string literal, if the body holds no bare double quote. -/
theorem OfOthers.render_ne (others : OfOthers legacy src value n) (denotes : Denotes legacy quote body value)
    (clean : hasBare '"' body = false) : (Signature.renderType src n).result ≠ .ok (doubleQuoted body) := by
  cases others with
  | literal other => exact other.render_ne denotes
  | union kind operands =>
      obtain ⟨texts, read, shown⟩ := (OfOthers.union kind operands).operands
      rw [if_pos kind] at read
      have joined : Signature.renderForm src .union n = pure (Text.joinWith " | " texts) := by
        rw [renderForm_eq]
        simp only [read, pure_bind]
      have form : TypeForm.ofKind? n.kind = some .union := by rw [kind]; rfl
      rw [Signature.renderType_orElse form joined]
      intro same
      have same := Except.ok.inj same
      unfold Signature.orElse at same
      split at same
      next =>
        have chars := congrArg String.toList same
        rw [toList_doubleQuoted] at chars
        exact absurd (List.cons.inj chars).1 (by decide)
      next => exact joinWith_ne_doubleQuoted shown denotes clean same

/-- A string literal type is shown as its body between double quotes. That is a literal, and then one of the same
    string, exactly if no double quote is bare in the body, as between double quotes none can be. No literal type that
    denotes something else is shown as the same text; no union of such types is either, if no double quote is bare. -/
theorem renderType_stringType (string : StringType src n quote body) (denotes : Denotes legacy quote body value) :
    Signature.renderType src n = pure (doubleQuoted body) ∧
    ((∃ value', IsLiteral legacy '"' (doubleQuoted body) value') ↔ hasBare '"' body = false) ∧
    (∀ value', IsLiteral legacy '"' (doubleQuoted body) value' → value' = value) ∧
    (quote = '"' → hasBare '"' body = false) ∧
    (∀ src' m, OtherLiteral legacy src' value m →
      (Signature.renderType src' m).result ≠ .ok (doubleQuoted body)) ∧
    (hasBare '"' body = false → ∀ src' m, OfOthers legacy src' value m →
      (Signature.renderType src' m).result ≠ .ok (doubleQuoted body)) := by
  have between : ∀ value', IsLiteral legacy '"' (doubleQuoted body) value' → Denotes legacy '"' body value' :=
    fun _ literal => literal.denotes (toList_doubleQuoted body)
  refine ⟨string.render, ⟨?_, ?_⟩, ?_, ?_, ?_, ?_⟩
  · rintro ⟨value', literal⟩
    exact ((between value' literal).between_iff (by decide)).1 (between value' literal)
  · intro clean
    exact ⟨value, body, toList_doubleQuoted body, (denotes.between_iff (by decide)).2 clean⟩
  · intro value' literal
    exact (between value' literal).value_unique denotes
  · rintro rfl
    exact (denotes.between_iff (by decide)).1 denotes
  · intro src' m other
    exact other.render_ne denotes
  · intro clean src' m others
    exact others.render_ne denotes clean

end Shown

/-- A literal type with one construct in it, over a span. -/
def literalNode (kind : String) (start stop : Nat) : Node :=
  .construct "literal_type" none start stop [.construct kind none start stop []]

/-- A type in single quotes, with two escapes. -/
def escapedSource : Source := ⟨"'\\'\\x41'"⟩

/-- What stands between its quotes. -/
def escapedBody : List Char := ['\\', '\'', '\\', 'x', '4', '1']

/-- A union of a string and a number. -/
def mixedSource : Source := ⟨"\"a\"|1"⟩

/-- The tree of `mixedSource`. -/
def mixedUnion : Node := .construct "union_type" none 0 5 [literalNode "string" 0 3, literalNode "number" 4 5]

/-- The escapes of a type in single quotes are kept between double quotes, and it is not shown like a union. -/
theorem renderType_stringType_escaped :
    StringType escapedSource (literalNode "string" 0 8) '\'' escapedBody ∧
      Denotes false '\'' escapedBody [39, 65] ∧ OfOthers false mixedSource [39, 65] mixedUnion ∧
      Signature.renderType escapedSource (literalNode "string" 0 8) = pure "\"\\'\\x41\"" ∧
      IsLiteral false '"' "\"\\'\\x41\"" [39, 65] ∧
      (Signature.renderType mixedSource mixedUnion).result ≠ .ok "\"\\'\\x41\"" := by
  have string : StringType escapedSource (literalNode "string" 0 8) '\'' escapedBody :=
    ⟨rfl, by decide, .construct "string" none 0 8 [], rfl, rfl, by decide +kernel⟩
  have letter : Denotes false '\'' ['\\', 'x', '4', '1'] [65] := @Denotes.escaped false '\'' _ [] [65] [] rfl .nil
  have denotes : Denotes false '\'' escapedBody [39, 65] := @Denotes.escaped false '\'' _ _ [39] [65] rfl letter
  have first : StringType mixedSource (literalNode "string" 0 3) '"' ['a'] :=
    ⟨rfl, by decide, .construct "string" none 0 3 [], rfl, rfl, by decide +kernel⟩
  have others : OfOthers false mixedSource [39, 65] mixedUnion := by
    refine .union rfl (List.forall_mem_cons.2 ⟨.literal ?_, List.forall_mem_singleton.2 (.literal ?_)⟩)
    · exact .string first (.plain (by decide) (by decide) .nil) (by decide)
    · have written : mixedSource.textOf (.construct "number" none 4 5 []) = .ok "1" := by decide +kernel
      exact .noString rfl (by decide) written rfl (by decide) (by decide)
  obtain ⟨rendered, ⟨-, literal⟩, unique, -, -, union⟩ := renderType_stringType string denotes
  obtain ⟨value, isLiteral⟩ := literal (by decide)
  have same := unique value isLiteral
  subst same
  exact ⟨string, denotes, others, rendered, isLiteral, union (by decide) mixedSource mixedUnion others⟩

/-- A type in single quotes, with double quotes and a bar between them. -/
def barredSource : Source := ⟨"'a\" | \"b'"⟩

/-- What stands between its quotes. -/
def barredBody : List Char := ['a', '"', ' ', '|', ' ', '"', 'b']

/-- A union of two strings. -/
def pairSource : Source := ⟨"\"a\"|\"b\""⟩

/-- The tree of `pairSource`. -/
def pairUnion : Node := .construct "union_type" none 0 7 [literalNode "string" 0 3, literalNode "string" 4 7]

/-- A type in single quotes is shown as a text that is no literal, and as a union of two other strings is. -/
theorem mistaken_for_union :
    StringType barredSource (literalNode "string" 0 9) '\'' barredBody ∧
      Denotes false '\'' barredBody [97, 34, 32, 124, 32, 34, 98] ∧
      OfOthers false pairSource [97, 34, 32, 124, 32, 34, 98] pairUnion ∧
      (∀ value, ¬ IsLiteral false '"' "\"a\" | \"b\"" value) ∧
      (Signature.renderType barredSource (literalNode "string" 0 9)).result.toOption = some "\"a\" | \"b\"" ∧
      (Signature.renderType pairSource pairUnion).result.toOption = some "\"a\" | \"b\"" := by
  have first : StringType pairSource (literalNode "string" 0 3) '"' ['a'] :=
    ⟨rfl, by decide, .construct "string" none 0 3 [], rfl, rfl, by decide +kernel⟩
  have second : StringType pairSource (literalNode "string" 4 7) '"' ['b'] :=
    ⟨rfl, by decide, .construct "string" none 4 7 [], rfl, rfl, by decide +kernel⟩
  refine ⟨⟨rfl, by decide, .construct "string" none 0 9 [], rfl, rfl, by decide +kernel⟩, ?_, ?_, ?_, ?_, ?_⟩
  · iterate 7 refine .plain (by decide) (by decide) ?_
    exact .nil
  · refine .union rfl (List.forall_mem_cons.2 ⟨.literal ?_, List.forall_mem_singleton.2 (.literal ?_)⟩)
    · exact .string first (.plain (by decide) (by decide) .nil) (by decide)
    · exact .string second (.plain (by decide) (by decide) .nil) (by decide)
  · intro value literal
    have denotes : Denotes false '"' barredBody value := literal.denotes rfl
    exact absurd ((denotes.between_iff (by decide)).1 denotes) (by decide)
  · decide +kernel
  · decide +kernel

end Outline
