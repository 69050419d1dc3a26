/-
Module: Outline.Proofs.Text.StringLiteral
Layer: Proofs
Purpose: What stands between the quotes of a string literal, and the string that it denotes. Nothing but the quote
  itself tells a literal in one kind of quotes from one in the other: a body denotes the same between both, if it may
  stand there. It may stand between quotes of a kind exactly if every such quote in it is escaped.
Main exports: escape?, Denotes, Denotes.value_unique, hasBare, Denotes.between_iff, Denotes.hasBare_append, IsLiteral
-/
import Mathlib.Data.List.TakeWhile
import Outline.Json.Parser

namespace Outline.StringLiteral

open Json.Parser (hexDigit? hexUnit?)

/-!
### Escapes
-/

/-- The UTF-16 units of a code point. -/
def units (n : Nat) : List Nat :=
  if n < 0x10000 then [n] else [0xD800 + (n - 0x10000) / 0x400, 0xDC00 + (n - 0x10000) % 0x400]

/-- What a character stands for behind a backslash, if it is neither a digit nor the beginning of a longer escape nor a
    line break. -/
def singleEscape : Char → Nat
  | 'b' => 8
  | 't' => 9
  | 'n' => 10
  | 'v' => 11
  | 'f' => 12
  | 'r' => 13
  | c => c.toNat

/-- The line breaks. -/
def lineBreaks : List Char := ['\n', '\r', Char.ofNat 0x2028, Char.ofNat 0x2029]

/-- What is behind a backslash and an `x`: two hexadecimal digits. -/
def hexEscape? : List Char → Option (List Nat × List Char)
  | a :: b :: rest => do return ([(← hexDigit? a) * 16 + (← hexDigit? b)], rest)
  | _ => none

/-- What is behind a backslash, a `u` and an opening brace: the digits of a code point and a closing brace. -/
def pointEscape? (cs : List Char) : Option (List Nat × List Char) :=
  let digits := cs.takeWhile fun c => (hexDigit? c).isSome
  let point := (digits.filterMap hexDigit?).foldl (fun n d => n * 16 + d) 0
  match cs.drop digits.length with
  | '\x7d' :: rest => if digits.isEmpty || 0x10FFFF < point then none else some (units point, rest)
  | _ => none

/-- What is behind a backslash and a `u`. -/
def unicodeEscape? : List Char → Option (List Nat × List Char)
  | '\x7b' :: rest => pointEscape? rest
  | a :: b :: c :: d :: rest => do return ([← hexUnit? a b c d], rest)
  | _ => none

/-- What is behind a backslash and a digit: nothing for a zero that no digit follows, else octal digits of a value below
    256, which only `legacy` texts may have. -/
def digitEscape? (legacy : Bool) (c : Char) (rest : List Char) : Option (List Nat × List Char) :=
  if c = '0' && !(rest.head?.any Char.isDigit) then some ([0], rest)
  else if !legacy then none
  else if c = '8' || c = '9' then some ([c.toNat], rest)
  else
    let digits := (rest.take (if c ≤ '3' then 2 else 1)).takeWhile fun d => '0' ≤ d && d ≤ '7'
    some ([(c :: digits).foldl (fun n d => n * 8 + (d.toNat - 48)) 0], rest.drop digits.length)

/-- What an escape stands for, given what is behind its backslash, and what follows it. -/
def escape? (legacy : Bool) : List Char → Option (List Nat × List Char)
  | [] => none
  | c :: rest =>
    if c = 'x' then hexEscape? rest
    else if c = 'u' then unicodeEscape? rest
    else if c.isDigit then digitEscape? legacy c rest
    else if c = '\r' && rest.head? = some '\n' then some ([], rest.tail)
    else if c ∈ lineBreaks then some ([], rest)
    else some (units (singleEscape c), rest)

/-- The quotes that a literal may stand in. -/
def quotes : List Char := ['"', '\'']

/-- The characters that no escape has behind its first one. -/
def marks : List Char := '\\' :: quotes

/-- A text without quotes and backslashes, and what follows it. -/
def Splits (cs after : List Char) : Prop := ∃ tail, cs = tail ++ after ∧ ∀ c ∈ tail, c ∉ marks

section Splits

variable {cs after : List Char} {value : List Nat}

theorem Splits.refl (cs : List Char) : Splits cs cs := ⟨[], rfl, nofun⟩

/-- A character that is no mark may stand before what is left. -/
theorem Splits.cons {c : Char} (plain : c ∉ marks) (splits : Splits cs after) : Splits (c :: cs) after := by
  obtain ⟨tail, rfl, each⟩ := splits
  exact ⟨c :: tail, rfl, List.forall_mem_cons.2 ⟨plain, each⟩⟩

/-- A prefix is such a text if none of its characters is a mark. -/
theorem Splits.of_begins {digits : List Char} (begins : digits <+: cs) (plain : ∀ c ∈ digits, c ∉ marks) :
    Splits cs (cs.drop digits.length) :=
  ⟨digits, (List.prefix_iff_eq_append.1 begins).symm, plain⟩

theorem Splits.trans {between : List Char} (first : Splits cs between) (next : Splits between after) :
    Splits cs after := by
  obtain ⟨tail, rfl, each⟩ := first
  obtain ⟨more, rfl, each'⟩ := next
  exact ⟨tail ++ more, by simp, List.forall_mem_append.2 ⟨each, each'⟩⟩

theorem not_mem_marks_of_hexDigit? {c : Char} (digit : (hexDigit? c).isSome) : c ∉ marks := by
  intro mark
  simp only [marks, quotes, List.mem_cons, List.not_mem_nil, or_false] at mark
  rcases mark with rfl | rfl | rfl <;> cases digit

theorem not_mem_marks_of_octal {c : Char} (digit : ('0' ≤ c && c ≤ '7') = true) : c ∉ marks := by
  intro mark
  simp only [marks, quotes, List.mem_cons, List.not_mem_nil, or_false] at mark
  rcases mark with rfl | rfl | rfl <;> cases digit

theorem splits_of_hexEscape? (reads : hexEscape? cs = some (value, after)) : Splits cs after := by
  unfold hexEscape? at reads
  split at reads
  next a b rest =>
    obtain ⟨x, first, reads⟩ := Option.bind_eq_some_iff.1 reads
    obtain ⟨y, second, reads⟩ := Option.bind_eq_some_iff.1 reads
    cases reads
    have a := not_mem_marks_of_hexDigit? (Option.isSome_of_eq_some first)
    have b := not_mem_marks_of_hexDigit? (Option.isSome_of_eq_some second)
    exact .cons a (.cons b (.refl _))
  next => cases reads

theorem splits_of_pointEscape? (reads : pointEscape? cs = some (value, after)) : Splits cs after := by
  unfold pointEscape? at reads
  dsimp only at reads
  split at reads
  next rest follows =>
    split at reads
    · cases reads
    · cases reads
      have digits : Splits cs _ := .of_begins ( List.takeWhile_prefix _) fun c mem =>
        not_mem_marks_of_hexDigit? (List.mem_takeWhile_imp (p := fun c => (hexDigit? c).isSome) mem)
      rw [follows] at digits
      exact digits.trans (.cons (by decide) (.refl _))
  next => cases reads

theorem splits_of_unicodeEscape? (reads : unicodeEscape? cs = some (value, after)) : Splits cs after := by
  unfold unicodeEscape? at reads
  split at reads
  next rest => exact .cons (by decide) (splits_of_pointEscape? reads)
  next a b c d rest _ =>
    obtain ⟨n, read, reads⟩ := Option.bind_eq_some_iff.1 reads
    cases reads
    obtain ⟨x, first, read⟩ := Option.bind_eq_some_iff.1 read
    obtain ⟨y, second, read⟩ := Option.bind_eq_some_iff.1 read
    obtain ⟨z, third, read⟩ := Option.bind_eq_some_iff.1 read
    obtain ⟨w, fourth, read⟩ := Option.bind_eq_some_iff.1 read
    have plain := fun {c : Char} {d : Nat} (digit : hexDigit? c = some d) =>
      not_mem_marks_of_hexDigit? (Option.isSome_of_eq_some digit)
    exact .cons (plain first) (.cons (plain second) (.cons (plain third) (.cons (plain fourth) (.refl _))))
  next => cases reads

theorem splits_of_digitEscape? {legacy : Bool} {c : Char} (reads : digitEscape? legacy c cs = some (value, after)) :
    Splits cs after := by
  unfold digitEscape? at reads
  split at reads
  · cases reads
    exact .refl _
  · split at reads
    · cases reads
    · split at reads
      · cases reads
        exact .refl _
      · cases reads
        refine .of_begins ( ( List.takeWhile_prefix _).trans ( List.take_prefix _ _)) fun d mem => ?_
        exact not_mem_marks_of_octal (List.mem_takeWhile_imp (p := fun d => '0' ≤ d && d ≤ '7') mem)

/-- Behind its first character, an escape has neither quotes nor backslashes. -/
theorem splits_of_escape? {legacy : Bool} (reads : escape? legacy cs = some (value, after)) :
    ∃ c rest, cs = c :: rest ∧ Splits rest after := by
  cases cs with
  | nil => cases reads
  | cons c rest =>
      refine ⟨c, rest, rfl, ?_⟩
      rw [escape?] at reads
      split at reads
      · exact splits_of_hexEscape? reads
      · split at reads
        · exact splits_of_unicodeEscape? reads
        · split at reads
          · exact splits_of_digitEscape? reads
          · split at reads
            next crlf =>
              cases reads
              simp only [Bool.and_eq_true, decide_eq_true_eq] at crlf
              obtain ⟨behind, follows⟩ := List.head?_eq_some_iff.1 crlf.2
              rw [follows]
              exact .cons (by decide) (.refl _)
            next =>
              split at reads
              · cases reads
                exact .refl _
              · cases reads
                exact .refl _

end Splits

/-!
### Bodies
-/

/-- Between quotes of a kind, the text denotes a string, given by its UTF-16 units. -/
inductive Denotes (legacy : Bool) (quote : Char) : List Char → List Nat → Prop where
  | nil : Denotes legacy quote [] []
  | plain {c : Char} {rest : List Char} {value : List Nat} (unmarked : c ≠ quote ∧ c ≠ '\\')
      (inLine : c ≠ '\n' ∧ c ≠ '\r') (denotes : Denotes legacy quote rest value) :
      Denotes legacy quote (c :: rest) (units c.toNat ++ value)
  | escaped {rest after : List Char} {unit value : List Nat} (reads : escape? legacy rest = some (unit, after))
      (denotes : Denotes legacy quote after value) : Denotes legacy quote ('\\' :: rest) (unit ++ value)

/-- Does a quote stand in the text that no backslash escapes? -/
def hasBare (quote : Char) : List Char → Bool
  | [] => false
  | '\\' :: _ :: rest => hasBare quote rest
  | c :: rest => c == quote || hasBare quote rest

section Bodies

variable {legacy : Bool} {quote other : Char} {body : List Char} {value value' : List Nat}

/-- A body denotes one string, whatever the quotes around it. -/
theorem Denotes.value_unique (denotes : Denotes legacy quote body value) (denotes' : Denotes legacy other body value') :
    value = value' := by
  induction denotes generalizing value' with
  | nil => cases denotes'; rfl
  | plain unmarked _ _ ih =>
      cases denotes' with
      | plain _ _ rest => rw [ih rest]
      | escaped => exact absurd rfl unmarked.2
  | escaped reads _ ih =>
      cases denotes' with
      | plain unmarked => exact absurd rfl unmarked.2
      | escaped reads' rest =>
          rw [reads] at reads'
          cases reads'
          rw [ih rest]

theorem hasBare_cons {c : Char} (plain : c ≠ '\\') (rest : List Char) :
    hasBare quote (c :: rest) = (c == quote || hasBare quote rest) := by
  rw [hasBare]
  rintro _ _ rfl
  exact absurd rfl plain

/-- What was read over without marks holds no bare quote. -/
theorem hasBare_of_splits (isQuote : quote ∈ quotes) {rest after : List Char} (splits : Splits rest after)
    (more : List Char) : hasBare quote (rest ++ more) = hasBare quote (after ++ more) := by
  obtain ⟨tail, rfl, plain⟩ := splits
  induction tail with
  | nil => rfl
  | cons c tail ih =>
      rw [List.forall_mem_cons] at plain
      have differs : (c == quote) = false := beq_eq_false_iff_ne.2 fun same => plain.1 (.tail _ (same ▸ isQuote))
      have unmarked : c ≠ '\\' := fun same => plain.1 (by simp [same, marks])
      rw [List.cons_append, List.cons_append, hasBare_cons unmarked, differs, Bool.false_or, ih plain.2]

/-- Nothing in an escape is bare. -/
theorem hasBare_escape (isQuote : quote ∈ quotes) {rest after : List Char} {unit : List Nat}
    (reads : escape? legacy rest = some (unit, after)) (more : List Char) :
    hasBare quote ('\\' :: rest ++ more) = hasBare quote (after ++ more) := by
  obtain ⟨c, behind, rfl, splits⟩ := splits_of_escape? reads
  rw [List.cons_append, List.cons_append, hasBare, hasBare_of_splits isQuote splits]

/-- The end of a body is not escaped, so that a quote behind it is bare. -/
theorem Denotes.hasBare_append (denotes : Denotes legacy other body value) (isQuote : quote ∈ quotes)
    (more : List Char) : hasBare quote (body ++ quote :: more) = true := by
  induction denotes with
  | nil =>
      have unmarked : quote ≠ '\\' := by
        rintro rfl
        exact absurd isQuote (by decide)
      rw [List.nil_append, hasBare_cons unmarked, beq_self_eq_true, Bool.true_or]
  | plain unmarked _ _ ih => rw [List.cons_append, hasBare_cons unmarked.2, ih, Bool.or_true]
  | escaped reads _ ih => rw [hasBare_escape isQuote reads, ih]

/-- A body for quotes of one kind is one for quotes of another exactly if none of these is bare in it. -/
theorem Denotes.between_iff (denotes : Denotes legacy other body value) (isQuote : quote ∈ quotes) :
    Denotes legacy quote body value ↔ hasBare quote body = false := by
  constructor
  · intro between
    clear denotes
    induction between with
    | nil => rfl
    | plain unmarked _ _ ih => rw [hasBare_cons unmarked.2, ih, Bool.or_false, beq_eq_false_iff_ne.2 unmarked.1]
    | escaped reads _ ih =>
        have inside := hasBare_escape isQuote reads []
        rw [List.append_nil, List.append_nil] at inside
        rw [inside, ih]
  · intro none
    induction denotes with
    | nil => exact .nil
    | plain unmarked inLine _ ih =>
        rw [hasBare_cons unmarked.2, Bool.or_eq_false_iff, beq_eq_false_iff_ne] at none
        exact .plain ⟨none.1, unmarked.2⟩ inLine (ih none.2)
    | escaped reads _ ih =>
        have inside := hasBare_escape isQuote reads []
        rw [List.append_nil, List.append_nil] at inside
        rw [inside] at none
        exact .escaped reads (ih none)

/-- The text is a literal in quotes of a kind that denotes a string. -/
def IsLiteral (legacy : Bool) (quote : Char) (text : String) (value : List Nat) : Prop :=
  ∃ body, text.toList = quote :: (body ++ [quote]) ∧ Denotes legacy quote body value

theorem IsLiteral.denotes {text : String} (literal : IsLiteral legacy quote text value)
    (stands : text.toList = quote :: (body ++ [quote])) : Denotes legacy quote body value := by
  obtain ⟨body', stands', denotes⟩ := literal
  rw [stands, List.cons.injEq, List.append_left_inj] at stands'
  rwa [stands'.2]

end Bodies

end Outline.StringLiteral
