/-
Module: Outline.Proofs.Text.Brackets
Layer: Proofs
Purpose: Where a bracket in the text of a type is closed. Brackets inside are passed over with what they hold, and so
  are quotations and templates; the `>` of an arrow closes nothing.
Main exports: Text.Opened, Text.behind, Text.behind_append
-/
import Outline.Text.Blank

namespace Outline.Text

/-- What is open at a place in the text of a type. -/
inductive Opened where
  | angle
  /-- A brace of a type, or one in a template behind a dollar sign. -/
  | brace
  /-- A quotation or a template, up to the same mark. -/
  | quoted (mark : Char)
  /-- In a quotation, a backslash was the last character. -/
  | escape
  /-- In a template, a dollar sign was the last character. -/
  | dollar
  /-- Outside of quotations, an equals sign was the last character. -/
  | equals
deriving Repr, DecidableEq

namespace Opened

/-- What a character outside of quotations opens. -/
def enter (os : List Opened) (c : Char) : List Opened :=
  if c = '<' then angle :: os
  else if c = '\x7b' then brace :: os
  else if c = '=' then equals :: os
  else if ['"', '\'', '\x60'].contains c then quoted c :: os
  else os

/-- What is open after one more character. -/
def next : List Opened → Char → List Opened
  | [], _ => []
  | angle :: os, c => if c = '>' then os else enter (angle :: os) c
  | brace :: os, c => if c = '\x7d' then os else enter (brace :: os) c
  | quoted mark :: os, c =>
    if c = mark then os
    else if c = '\\' then escape :: quoted mark :: os
    else if c = '$' && mark = '\x60' then dollar :: quoted mark :: os
    else quoted mark :: os
  | escape :: os, _ => os
  | dollar :: os, c => if c = '\x7b' then brace :: os else next os c
  | equals :: os, c => if c = '>' then os else next os c

end Opened

/-- The text behind the character that closes the last of what is open, if it comes. -/
def behind : List Opened → List Char → Option (List Char)
  | [], cs => some cs
  | _ :: _, [] => none
  | o :: os, c :: cs => behind (Opened.next (o :: os) c) cs

/-- What follows a text in which all is closed is behind it. -/
theorem behind_append {opened : List Opened} {cs rest : List Char} (closed : behind opened cs = some rest)
    (more : List Char) : behind opened (cs ++ more) = some (rest ++ more) := by
  induction cs generalizing opened with
  | nil =>
      cases opened with
      | nil =>
          cases closed
          rw [behind, List.nil_append]
      | cons o os => cases closed
  | cons c cs ih =>
      cases opened with
      | nil =>
          cases closed
          rw [behind]
      | cons o os => exact ih closed

end Outline.Text
