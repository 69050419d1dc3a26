/-
Module: Outline.Position
Layer: Tree
Purpose: Byte offsets as line and column numbers. A line takes its UTF-8 length and one more byte for the
  line feed after it; columns count bytes.
Main exports: LineColumn, Position, locate, Position.ofSpan, rawCode
-/
import Outline.Source
import Outline.Text.Utf8

namespace Outline

/-- A line and a column, both from one. -/
structure LineColumn where
  line : Nat := 1
  column : Nat := 1
deriving DecidableEq, Repr, Inhabited

/-- Start and end of a span. -/
structure Position where
  start : LineColumn := {}
  stop : LineColumn := {}
deriving DecidableEq, Repr, Inhabited

/-- Line and column of a byte offset in lines of which the first has the given number. -/
def locateFrom (number offset : Nat) : List String → Option LineColumn
  | [] => none
  | l :: ls =>
    if offset < l.utf8ByteSize + 1 then some ⟨number, offset + 1⟩
    else locateFrom (number + 1) (offset - (l.utf8ByteSize + 1)) ls

/-- Line and column of a byte offset; none for an offset outside the text. -/
def locate (offset : Int) (lines : List String) : Option LineColumn :=
  if offset < 0 then none else locateFrom 1 offset.toNat lines

/-- Position of a byte span. An end outside the text counts as the first line and column. -/
def Position.ofSpan (start stop : Int) (lines : List String) : Position :=
  { start := (locate start lines).getD {}, stop := (locate stop lines).getD {} }

/-- Position of a node. -/
def Source.position (src : Source) (n : Node) : Position :=
  Position.ofSpan n.start n.stop src.lines

/-- An offset moved into the range `low..high`. -/
def clamp (low high : Nat) (offset : Int) : Nat :=
  max low (min offset.toNat high)

/-- Text between two byte offsets, with the start moved into the text and the end moved between it and the
    end of the text. A character cut at either side is shown as the replacement character. -/
def rawCode (start stop : Int) (lines : List String) : String :=
  let bytes := (Text.joinWith "\n" lines).toUTF8
  let first := clamp 0 bytes.size start
  let last := clamp first bytes.size stop
  String.ofList (Text.Utf8.decodeReplacing (bytes.extract first last).data.toList)

end Outline
