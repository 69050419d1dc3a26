/-
Module: Outline.Source
Layer: Tree
Purpose: The text a syntax tree was made from, addressed by byte offsets. A node's text is a slice of the
  UTF-8 bytes; a slice that cuts a character has none.
Main exports: Source, Undecodable, Source.slice?, Source.textOf, Source.place, Source.line
-/
import Outline.Text.Blank
import Outline.Tree.Node

namespace Outline

/-- The text of one file. -/
structure Source where
  text : String
deriving DecidableEq, Repr, Inhabited

/-- A span whose bytes are no text, because it cuts a character. -/
structure Undecodable where
  start : Nat
  stop : Nat
deriving DecidableEq, Repr, Inhabited

namespace Source

/-- UTF-8 bytes of the text. -/
def bytes (src : Source) : ByteArray := src.text.toUTF8

/-- Text between two byte offsets, if they do not cut a character. Offsets past the end count as the end. -/
def slice? (src : Source) (start stop : Nat) : Option String :=
  String.fromUTF8? (src.bytes.extract start stop)

/-- Text of a node. -/
def textOf (src : Source) (n : Node) : Except Undecodable String :=
  match src.slice? n.start n.stop with
  | some s => .ok s
  | none => .error ⟨n.start, n.stop⟩

/-- Lines of the text; only a line feed ends a line. -/
def lines (src : Source) : List String := Text.split '\n' src.text

/-- Row and column, from zero, after reading some bytes from a given place. -/
def advance : Nat × Nat → List UInt8 → Nat × Nat
  | place, [] => place
  | (row, column), b :: rest => advance (if b = 10 then (row + 1, 0) else (row, column + 1)) rest

/-- Row and column of a byte offset: line feeds before it, and bytes since the last of them. -/
def place (src : Source) (offset : Nat) : Nat × Nat :=
  advance (0, 0) (src.bytes.data.toList.take offset)

/-- Line number, from one, on which a node starts. -/
def line (src : Source) (n : Node) : Nat := (src.place n.start).1 + 1

/-- Column, from one, at which a node starts. -/
def column (src : Source) (n : Node) : Nat := (src.place n.start).2 + 1

end Source

end Outline
