/-
Module: Outline.Document
Layer: Data
Purpose: Why a document in a data format cannot be read. Reading goes from left to right and stops at the first
  fault, so of a misplaced character and an oversized number the one that stands first counts.
Main exports: DocumentFault, Parsed, orMalformed, decimalInteger
-/
import Outline.Text.Integer

namespace Outline

/-- Why a document cannot be read. -/
inductive DocumentFault where
  /-- It is not written as its format demands. -/
  | malformed
  /-- It holds an integer of more digits than are read. -/
  | oversized
deriving DecidableEq, Repr, Inhabited

/-- What was read, or the first fault. -/
abbrev Parsed (α : Type) := Except DocumentFault α

/-- A part that has to be there. -/
def orMalformed {α : Type} : Option α → Parsed α
  | some a => .ok a
  | none => .error .malformed

/-- Number written by decimal digits. -/
def digitsValue (ds : List Char) : Nat :=
  ds.foldl (fun n d => n * 10 + (d.toNat - 48)) 0

/-- Integer with a sign and decimal digits. -/
def decimalInteger (negative : Bool) (ds : List Char) : Parsed Int :=
  if Text.maxDigits < ds.length then .error .oversized
  else
    let n : Int := digitsValue ds
    .ok (if negative then -n else n)

end Outline
