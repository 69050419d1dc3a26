/-
Module: Outline.Json.Value
Layer: Data
Purpose: JSON documents. Objects keep the order of their keys, and integers are told from other numbers.
Main exports: Json, Json.field?, Json.strings
-/
import Outline.Decimal
import Outline.Entries

namespace Outline

/-- A JSON document. -/
inductive Json where
  | null
  | bool (b : Bool)
  | int (n : Int)
  | real (r : Decimal)
  | text (s : String)
  /-- A text with half of a split code point; `shown` has the replacement character in its place. -/
  | brokenText (shown : String)
  | list (items : List Json)
  | object (fields : List (String × Json))
deriving Repr, Inhabited

namespace Json

/-- Value of a key of an object. -/
def field? : Json → String → Option Json
  | object fields, key => Entries.get? fields key
  | _, _ => none

/-- A list of texts. -/
def strings (ss : List String) : Json := list (ss.map text)

/-- A text, or null. -/
def textOrNull : Option String → Json
  | some s => text s
  | none => null

end Json

end Outline
