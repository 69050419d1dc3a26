/-
Module: Outline.Settings.Value
Layer: Settings
Purpose: What a source of settings can say, before it is checked, and how two sources are put together: tables are
  merged entry by entry, and anything else is taken from the source that counts more.
Main exports: ResolverSection, Value, Value.ofJson, Value.merge, mergeTables
-/
import Outline.Disk.Probe
import Outline.Json.Value

namespace Outline.Settings

/-- The resolver section as an object: all that can be set in it is set. -/
structure ResolverSection where
  search : Specifier.SearchOptions := {}
  workspace : Option String := none
  probe : ProbeKind := .none
deriving DecidableEq, Repr, Inhabited

/-- An unchecked value of a setting. -/
inductive Value where
  | null
  | bool (b : Bool)
  | int (n : Int)
  | real (r : Decimal)
  | text (s : String)
  /-- A text with half of a split code point, which no text can hold. -/
  | brokenText
  /-- A date or a time. -/
  | moment
  /-- A section that is an object already, as only a direct argument can be. -/
  | checked (r : ResolverSection)
  /-- Values in a row; a set is one too, in some order. -/
  | list (items : List Value)
  | table (entries : List (String × Value))
deriving Repr, Inhabited

/-- A table of unchecked values. -/
abbrev RawTable := Entries Value

namespace Value

mutual

/-- A JSON document as a value. -/
def ofJson : Json → Value
  | .null => null
  | .bool b => bool b
  | .int n => int n
  | .real r => real r
  | .text s => text s
  | .brokenText _ => brokenText
  | .list items => list (ofJsonList items)
  | .object fields => table (ofJsonFields fields)

/-- JSON documents as values. -/
def ofJsonList : List Json → List Value
  | [] => []
  | v :: vs => ofJson v :: ofJsonList vs

/-- The pairs of a JSON object as entries of a table. -/
def ofJsonFields : List (String × Json) → List (String × Value)
  | [] => []
  | (k, v) :: rest => (k, ofJson v) :: ofJsonFields rest

end

mutual

/-- What two sources say together: `upper` counts more than `lower`, and tables are merged entry by entry. -/
def merge (lower : Value) : Value → Value
  | table upper =>
    match lower with
    | table entries => table (mergeTables entries upper)
    | _ => table upper
  | upper => upper

/-- Merge the entries of a table into another one, one after the other. The entries of `lower` keep their
    places. -/
def mergeTables (lower : List (String × Value)) : List (String × Value) → List (String × Value)
  | [] => lower
  | (key, upper) :: rest =>
    mergeTables
      (Entries.put lower key (match Entries.get? lower key with
        | some value => merge value upper
        | none => upper))
      rest

end

end Value

end Outline.Settings
