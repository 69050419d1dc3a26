/-
Module: Outline.Json.Printer
Layer: Data
Purpose: Writing JSON documents, on one line or with an indentation of two. Only printable ASCII is written
  as it is; everything else is escaped by its UTF-16 units.
Main exports: Json.compact, Json.pretty
-/
import Outline.Json.Value
import Outline.Text.Blank
import Outline.Text.Quoted

namespace Outline.Json

/-- One UTF-16 unit as an escape. -/
def unitEscape (n : Nat) : List Char := '\\' :: 'u' :: Text.hexDigits 4 n

/-- One character inside a JSON string. -/
def escapeChar (c : Char) : List Char :=
  let n := c.toNat
  if c = '"' || c = '\\' then ['\\', c]
  else if c = '\n' then ['\\', 'n']
  else if c = '\r' then ['\\', 'r']
  else if c = '\t' then ['\\', 't']
  else if n = 8 then ['\\', 'b']
  else if n = 12 then ['\\', 'f']
  else if 0x20 ≤ n && n ≤ 0x7E then [c]
  else if n < 0x10000 then unitEscape n
  else unitEscape (0xD800 + (n - 0x10000) / 0x400) ++ unitEscape (0xDC00 + (n - 0x10000) % 0x400)

/-- A JSON string. -/
def stringLiteral (s : String) : String :=
  String.ofList ('"' :: s.toList.flatMap escapeChar ++ ['"'])

/-- A number with a fraction or an exponent. -/
def realLiteral : Decimal → String
  | .finite negative digits exponent =>
    (if negative then "-" else "") ++ toString digits ++ "e" ++ toString exponent
  | .infinite false => "Infinity"
  | .infinite true => "-Infinity"
  | .notANumber => "NaN"

/-- A line break followed by an indentation of `level` steps. -/
def newline (level : Nat) : String := "\n" ++ String.ofList (List.replicate (2 * level) ' ')

/-- What stands between the brackets of a list or an object: nothing, the parts in one line, or each part on
    a line of its own when a level of indentation is given. -/
def bracket (opening closing : String) (level : Option Nat) (parts : List String) : String :=
  if parts.isEmpty then opening ++ closing
  else match level with
    | none => opening ++ Text.joinWith "," parts ++ closing
    | some level =>
      opening ++ newline (level + 1) ++ Text.joinWith ("," ++ newline (level + 1)) parts ++
        newline level ++ closing

mutual

/-- A document at a level of indentation, or on one line. -/
def write (level : Option Nat) : Json → String
  | null => "null"
  | bool b => if b then "true" else "false"
  | int n => toString n
  | real r => realLiteral r
  | text s => stringLiteral s
  | brokenText shown => stringLiteral shown
  | list items => bracket "[" "]" level (writeItems (level.map (· + 1)) items)
  | object fields => bracket "\x7b" "\x7d" level (writeFields (level.map (· + 1)) fields)

/-- The items of a list. -/
def writeItems (level : Option Nat) : List Json → List String
  | [] => []
  | v :: vs => write level v :: writeItems level vs

/-- The pairs of an object. -/
def writeFields (level : Option Nat) : List (String × Json) → List String
  | [] => []
  | (k, v) :: rest =>
    (stringLiteral k ++ (if level.isSome then ": " else ":") ++ write level v) :: writeFields level rest

end

/-- The document on one line. -/
def compact (v : Json) : String := write none v

/-- The document with an indentation of two. -/
def pretty (v : Json) : String := write (some 0) v

end Outline.Json
