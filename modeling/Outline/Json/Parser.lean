/-
Module: Outline.Json.Parser
Layer: Data
Purpose: Reading JSON documents. A repeated key keeps its first place and takes its last value; the words
  for infinities and for "not a number" are read as numbers; control characters may not stand in strings; integers
  have a greatest length.
Main exports: Json.parse
-/
import Outline.Document
import Outline.Json.Value

namespace Outline.Json.Parser

/-- Drop the blanks that may stand between tokens. -/
def skipBlanks (cs : List Char) : List Char :=
  cs.dropWhile fun c => c = ' ' || c = '\t' || c = '\n' || c = '\r'

/-- Value of a hexadecimal digit. -/
def hexDigit? (c : Char) : Option Nat :=
  if '0' ≤ c && c ≤ '9' then some (c.toNat - 48)
  else if 'a' ≤ c && c ≤ 'f' then some (c.toNat - 87)
  else if 'A' ≤ c && c ≤ 'F' then some (c.toNat - 55)
  else none

/-- Value of four hexadecimal digits. -/
def hexUnit? (a b c d : Char) : Option Nat := do
  return ((← hexDigit? a) * 16 + (← hexDigit? b)) * 256 + (← hexDigit? c) * 16 + (← hexDigit? d)

/-- Join each leading and trailing half of a split code point; a half left alone is unreadable. -/
def joinHalves : List Nat → List Char
  | [] => []
  | [u] => [if 0xD800 ≤ u && u < 0xE000 then Char.ofNat 0xFFFD else Char.ofNat u]
  | u :: v :: rest =>
    if 0xD800 ≤ u && u < 0xDC00 && 0xDC00 ≤ v && v < 0xE000 then
      Char.ofNat (0x10000 + (u - 0xD800) * 0x400 + (v - 0xDC00)) :: joinHalves rest
    else (if 0xD800 ≤ u && u < 0xE000 then Char.ofNat 0xFFFD else Char.ofNat u) :: joinHalves (v :: rest)
termination_by units => units.length

/-- The character that a one-letter escape stands for. -/
def simpleEscape? : Char → Option Char
  | '"' => some '"'
  | '\\' => some '\\'
  | '/' => some '/'
  | 'b' => some (Char.ofNat 8)
  | 'f' => some (Char.ofNat 12)
  | 'n' => some '\n'
  | 'r' => some '\r'
  | 't' => some '\t'
  | _ => none

/-- Code points of a string up to its closing quote, and what follows it. -/
def stringUnits : List Char → Option (List Nat × List Char)
  | [] => none
  | '"' :: rest => some ([], rest)
  | '\\' :: 'u' :: a :: b :: c :: d :: rest => do
    let unit ← hexUnit? a b c d
    let (units, after) ← stringUnits rest
    return (unit :: units, after)
  | '\\' :: e :: rest => do
    let c ← simpleEscape? e
    let (units, after) ← stringUnits rest
    return (c.toNat :: units, after)
  | c :: rest =>
    if c.toNat < 0x20 || c = '\\' then none
    else do
      let (units, after) ← stringUnits rest
      return (c.toNat :: units, after)

/-- Is a half of a split code point left alone? -/
def hasLoneHalf : List Nat → Bool
  | [] => false
  | [u] => 0xD800 ≤ u && u < 0xE000
  | u :: v :: rest =>
    if 0xD800 ≤ u && u < 0xDC00 && 0xDC00 ≤ v && v < 0xE000 then hasLoneHalf rest
    else (0xD800 ≤ u && u < 0xE000) || hasLoneHalf (v :: rest)
termination_by units => units.length

/-- A key whose opening quote has been read. -/
def keyText (cs : List Char) : Option (String × List Char) := do
  let (units, rest) ← stringUnits cs
  return (String.ofList (joinHalves units), rest)

/-- A string whose opening quote has been read. -/
def string (cs : List Char) : Option (Json × List Char) := do
  let (units, rest) ← stringUnits cs
  let s := String.ofList (joinHalves units)
  return (if hasLoneHalf units then brokenText s else text s, rest)

/-- The leading digits and the rest. -/
def digits (cs : List Char) : List Char × List Char :=
  (cs.takeWhile Char.isDigit, cs.dropWhile Char.isDigit)

/-- The digits after a point, if a point with digits stands here. -/
def fraction (cs : List Char) : List Char × List Char :=
  match cs with
  | '.' :: rest => if (digits rest).1.isEmpty then ([], cs) else digits rest
  | _ => ([], cs)

/-- The exponent, if one stands here. -/
def exponent (cs : List Char) : Option Int × List Char :=
  match cs with
  | e :: rest =>
    if e = 'e' || e = 'E' then
      let (negative, rest) := match rest with
        | '-' :: r => (true, r)
        | '+' :: r => (false, r)
        | r => (false, r)
      let (ds, after) := digits rest
      if ds.isEmpty then (none, cs)
      else (some (if negative then -(digitsValue ds : Int) else digitsValue ds), after)
    else (none, cs)
  | [] => (none, cs)

/-- A number without its sign. A leading zero stands alone. -/
def number (negative : Bool) (cs : List Char) : Parsed (Json × List Char) :=
  let whole := match cs with
    | '0' :: rest => (['0'], rest)
    | _ => digits cs
  if whole.1.isEmpty then .error .malformed
  else
    let (frac, rest) := fraction whole.2
    let (exp, rest) := exponent rest
    if frac.isEmpty && exp.isNone then
      (decimalInteger negative whole.1).map fun n => (int n, rest)
    else
      .ok (real (.finite negative (digitsValue (whole.1 ++ frac)) (exp.getD 0 - frac.length)), rest)

/-- The words that are values, with their values. -/
def words : List (String × Json) :=
  [("null", null), ("true", bool true), ("false", bool false), ("NaN", real .notANumber),
   ("Infinity", real (.infinite false)), ("-Infinity", real (.infinite true))]

/-- A word that is a value. -/
def word (cs : List Char) : Option (Json × List Char) :=
  words.findSome? fun (w, v) =>
    if w.toList.isPrefixOf cs then some (v, cs.drop w.toList.length) else none

/-- A word or a number. -/
def wordOrNumber (cs : List Char) : Parsed (Json × List Char) :=
  match word cs with
  | some found => .ok found
  | none =>
    match cs with
    | '-' :: rest => number true rest
    | _ => number false cs

mutual

/-- A value. The fuel bounds the nesting and the number of parts; the length of the text is enough. -/
def value : Nat → List Char → Parsed (Json × List Char)
  | 0, _ => .error .malformed
  | fuel + 1, cs =>
    match cs with
    | '"' :: rest => orMalformed (string rest)
    | '[' :: rest =>
      match skipBlanks rest with
      | ']' :: after => .ok (list [], after)
      | rest => (items fuel rest).map fun (vs, after) => (list vs, after)
    | '\x7b' :: rest =>
      match skipBlanks rest with
      | '\x7d' :: after => .ok (object [], after)
      | rest => (fields fuel [] rest).map fun (fs, after) => (object fs, after)
    | _ => wordOrNumber cs

/-- The values of a list up to its closing bracket. -/
def items : Nat → List Char → Parsed (List Json × List Char)
  | 0, _ => .error .malformed
  | fuel + 1, cs => do
    let (v, rest) ← value fuel cs
    match skipBlanks rest with
    | ']' :: after => return ([v], after)
    | ',' :: rest =>
      let (vs, after) ← items fuel (skipBlanks rest)
      return (v :: vs, after)
    | _ => .error .malformed

/-- The pairs of an object up to its closing brace, stored into those already read. -/
def fields : Nat → List (String × Json) → List Char → Parsed (List (String × Json) × List Char)
  | 0, _, _ => .error .malformed
  | fuel + 1, read, cs => do
    let '"' :: rest := cs | .error .malformed
    let (key, rest) ← orMalformed (keyText rest)
    let ':' :: rest := skipBlanks rest | .error .malformed
    let (v, rest) ← value fuel (skipBlanks rest)
    let read := Entries.put read key v
    match skipBlanks rest with
    | '\x7d' :: after => return (read, after)
    | ',' :: rest => fields fuel read (skipBlanks rest)
    | _ => .error .malformed

end

end Parser

/-- Read a whole text as one JSON document. -/
def parse (s : String) : Parsed Json := do
  let (v, rest) ← Parser.value (s.toList.length + 1) (Parser.skipBlanks s.toList)
  if (Parser.skipBlanks rest).isEmpty then return v else .error .malformed

end Outline.Json
