/-
Module: Outline.Settings.Numeral
Layer: Settings
Purpose: Integers given as text. A numeral in plain form is an optional minus and digits without needless zeros. A
  text that is not in plain form may still be brought to it: padding, a plus, leading zeros, a fraction of zeros and
  single underscores are dropped, and what remains must be plain.
Main exports: Numeral, Numeral.read
-/
import Outline.Document

namespace Outline.Settings

/-- What a text says where an integer is expected. -/
inductive Numeral where
  | integer (n : Int)
  /-- It has more characters than are read. -/
  | tooLong
  | unreadable
deriving DecidableEq, Repr, Inhabited

namespace Numeral

/-- A leading minus and the rest. -/
def takeMinus : List Char → Bool × List Char
  | '-' :: rest => (true, rest)
  | cs => (false, cs)

/-- Read a numeral in plain form. The minus counts for the length, and the length is looked at before what follows
    the digits. -/
def readPlain (cs : List Char) : Numeral :=
  let (negative, body) := takeMinus cs
  match body with
  | [] => .unreadable
  | ['0'] => .integer 0
  | '0' :: _ => .unreadable
  | _ =>
    let ds := body.takeWhile Char.isDigit
    let width := ds.length + (if negative then 1 else 0)
    if Text.maxDigits < width then .tooLong
    else if ds.isEmpty || ds.length < body.length then .unreadable
    else
      let n : Int := digitsValue ds
      .integer (if negative then -n else n)

/-- What follows the zeros and underscores at the beginning of a numeral, of which `last` is the latest. Before a
    point the latest is kept, and so it is if nothing follows. A minus may follow like a digit. -/
def afterZeros (last : Char) : List Char → Option (List Char)
  | [] => some [last]
  | c :: rest =>
    if c = '0' || c = '_' then afterZeros c rest
    else if c.isDigit || c = '-' then some (c :: rest)
    else if c = '.' then some (last :: c :: rest)
    else none

/-- Drop leading zeros; a numeral starts with a digit, or with a minus. -/
def dropLeadingZeros : List Char → Option (List Char)
  | [] => none
  | c :: rest =>
    if c = '0' then afterZeros c rest
    else if c.isDigit || c = '-' then some (c :: rest)
    else none

/-- Drop a fraction of zeros; a point without digits is left. -/
def dropZeroFraction (cs : List Char) : List Char :=
  match cs.dropWhile (· ≠ '.') with
  | '.' :: '0' :: zeros => if zeros.all (· = '0') then cs.takeWhile (· ≠ '.') else cs
  | _ => cs

/-- Drop single underscores inside a numeral; if one stands elsewhere, all are left. -/
def dropUnderscores (cs : List Char) : List Char :=
  let doubled := (cs.zip (cs.drop 1)).any fun (a, b) => a = '_' && b = '_'
  if cs.head? = some '_' || cs.getLast? = some '_' || doubled then cs else cs.filter (· ≠ '_')

/-- A leading sign as it is written in plain form, and the rest. -/
def takeSign : List Char → List Char × List Char
  | '-' :: rest => (['-'], rest)
  | '+' :: rest => ([], rest)
  | cs => ([], cs)

/-- Bring a numeral to plain form as far as possible. -/
def toPlain? (cs : List Char) : Option (List Char) :=
  let (sign, body) := takeSign (Text.trimWhile Text.isPadding cs)
  (dropLeadingZeros body).map fun body => sign ++ dropUnderscores (dropZeroFraction body)

/-- Read a numeral. -/
def read (s : String) : Numeral :=
  match readPlain s.toList with
  | .unreadable =>
    match toPlain? s.toList with
    | some plain => readPlain plain
    | none => .unreadable
  | n => n

/-- A numeral in plain form is read as it stands. -/
theorem read_of_readPlain {s : String} {n : Int} (h : readPlain s.toList = .integer n) : read s = .integer n := by
  simp [read, h]

end Numeral

end Outline.Settings
