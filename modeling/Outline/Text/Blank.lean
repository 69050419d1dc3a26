/-
Module: Outline.Text.Blank
Layer: Text
Purpose: The blank characters and what is done with them: trimming, collapsing runs, dropping them, and
  cutting a text into lines. Everything works on `List Char`; a `String` version stands beside it where
  callers hold strings.
Main exports: isBlank, trim, collapse, squash, compact, isLineBreak, lines, splitOn, joinWith
-/

namespace Outline.Text

/-- The blank characters: the ASCII blanks and separators, next line, and the Unicode spaces and line
    and paragraph separators. The zero-width space and the byte order mark are not blank. -/
def isBlank (c : Char) : Bool :=
  let n := c.toNat
  (0x9 ≤ n && n ≤ 0xD) || (0x1C ≤ n && n ≤ 0x20) || n == 0x85 || n == 0xA0 || n == 0x1680 ||
    (0x2000 ≤ n && n ≤ 0x200A) || n == 0x2028 || n == 0x2029 || n == 0x202F || n == 0x205F || n == 0x3000

/-!
### Trimming
-/

/-- Drop the longest run of characters satisfying `p` at the end. -/
def dropEndWhile (p : Char → Bool) (cs : List Char) : List Char :=
  (cs.reverse.dropWhile p).reverse

/-- Drop the characters satisfying `p` at both ends. -/
def trimWhile (p : Char → Bool) (cs : List Char) : List Char :=
  dropEndWhile p (cs.dropWhile p)

/-- Text without the blanks at its ends. -/
def trim (s : String) : String :=
  String.ofList (trimWhile isBlank s.toList)

/-- Text without the blanks at its end. -/
def trimEnd (s : String) : String :=
  String.ofList (dropEndWhile isBlank s.toList)

/-!
### Runs of blanks
-/

/-- Replace each maximal run of blanks by one space. The last blank of a run is the one that writes it. -/
def collapse : List Char → List Char
  | [] => []
  | c :: cs =>
    if isBlank c then
      if cs.head?.any isBlank then collapse cs else ' ' :: collapse cs
    else c :: collapse cs

/-- Single-line form of a text: runs of blanks become one space, and none is left at the ends. -/
def squash (s : String) : String :=
  String.ofList (trimWhile isBlank (collapse s.toList))

/-- Text with every blank removed. -/
def compact (s : String) : String :=
  String.ofList (s.toList.filter fun c => !isBlank c)

/-!
### Lines and separators
-/

/-- The characters that end a line of their own. -/
def isLineBreak (c : Char) : Bool :=
  let n := c.toNat
  (0xA ≤ n && n ≤ 0xD) || (0x1C ≤ n && n ≤ 0x1E) || n == 0x85 || n == 0x2028 || n == 0x2029

/-- Put a character in front of the first line. -/
def consLine (c : Char) : List (List Char) → List (List Char)
  | [] => [[c]]
  | l :: ls => (c :: l) :: ls

/-- Lines of a text, without their breaks. A carriage return and the line feed after it are one break, and
    a break at the very end opens no further line. -/
def lines : List Char → List (List Char)
  | [] => []
  | '\r' :: '\n' :: cs => [] :: lines cs
  | c :: cs => if isLineBreak c then [] :: lines cs else consLine c (lines cs)

/-- Pieces of a text between the occurrences of `sep`; there is always at least one. -/
def splitOn (sep : Char) : List Char → List (List Char)
  | [] => [[]]
  | c :: cs => if c = sep then [] :: splitOn sep cs else consLine c (splitOn sep cs)

/-- The pieces of a string between the occurrences of `sep`. -/
def split (sep : Char) (s : String) : List String :=
  (splitOn sep s.toList).map String.ofList

/-- Pieces joined with a separator between them. -/
def joinWith (sep : String) : List String → String
  | [] => ""
  | [s] => s
  | s :: t :: rest => s ++ sep ++ joinWith sep (t :: rest)

/-- Text in which every carriage return, with the line feed after it if there is one, is a line feed. -/
def unifyBreaks : List Char → List Char
  | [] => []
  | '\r' :: '\n' :: cs => '\n' :: unifyBreaks cs
  | c :: cs => (if c = '\r' then '\n' else c) :: unifyBreaks cs

/-!
### Beginnings and ends
-/

/-- Does `s` begin with `beginning`? -/
def startsWith (s beginning : String) : Bool :=
  beginning.toList.isPrefixOf s.toList

/-- Does `s` end with `ending`? -/
def endsWith (s ending : String) : Bool :=
  ending.toList.isSuffixOf s.toList

/-- Text without its first `n` characters. -/
def dropFirst (n : Nat) (s : String) : String :=
  String.ofList (s.toList.drop n)

/-- Text without its last `n` characters. -/
def dropLast (n : Nat) (s : String) : String :=
  String.ofList (s.toList.take (s.toList.length - n))

/-- First `n` characters of a text. -/
def takeFirst (n : Nat) (s : String) : String :=
  String.ofList (s.toList.take n)

end Outline.Text
