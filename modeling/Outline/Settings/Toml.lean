/-
Module: Outline.Settings.Toml
Layer: Settings
Purpose: Reading TOML documents into tables of values. Lines are processed one after the other into a tree whose
  tables remember how they came to be, because a table may be opened once only, and not at all after dotted keys
  have written into it; values written in one piece are closed for good.
Main exports: parseToml
-/
import Outline.Json.Parser
import Outline.Settings.Value
import Outline.Text.Blank

namespace Outline.Settings.Toml

open Json.Parser (hexDigit?)

/-!
### Characters
-/

/-- Blanks inside a line. -/
def isSpace (c : Char) : Bool := c = ' ' || c = '\t'

/-- Blanks and line feeds. -/
def isSpaceOrBreak (c : Char) : Bool := isSpace c || c = '\n'

/-- Control characters other than the tab; they may stand nowhere but where a line ends. -/
def isControl (c : Char) : Bool := (c.toNat < 0x20 && c ≠ '\t') || c.toNat = 0x7F

/-- Characters of a bare key. -/
def isBareKeyChar (c : Char) : Bool := c.isAlphanum || c = '-' || c = '_'

/-- Drop blanks inside a line. -/
def skipSpaces (cs : List Char) : List Char := cs.dropWhile isSpace

/-- Drop a comment, if one stands here; what is left starts with the line feed or is empty. -/
def skipComment : List Char → Option (List Char)
  | '#' :: rest =>
    if (rest.takeWhile (· ≠ '\n')).any isControl then none else some (rest.dropWhile (· ≠ '\n'))
  | rest => some rest

/-- Drop blanks, line feeds and comments between the items of a list. The fuel is the length of the text. -/
def skipFiller : Nat → List Char → Option (List Char)
  | 0, cs => some cs
  | fuel + 1, cs =>
    match cs.dropWhile isSpaceOrBreak with
    | '#' :: rest => (skipComment ('#' :: rest)).bind (skipFiller fuel)
    | rest => some rest

/-- Does the text start with these characters? -/
def opensWith (s : String) (cs : List Char) : Bool := s.toList.isPrefixOf cs

/-!
### Strings
-/

/-- The character with a code point written by hexadecimal digits, if it is one. -/
def hexChar? (digits : List Char) : Option Char := do
  let values ← digits.mapM hexDigit?
  let n := values.foldl (fun n d => n * 16 + d) 0
  if n < 0xD800 || (0xE000 ≤ n && n < 0x110000) then some (Char.ofNat n) else none

/-- The character that a one-letter escape stands for. -/
def escape? : Char → Option Char
  | 'b' => some (Char.ofNat 8)
  | 't' => some '\t'
  | 'n' => some '\n'
  | 'f' => some (Char.ofNat 12)
  | 'r' => some '\r'
  | '"' => some '"'
  | '\\' => some '\\'
  | _ => none

/-- A string in double quotes after its opening, which may run over several lines, and what follows its end. The
    fuel is the length of the text. -/
def basicString (multiline : Bool) : Nat → List Char → Option (List Char × List Char)
  | 0, _ => none
  | fuel + 1, cs =>
    if multiline && opensWith "\"\"\"" cs then some ([], cs.drop 3)
    else match cs with
      | [] => none
      | '"' :: rest =>
        if multiline then (basicString multiline fuel rest).map fun (s, after) => ('"' :: s, after)
        else some ([], rest)
      | '\\' :: c :: rest =>
        if multiline && isSpaceOrBreak c then
          -- An escaped line break swallows it and all blanks after it.
          match (c :: rest).dropWhile isSpace with
          | '\n' :: next => basicString multiline fuel (next.dropWhile isSpaceOrBreak)
          | [] => basicString multiline fuel []
          | _ => none
        else if c = 'u' || c = 'U' then do
          let width := if c = 'u' then 4 else 8
          if rest.length < width then none
          let d ← hexChar? (rest.take width)
          let (s, after) ← basicString multiline fuel (rest.drop width)
          return (d :: s, after)
        else do
          let d ← escape? c
          let (s, after) ← basicString multiline fuel rest
          return (d :: s, after)
      | '\\' :: [] => none
      | c :: rest =>
        if isControl c && !(multiline && c = '\n') then none
        else (basicString multiline fuel rest).map fun (s, after) => (c :: s, after)

/-- A string in single quotes after its opening; it runs to the next quote of the line. -/
def literalString (cs : List Char) : Option (List Char × List Char) :=
  let body := cs.takeWhile (· ≠ '\'')
  if body.any isControl then none
  else match cs.dropWhile (· ≠ '\'') with
    | _ :: after => some (body, after)
    | [] => none

/-- A string in three single quotes after its opening. -/
def literalBlock : List Char → Option (List Char × List Char)
  | [] => none
  | c :: rest =>
    if opensWith "'''" (c :: rest) then some ([], rest.drop 2)
    else if isControl c && c ≠ '\n' then none
    else (literalBlock rest).map fun (s, after) => (c :: s, after)

/-- Up to two more quotes at the end of a block belong to it. -/
def extraQuotes (quote : Char) (s cs : List Char) : List Char × List Char :=
  match cs with
  | a :: b :: rest =>
    if a = quote && b = quote then (s ++ [quote, quote], rest)
    else if a = quote then (s ++ [quote], b :: rest)
    else (s, cs)
  | [a] => if a = quote then (s ++ [quote], []) else (s, cs)
  | [] => (s, cs)

/-- Drop a line feed right after the opening of a block. -/
def dropFirstBreak : List Char → List Char
  | '\n' :: rest => rest
  | cs => cs

/-- A string of any of the four kinds. -/
def string (cs : List Char) : Option (List Char × List Char) :=
  if opensWith "\"\"\"" cs then
    (basicString true (cs.length + 1) (dropFirstBreak (cs.drop 3))).map fun (s, after) => extraQuotes '"' s after
  else if opensWith "'''" cs then
    (literalBlock (dropFirstBreak (cs.drop 3))).map fun (s, after) => extraQuotes '\'' s after
  else match cs with
    | '"' :: rest => basicString false (cs.length + 1) rest
    | '\'' :: rest => literalString rest
    | _ => none

/-!
### Keys
-/

/-- One part of a key: bare or quoted. -/
def keyPart (cs : List Char) : Option (String × List Char) :=
  match cs with
  | '"' :: rest => (basicString false (cs.length + 1) rest).map fun (s, after) => (String.ofList s, after)
  | '\'' :: rest => (literalString rest).map fun (s, after) => (String.ofList s, after)
  | _ =>
    let bare := cs.takeWhile isBareKeyChar
    if bare.isEmpty then none else some (String.ofList bare, cs.dropWhile isBareKeyChar)

/-- A key: parts with dots between them. The fuel is the length of the text. -/
def key : Nat → List Char → Option (List String × List Char)
  | 0, _ => none
  | fuel + 1, cs => do
    let (part, rest) ← keyPart cs
    match skipSpaces rest with
    | '.' :: rest =>
      let (parts, after) ← key fuel (skipSpaces rest)
      return (part :: parts, after)
    | rest => return ([part], rest)

/-!
### Numbers, dates and times
-/

/-- The longest run of digits of a kind, with single underscores between them, and the rest. -/
def digitRun (isDigit : Char → Bool) : List Char → List Char × List Char
  | '_' :: d :: rest =>
    if isDigit d then
      let (ds, after) := digitRun isDigit rest
      (d :: ds, after)
    else ([], '_' :: d :: rest)
  | d :: rest =>
    if isDigit d then
      let (ds, after) := digitRun isDigit rest
      (d :: ds, after)
    else ([], d :: rest)
  | [] => ([], [])

/-- Digits of a kind that do not start with an underscore. -/
def digits? (isDigit : Char → Bool) (cs : List Char) : Option (List Char × List Char) :=
  match cs with
  | d :: _ => if isDigit d then some (digitRun isDigit cs) else none
  | [] => none

/-- An integer behind a mark of its base. -/
def basedInteger (base : Nat) (isDigit : Char → Bool) (cs : List Char) : Option (Value × List Char) := do
  let (ds, after) ← digits? isDigit cs
  let values ← ds.mapM hexDigit?
  let n : Nat := values.foldl (fun n d => n * base + d) 0
  return (.int n, after)

/-- A sign, if there is one. -/
def sign : List Char → Bool × List Char
  | '-' :: rest => (true, rest)
  | '+' :: rest => (false, rest)
  | rest => (false, rest)

/-- A decimal integer or a number with a fraction or an exponent. A leading zero stands alone. -/
def decimalNumber (cs : List Char) : Parsed (Value × List Char) := do
  let (negative, cs) := sign cs
  let (whole, rest) ← match cs with
    | '0' :: rest => .ok (['0'], rest)
    | _ => orMalformed (digits? Char.isDigit cs)
  let (frac, rest) := match rest with
    | '.' :: r => (digits? Char.isDigit r).getD ([], rest)
    | _ => ([], rest)
  let (exp, rest) : Option Int × List Char := match rest with
    | e :: r =>
      if e = 'e' || e = 'E' then
        let (below, r) := sign r
        match digits? Char.isDigit r with
        | some (ds, after) => (some (if below then -(digitsValue ds : Int) else digitsValue ds), after)
        | none => (none, rest)
      else (none, rest)
    | [] => (none, rest)
  if frac.isEmpty && exp.isNone then
    return (.int (← decimalInteger negative whole), rest)
  else
    return (.real (.finite negative (digitsValue (whole ++ frac)) (exp.getD 0 - frac.length)), rest)

/-- A number. Only decimal integers have a greatest length. -/
def number (cs : List Char) : Parsed (Value × List Char) :=
  let based := match cs with
    | '0' :: 'x' :: rest => basedInteger 16 (fun c => (hexDigit? c).isSome) rest
    | '0' :: 'b' :: rest => basedInteger 2 (fun c => c = '0' || c = '1') rest
    | '0' :: 'o' :: rest => basedInteger 8 (fun c => '0' ≤ c && c ≤ '7') rest
    | _ => none
  match based with
  | some found => .ok found
  | none => decimalNumber cs

/-- A number of exactly so many digits between two bounds. -/
def fixedNumber (width low high : Nat) (cs : List Char) : Option (Nat × List Char) :=
  let ds := cs.take width
  let n := digitsValue ds
  if ds.length = width && ds.all Char.isDigit && low ≤ n && n ≤ high then some (n, cs.drop width) else none

/-- The text behind an expected character. -/
def expect (c : Char) : List Char → Option (List Char)
  | d :: rest => if c = d then some rest else none
  | [] => none

/-- A time of day; what follows it. -/
def time (cs : List Char) : Option (List Char) := do
  let (_, cs) ← fixedNumber 2 0 23 cs
  let (_, cs) ← fixedNumber 2 0 59 (← expect ':' cs)
  let (_, cs) ← fixedNumber 2 0 59 (← expect ':' cs)
  match cs with
  | '.' :: d :: rest => if d.isDigit then some (rest.dropWhile Char.isDigit) else some cs
  | _ => some cs

/-- An offset from universal time, if one stands here. -/
def zone (cs : List Char) : List Char :=
  match cs with
  | 'Z' :: rest => rest
  | s :: rest =>
    if s = '+' || s = '-' then
      (do
        let (_, r) ← fixedNumber 2 0 23 rest
        let (_, r) ← fixedNumber 2 0 59 (← expect ':' r)
        return r).getD cs
    else cs
  | [] => cs

/-- Days of a month. -/
def daysIn (year month : Nat) : Nat :=
  if month = 2 then
    if year % 4 = 0 && (year % 100 ≠ 0 || year % 400 = 0) then 29 else 28
  else if [4, 6, 9, 11].contains month then 30
  else 31

/-- A date, with a time and an offset if they follow: whether the day exists, and what comes after. -/
def date (cs : List Char) : Option (Bool × List Char) := do
  let (year, cs) ← fixedNumber 4 0 9999 cs
  let (month, cs) ← fixedNumber 2 1 12 (← expect '-' cs)
  let (day, cs) ← fixedNumber 2 1 31 (← expect '-' cs)
  let isReal := year ≠ 0 && day ≤ daysIn year month
  match cs with
  | c :: rest =>
    if c = 'T' || c = 't' || c = ' ' then
      match time rest with
      | some after => return (isReal, zone after)
      | none => return (isReal, cs)
    else return (isReal, cs)
  | [] => return (isReal, cs)

/-- The words that are values. -/
def words : List (String × Value) :=
  [("true", .bool true), ("false", .bool false)]

/-- The words that are numbers. -/
def numberWords : List (String × Value) :=
  [("inf", .real (.infinite false)), ("nan", .real .notANumber), ("-inf", .real (.infinite true)),
   ("+inf", .real (.infinite false)), ("-nan", .real .notANumber), ("+nan", .real .notANumber)]

/-- One of some words. -/
def oneOfWords (table : List (String × Value)) (cs : List Char) : Option (Value × List Char) :=
  table.findSome? fun (w, v) => if opensWith w cs then some (v, cs.drop w.toList.length) else none

/-- A number or a word that is one. -/
def numberOrWord (cs : List Char) : Parsed (Value × List Char) :=
  match number cs with
  | .error .malformed => orMalformed (oneOfWords numberWords cs)
  | r => r

/-- A value that is neither a list nor a table. -/
def scalar (cs : List Char) : Parsed (Value × List Char) :=
  if opensWith "\"" cs || opensWith "'" cs then
    (orMalformed (string cs)).map fun (s, after) => (.text (String.ofList s), after)
  else
    match oneOfWords words cs with
    | some found => .ok found
    | none =>
      match date cs with
      | some (true, after) => .ok (.moment, after)
      | some (false, _) => .error .malformed
      | none =>
        match time cs with
        | some after => .ok (.moment, after)
        | none => numberOrWord cs

/-!
### Lists and tables in one piece
-/

/-- Write a value under a dotted key of a table in one piece. `closed` tells of the values that may not be written
    into because they came in one piece themselves. -/
def putInline (closed : List (List String)) (path : List String) (v : Value) :
    List String → List (String × Value) → Option (List (String × Value))
  | [], _ => none
  | [last], entries => if (Entries.get? entries last).isSome then none else some (Entries.put entries last v)
  | part :: rest, entries =>
    let here := path ++ [part]
    if closed.contains here then none
    else match Entries.get? entries part with
      | none => (putInline closed here v rest []).map fun inner => Entries.put entries part (.table inner)
      | some (.table inner) =>
        (putInline closed here v rest inner).map fun inner => Entries.put entries part (.table inner)
      | some _ => none

mutual

/-- A value. The fuel bounds nesting and number of parts; the length of the text is enough. -/
def value : Nat → List Char → Parsed (Value × List Char)
  | 0, _ => .error .malformed
  | fuel + 1, cs =>
    match cs with
    | '[' :: rest => do
      match ← orMalformed (skipFiller rest.length rest) with
      | ']' :: after => return (.list [], after)
      | rest =>
        let (vs, after) ← items fuel rest
        return (.list vs, after)
    | '\x7b' :: rest =>
      match skipSpaces rest with
      | '\x7d' :: after => return (.table [], after)
      | rest => do
        let (entries, after) ← inlineEntries fuel [] [] rest
        return (.table entries, after)
    | _ => scalar cs

/-- The items of a list up to its closing bracket; a comma may stand before it. -/
def items : Nat → List Char → Parsed (List Value × List Char)
  | 0, _ => .error .malformed
  | fuel + 1, cs => do
    let (v, rest) ← value fuel cs
    match ← orMalformed (skipFiller rest.length rest) with
    | ']' :: after => return ([v], after)
    | ',' :: rest =>
      match ← orMalformed (skipFiller rest.length rest) with
      | ']' :: after => return ([v], after)
      | rest =>
        let (vs, after) ← items fuel rest
        return (v :: vs, after)
    | _ => .error .malformed

/-- The entries of a table in one piece up to its closing brace, written into those already read. -/
def inlineEntries : Nat → List (List String) → List (String × Value) → List Char →
    Parsed (List (String × Value) × List Char)
  | 0, _, _, _ => .error .malformed
  | fuel + 1, closed, read, cs => do
    let (path, rest) ← orMalformed (key (cs.length + 1) cs)
    let rest ← orMalformed (expect '=' rest)
    let (v, rest) ← value fuel (skipSpaces rest)
    let read ← orMalformed (putInline closed [] v path read)
    let closed := match v with
      | .table _ | .list _ => path :: closed
      | _ => closed
    match skipSpaces rest with
    | '\x7d' :: after => return (read, after)
    | ',' :: rest => inlineEntries fuel closed read (skipSpaces rest)
    | _ => .error .malformed

end

/-!
### Documents
-/

/-- How a table came to be. -/
inductive Origin where
  /-- By a header that goes on below it; it may still be opened. -/
  | implied
  /-- By dotted keys of the section being read; more of them may write into it. -/
  | dotted
  /-- By its own header, or by dotted keys of an earlier section; it is complete but for tables below it. -/
  | opened
deriving DecidableEq, Repr, Inhabited

/-- A part of a document being read. -/
inductive Item where
  /-- A value in one piece. -/
  | closed (v : Value)
  | table (origin : Origin) (entries : List (String × Item))
  /-- A list of tables, the last one first. -/
  | tables (elements : List (List (String × Item)))
deriving Inhabited

/-- The entries of a table being read. -/
abbrev Items := List (String × Item)

mutual

/-- End of a section: what dotted keys wrote is complete. -/
def Item.settle : Item → Item
  | .closed v => .closed v
  | .table origin entries => .table (if origin = .dotted then .opened else origin) (settleAll entries)
  | .tables elements => .tables (settleEach elements)

/-- Settle the entries of a table. -/
def settleAll : List (String × Item) → List (String × Item)
  | [] => []
  | (k, i) :: rest => (k, i.settle) :: settleAll rest

/-- Settle the tables of a list. -/
def settleEach : List (List (String × Item)) → List (List (String × Item))
  | [] => []
  | t :: rest => settleAll t :: settleEach rest

end

mutual

/-- What was read, as a value. -/
def Item.toValue : Item → Value
  | .closed v => v
  | .table _ entries => .table (valuesOf entries)
  | .tables elements => .list (tablesOf elements).reverse

/-- The entries of a table as values. -/
def valuesOf : List (String × Item) → List (String × Value)
  | [] => []
  | (k, i) :: rest => (k, i.toValue) :: valuesOf rest

/-- The tables of a list as values. -/
def tablesOf : List (List (String × Item)) → List Value
  | [] => []
  | t :: rest => .table (valuesOf t) :: tablesOf rest

end

/-- Change the table at a path, making the tables on the way; of a list of tables the last is meant. -/
def changeAt (f : Items → Option Items) : List String → Items → Option Items
  | [], entries => f entries
  | part :: rest, entries =>
    match Entries.get? entries part with
    | none => (changeAt f rest []).map fun inner => Entries.put entries part (.table .implied inner)
    | some (.table origin inner) =>
      (changeAt f rest inner).map fun inner => Entries.put entries part (.table origin inner)
    | some (.tables (last :: others)) =>
      (changeAt f rest last).map fun last => Entries.put entries part (.tables (last :: others))
    | some _ => none

/-- Open a table by its header. -/
def openTable (path : List String) (document : Items) : Option Items :=
  match path.getLast? with
  | none => none
  | some name =>
    changeAt (fun entries =>
      match Entries.get? entries name with
      | none => some (Entries.put entries name (.table .opened []))
      | some (.table .implied inner) => some (Entries.put entries name (.table .opened inner))
      | some _ => none) path.dropLast document

/-- Append a table to a list of tables by its header. -/
def appendTable (path : List String) (document : Items) : Option Items :=
  match path.getLast? with
  | none => none
  | some name =>
    changeAt (fun entries =>
      match Entries.get? entries name with
      | none => some (Entries.put entries name (.tables [[]]))
      | some (.tables elements) => some (Entries.put entries name (.tables ([] :: elements)))
      | some _ => none) path.dropLast document

/-- Write a value under a dotted key of a table. -/
def putDotted (v : Value) : List String → Items → Option Items
  | [], _ => none
  | [last], entries =>
    if (Entries.get? entries last).isSome then none else some (Entries.put entries last (.closed v))
  | part :: rest, entries =>
    match Entries.get? entries part with
    | none => (putDotted v rest []).map fun inner => Entries.put entries part (.table .dotted inner)
    | some (.table .opened _) => none
    | some (.table _ inner) =>
      (putDotted v rest inner).map fun inner => Entries.put entries part (.table .dotted inner)
    | some _ => none

/-- A header after its opening bracket or brackets, up to the closing ones. -/
def header (closing : String) (cs : List Char) : Option (List String × List Char) := do
  let (path, rest) ← key (cs.length + 1) (skipSpaces cs)
  if opensWith closing rest then some (path, rest.drop closing.toList.length) else none

/-- One statement: a header, or a value under a key of the section `current`. Gives the section after it, the
    document and the rest of the text. -/
def statement (current : List String) (document : Items) (cs : List Char) :
    Parsed (List String × Items × List Char) :=
  match cs with
  | '[' :: '[' :: rest => do
    let (path, rest) ← orMalformed (header "]]" rest)
    return (path, ← orMalformed (appendTable path (settleAll document)), rest)
  | '[' :: rest => do
    let (path, rest) ← orMalformed (header "]" rest)
    return (path, ← orMalformed (openTable path (settleAll document)), rest)
  | _ => do
    let (path, rest) ← orMalformed (key (cs.length + 1) cs)
    let rest ← orMalformed (expect '=' rest)
    let (v, rest) ← value (rest.length + 1) (skipSpaces rest)
    return (current, ← orMalformed (changeAt (putDotted v path) current document), rest)

/-- The statements of a document, line by line. The fuel is the length of the text. -/
def statements : Nat → List String → Items → List Char → Parsed Items
  | 0, _, document, _ => .ok document
  | fuel + 1, current, document, cs =>
    match skipSpaces cs with
    | [] => .ok document
    | '\n' :: rest => statements fuel current document rest
    | cs => do
      let (current, document, rest) ←
        if cs.head? = some '#' then .ok (current, document, cs) else statement current document cs
      match ← orMalformed (skipComment (skipSpaces rest)) with
      | [] => .ok document
      | '\n' :: rest => statements fuel current document rest
      | _ => .error .malformed

end Toml

/-- Drop the carriage return of each line break of two characters. -/
def Toml.unifyPairs : List Char → List Char
  | '\r' :: '\n' :: rest => '\n' :: Toml.unifyPairs rest
  | c :: rest => c :: Toml.unifyPairs rest
  | [] => []

/-- Read a TOML document. -/
def parseToml (text : String) : Parsed RawTable :=
  let cs := Toml.unifyPairs text.toList
  (Toml.statements (cs.length + 1) [] [] cs).map Toml.valuesOf

end Outline.Settings
