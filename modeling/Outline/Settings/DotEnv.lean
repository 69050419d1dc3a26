/-
Module: Outline.Settings.DotEnv
Layer: Settings
Purpose: Reading files of variables: one `KEY=value` per line, with an optional `export`, quotes and comments. A line
  that cannot be read is passed over, the last of several values of a key wins, and `${NAME}` in a value stands
  for the value of another variable. A byte order mark may stand at the beginning of the file.
Main exports: parseDotEnv
-/
import Outline.Entries
import Outline.Text.Blank

namespace Outline.Settings.DotEnv

/-- Blanks other than line breaks. -/
def isInlineBlank (c : Char) : Bool := Text.isBlank c && c ≠ '\r' && c ≠ '\n'

/-- Is the character a line feed or a carriage return? -/
def isBreak (c : Char) : Bool := c = '\r' || c = '\n'

/-- Drop a byte order mark at the beginning of a file; it is no part of the first key. -/
def skipMark : List Char → List Char
  | [] => []
  | c :: rest => if c = Char.ofNat 0xFEFF then rest else c :: rest

/-- Drop an `export` in front of a key; blanks must follow it. -/
def skipExport (cs : List Char) : List Char :=
  if "export".toList.isPrefixOf cs then
    let rest := cs.drop 6
    if rest.head?.any isInlineBlank then rest.dropWhile isInlineBlank else cs
  else cs

/-- A key and what follows it. A comment has none; a key may stand between single quotes. -/
def key (cs : List Char) : Option (Option (List Char) × List Char) :=
  match cs with
  | '#' :: _ => some (none, cs)
  | '\'' :: rest =>
    let body := rest.takeWhile (· ≠ '\'')
    match rest.dropWhile (· ≠ '\'') with
    | _ :: after => if body.isEmpty then none else some (some body, after)
    | [] => none
  | _ =>
    let stops (c : Char) : Bool := c = '=' || c = '#' || Text.isBlank c
    let bare := cs.takeWhile fun c => !stops c
    if bare.isEmpty then none else some (some bare, cs.dropWhile fun c => !stops c)

/-- A quoted value after its opening quote, as written, and what follows. It ends at the first quote without a
    backslash before it; when all quotes have one, at the last of them. -/
def quotedRaw (quote : Char) : List Char → Option (List Char × List Char)
  | [] => none
  | '\\' :: c :: rest =>
    if c = quote then
      match quotedRaw quote rest with
      | some (s, after) => some ('\\' :: c :: s, after)
      | none => some (['\\'], rest)
    else (quotedRaw quote (c :: rest)).map fun (s, after) => ('\\' :: s, after)
  | c :: rest =>
    if c = quote then some ([], rest)
    else (quotedRaw quote rest).map fun (s, after) => (c :: s, after)

/-- The character that an escape stands for; single quotes know two escapes only. -/
def escape? (quote c : Char) : Option Char :=
  if c = '\\' || c = '\'' then some c
  else if quote = '\'' then none
  else match c with
    | '"' => some '"'
    | 'a' => some (Char.ofNat 7)
    | 'b' => some (Char.ofNat 8)
    | 'f' => some (Char.ofNat 12)
    | 'n' => some '\n'
    | 'r' => some '\r'
    | 't' => some '\t'
    | 'v' => some (Char.ofNat 11)
    | _ => none

/-- Resolve the escapes of a quoted value. -/
def unescape (quote : Char) : List Char → List Char
  | '\\' :: c :: rest =>
    match escape? quote c with
    | some d => d :: unescape quote rest
    | none => '\\' :: unescape quote (c :: rest)
  | c :: rest => c :: unescape quote rest
  | [] => []

/-- A value without quotes up to a comment, which has blanks before it. -/
def beforeComment : List Char → List Char
  | [] => []
  | c :: rest =>
    if Text.isBlank c && (rest.dropWhile Text.isBlank).head? = some '#' then []
    else c :: beforeComment rest

/-- A value and what follows it. -/
def value (cs : List Char) : Option (List Char × List Char) :=
  match cs with
  | [] => some ([], cs)
  | c :: rest =>
    if c = '\'' || c = '"' then (quotedRaw c rest).map fun (s, after) => (unescape c s, after)
    else if isBreak c then some ([], cs)
    else
      some (Text.dropEndWhile Text.isBlank (beforeComment (cs.takeWhile fun c => !isBreak c)),
        cs.dropWhile fun c => !isBreak c)

/-- Drop a comment, if one stands here after blanks. -/
def skipComment (cs : List Char) : List Char :=
  match cs.dropWhile isInlineBlank with
  | '#' :: rest => rest.dropWhile fun c => !isBreak c
  | _ => cs

/-- The end of a line; what follows it. -/
def endOfLine (cs : List Char) : Option (List Char) :=
  match cs.dropWhile isInlineBlank with
  | [] => some []
  | '\r' :: '\n' :: rest => some rest
  | c :: rest => if isBreak c then some rest else none

/-- The rest of a line that cannot be read is dropped. -/
def dropLine (cs : List Char) : List Char :=
  match cs.dropWhile fun c => !isBreak c with
  | _ :: rest => rest
  | [] => []

/-- A key with its value, which may be absent. -/
abbrev Binding := String × Option String

/-- What follows a key: its value, a comment and the end of the line. An error gives the place where the rest of
    the line is to be dropped. -/
def afterKey (cs : List Char) : Except (List Char) (Option (List Char) × List Char) :=
  let cs := cs.dropWhile isInlineBlank
  let finish (v : Option (List Char)) (rest : List Char) : Except (List Char) (Option (List Char) × List Char) :=
    let rest := skipComment rest
    match endOfLine rest with
    | some after => .ok (v, after)
    | none => .error rest
  match cs with
  | '=' :: rest =>
    let rest := rest.dropWhile isInlineBlank
    match value rest with
    | some (v, rest) => finish (some v) rest
    | none => .error rest
  | _ => finish none cs

/-- The bindings of a file in order. The fuel is the length of the text. -/
def bindings : Nat → List Char → List Binding
  | 0, _ => []
  | fuel + 1, cs =>
    match cs.dropWhile Text.isBlank with
    | [] => []
    | cs =>
      let cs := skipExport cs
      match key cs with
      | none => bindings fuel (dropLine cs)
      | some (name, rest) =>
        match afterKey rest with
        | .error rest => bindings fuel (dropLine rest)
        | .ok (v, rest) =>
          match name with
          | some name => (String.ofList name, v.map String.ofList) :: bindings fuel rest
          | none => bindings fuel rest

/-!
### References to other variables
-/

/-- The inside of a reference after its opening: the name, the default and what follows the closing brace. -/
def reference? (cs : List Char) : Option (List Char × List Char × List Char) :=
  let name := cs.takeWhile fun c => c ≠ '\x7d' && c ≠ ':'
  match cs.dropWhile fun c => c ≠ '\x7d' && c ≠ ':' with
  | '\x7d' :: after => some (name, [], after)
  | ':' :: '-' :: rest =>
    match rest.dropWhile (· ≠ '\x7d') with
    | _ :: after => some (name, rest.takeWhile (· ≠ '\x7d'), after)
    | [] => none
  | _ => none

/-- A value with its references replaced; a name without a value gives its default. The fuel is the length of the
    text. -/
def substitute (known : Entries (Option String)) : Nat → List Char → List Char
  | 0, cs => cs
  | _ + 1, [] => []
  | fuel + 1, '$' :: '\x7b' :: rest =>
    match reference? rest with
    | some (name, fallback, after) =>
      (match Entries.get? known (String.ofList name) with
        | some v => (v.getD "").toList
        | none => fallback) ++ substitute known fuel after
    | none => '$' :: substitute known fuel ('\x7b' :: rest)
  | fuel + 1, c :: rest => c :: substitute known fuel rest

/-- Replace the references of the bindings one after the other; earlier bindings count before the environment. -/
def resolve (environment : Entries String) : List Binding → Entries (Option String) → Entries (Option String)
  | [], done => done
  | (name, v) :: rest, done =>
    let known := Entries.merge (environment.map fun (k, v) => (k, some v)) done
    let resolved := v.map fun s => String.ofList (substitute known (s.toList.length + 1) s.toList)
    resolve environment rest (Entries.put done name resolved)

end DotEnv

/-- Read a file of variables; the environment is consulted for references. -/
def parseDotEnv (environment : Entries String) (text : String) : Entries (Option String) :=
  let cs := DotEnv.skipMark (Text.unifyBreaks text.toList)
  DotEnv.resolve environment (DotEnv.bindings (cs.length + 1) cs) []

end Outline.Settings
