/-
Module: Outline.Ignore.Rules
Layer: Ignore
Purpose: Ignore files: the rules they hold, how those of a nested file are tied to its directory, and which paths a
  list of rules ignores. Of the rules that match a path the last decides.
Main exports: ignored, ignoresPath, patternLines, scopePattern, scopeLine, parseRules, parseFile, combineFiles
-/
import Outline.Disk.FileTree
import Outline.Ignore.Pattern
import Outline.Text.Utf8

namespace Outline.Ignore

/-- Does the last rule that matches a path ignore it? -/
def ignored (rules : List Rule) (path : List Char) : Bool :=
  match rules.reverse.find? fun r => r.matcher.accepts path with
  | some r => !r.negated
  | none => false

/-- Is a path, given in any spelling, ignored? One slash in front does not count. -/
def ignoresPath (rules : List Rule) (path : String) : Bool :=
  let plain := (normalizePath path).toList
  ignored rules (if plain.head? = some '/' then plain.drop 1 else plain)

/-- The lines of an ignore file that state a pattern: not blank and no comment. -/
def patternLines (content : List Char) : List String :=
  ((Text.lines content).map fun l => Text.dropEndWhile Text.isBlank l).filterMap fun l =>
    if l.isEmpty || (l.dropWhile Text.isBlank).head? = some '#' then none else some (String.ofList l)

/-- Change a pattern of a nested file so that it is about the directory `scopePath`, which ends in a slash: a
    pattern tied to its directory, or with a slash inside, is put below it, and any other is looked for in all
    directories below it. -/
def scopePattern (pattern scopePath : String) : String :=
  let cs := pattern.toList.map fun c => if c = '\\' then '/' else c
  if cs.head? = some '/' then scopePath ++ String.ofList (cs.dropWhile (· = '/'))
  else if (Text.dropEndWhile (· = '/') cs).contains '/' then scopePath ++ String.ofList cs
  else scopePath ++ "**/" ++ String.ofList cs

/-- Change a line of a nested file; the mark of negation stays in front. -/
def scopeLine (scopePath line : String) : String :=
  if Text.startsWith line "!" then "!" ++ scopePattern (Text.dropFirst 1 line) scopePath
  else scopePattern line scopePath

/-- The rules of some patterns, or the first error. -/
def parseRules (lines : List String) : Except PatternError (List Rule) := lines.mapM Rule.parse

/-- Lines of an ignore file in a directory, given by its components below the scanned one. -/
def scopedLines (directory : List String) (content : List Char) : List String :=
  if directory.isEmpty then patternLines content
  else (patternLines content).map (scopeLine (Text.joinWith "/" directory ++ "/"))

/-- The rules of an ignore file in a directory below the scanned one. -/
def parseFile (directory : List String) (content : ByteArray) : Except PatternError (List Rule) :=
  parseRules (scopedLines directory (Text.Utf8.decodeReplacing content.data.toList))

/-- An ignore file: its directory below the scanned one, and its content. -/
structure IgnoreFile where
  directory : List String
  content : ByteArray

/-- The rules of some ignore files one after the other. A malformed file is left out; a reversed range ends
    everything. -/
def combineFiles : List IgnoreFile → Except PatternError (List Rule)
  | [] => .ok []
  | f :: rest =>
    match parseFile f.directory f.content with
    | .ok rules => do return rules ++ (← combineFiles rest)
    | .error (.malformed _) => combineFiles rest
    | .error .reversedRange => .error .reversedRange

end Outline.Ignore
