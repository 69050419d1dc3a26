/-
Module: Outline.Specifier.Alias
Layer: Specifier
Purpose: Alias tables. A pattern that ends in `/*` stands for everything below its stem and replaces the stem
  by its target; any other pattern stands for itself alone. The first alias of the table that applies wins.
Main exports: Aliases, aliasMatches, redirectBy?, redirect?, isExternal, packageName, parseAliases
-/
import Outline.Entries
import Outline.Text.Blank
import Outline.Text.Quoted

namespace Outline.Specifier

/-- An alias table: patterns with their targets, in order. -/
abbrev Aliases := Entries String

/-- Does a pattern apply to a specifier? -/
def aliasMatches (pattern spec : String) : Bool :=
  if Text.endsWith pattern "/*" then Text.startsWith spec (Text.dropLast 2 pattern ++ "/")
  else spec == pattern

/-- Drop every `./` in front. -/
def dropHere : List Char → List Char
  | '.' :: '/' :: rest => dropHere rest
  | cs => cs

/-- A target without `./` in front. -/
def plainTarget (target : String) : String := String.ofList (dropHere target.toList)

/-- Directory that a target means for a `/*` pattern: its own `/*`, or its slashes at the end, are dropped. -/
def targetDirectory (target : String) : String :=
  plainTarget <|
    if Text.endsWith target "/*" then Text.dropLast 2 target
    else String.ofList (Text.dropEndWhile (· = '/') target.toList)

/-- Path to which one alias leads a specifier, if it applies. -/
def redirectBy? (pattern target spec : String) : Option String :=
  if Text.endsWith pattern "/*" then
    let stem := Text.dropLast 2 pattern ++ "/"
    if Text.startsWith spec stem then
      let rest := Text.dropFirst stem.toList.length spec
      let directory := targetDirectory target
      some (if directory = "" || directory = "." then rest else directory ++ "/" ++ rest)
    else none
  else if spec = pattern then some (plainTarget target)
  else none

/-- Path to which the first alias that applies leads a specifier. -/
def redirect? (aliases : Aliases) (spec : String) : Option String :=
  aliases.findSome? fun (pattern, target) => redirectBy? pattern target spec

/-- Does a specifier name a package, being neither a path nor an alias? -/
def isExternal (aliases : Aliases) (spec : String) : Bool :=
  !(Text.startsWith spec "." || Text.startsWith spec "/") &&
    !(aliases.any fun (pattern, _) => aliasMatches pattern spec)

/-- Package part of a specifier: its first segment, or the first two when it starts with `@`. -/
def packageName (spec : String) : String :=
  match Text.split '/' spec with
  | scope :: name :: _ =>
    if Text.startsWith spec "@" then scope ++ "/" ++ name
    else if scope = "" then spec else scope
  | [only] => if only = "" then spec else only
  | [] => spec

/-- A malformed entry of an alias table. -/
structure AliasError where
  entry : String
deriving DecidableEq, Repr, Inhabited

/-- Wording of an alias error. -/
def AliasError.message (e : AliasError) : String :=
  "Invalid alias " ++ Text.quoted e.entry ++ ", expected PATTERN=TARGET"

/-- Pattern and target of one `PATTERN=TARGET` entry. -/
def parseAlias (entry : String) : Except AliasError (String × String) :=
  let cs := entry.toList
  let pattern := Text.trim (String.ofList (cs.takeWhile (· ≠ '=')))
  let target := Text.trim (String.ofList ((cs.dropWhile (· ≠ '=')).drop 1))
  if !cs.contains '=' || pattern = "" || target = "" then .error ⟨entry⟩
  else .ok (pattern, target)

/-- The alias table of `PATTERN=TARGET` entries, or the first malformed one. -/
def parseAliases (entries : List String) : Except AliasError Aliases := do
  return Entries.ofPairs (← entries.mapM parseAlias)

end Outline.Specifier
