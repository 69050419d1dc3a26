/-
Module: Outline.Dependency
Layer: Declaration
Purpose: Which imported names a piece of code uses, grouped by the module they come from. The code is taken as
  characters: a name is used where it stands as a whole run of ASCII word characters.
Main exports: Dependency, isWordChar, runs, identifiers, usedNames, findDependencies
-/
import Outline.Entries
import Outline.Specifier.Resolver

namespace Outline

open Specifier (Resolved)

/-- The imported names that come from one module. -/
inductive Dependency where
  | internal (path : String) (names : List String)
  | external (package specifier : String) (names : List String)
deriving DecidableEq, Repr, Inhabited

/-- The names of a dependency. -/
def Dependency.names : Dependency → List String
  | internal _ names => names
  | external _ _ names => names

/-- ASCII letters, digits, underscore and dollar sign. -/
def isWordChar (c : Char) : Bool := c.isAlphanum || c = '_' || c = '$'

/-- The maximal runs of elements that satisfy `p`. -/
def runs {α : Type} (p : α → Bool) : List α → List (List α)
  | [] => []
  | c :: cs => if p c then (c :: cs.takeWhile p) :: runs p (cs.dropWhile p) else runs p cs
termination_by cs => cs.length
decreasing_by
  · have := (cs.dropWhile_sublist p).length_le
    simp only [List.length_cons]; omega
  · simp

/-- The identifiers of a piece of code: maximal runs of word characters that do not start with a digit. -/
def identifiers (code : String) : List String :=
  ((runs isWordChar code.toList).filter fun r => !(r.head?.any Char.isDigit)).map String.ofList

/-- The distinct imported names in a piece of code, in the order of their first use, with what they are bound
    to. -/
def usedNames (imports : Entries Resolved) (code : String) : List (String × Resolved) :=
  (distinct (identifiers code)).filterMap fun name => (Entries.get? imports name).map (name, ·)

/-- Names from one module, and the specifier under which the first of them came. -/
structure DependencyGroup where
  isExternal : Bool
  source : String
  specifier : String
  names : List String
deriving DecidableEq, Repr, Inhabited

/-- Add a name to the group of its module, or open a group at the end. -/
def addToGroup (name : String) (b : Resolved) : List DependencyGroup → List DependencyGroup
  | [] => [⟨b.isExternal, b.source, b.specifier, [name]⟩]
  | g :: rest =>
    if g.isExternal = b.isExternal ∧ g.source = b.source then { g with names := g.names ++ [name] } :: rest
    else g :: addToGroup name b rest

/-- The dependency that a group stands for. -/
def DependencyGroup.dependency (g : DependencyGroup) : Dependency :=
  if g.isExternal then .external (Specifier.packageName g.specifier) g.specifier g.names
  else .internal g.source g.names

/-- The imported names that a piece of code uses, by module, modules and names in the order of first use. -/
def findDependencies (imports : Entries Resolved) (code : String) : List Dependency :=
  ((usedNames imports code).foldl (fun groups (name, b) => addToGroup name b groups) []).map
    DependencyGroup.dependency

end Outline
