/-
Module: Outline.Specifier.Resolver
Layer: Specifier
Purpose: What a specifier refers to: a package, or a path of the project. Resolution is by text alone, or is
  confirmed by a probe; a miss keeps the best guess, and an interruption of the probe is passed on.
Main exports: Resolved, Resolver, resolveInternal, Resolver.resolve, Resolver.resolveProbing, Resolver.table,
  Resolver.tableProbing
-/
import Outline.Specifier.Alias
import Outline.Specifier.Relative
import Outline.Specifier.Search

namespace Outline.Specifier

/-- What a specifier refers to. -/
structure Resolved where
  /-- The specifier as written. -/
  specifier : String
  /-- The path of an internal specifier, else the specifier. -/
  source : String
  /-- Does it name a package? -/
  isExternal : Bool
deriving DecidableEq, Repr, Inhabited

/-- Best-guess path of a specifier that names no package. -/
def resolveInternal (aliases : Aliases) (file spec : String) : String :=
  match redirect? aliases spec with
  | some path => path
  | none => if Text.startsWith spec "." then resolveRelative file spec else spec

/-- How the specifiers of a file are resolved. -/
structure Resolver where
  aliases : Aliases := []
  options : SearchOptions := {}

namespace Resolver

/-- Resolution by text alone. -/
def resolve (r : Resolver) (file spec : String) : Resolved :=
  let external := isExternal r.aliases spec
  { specifier := spec
    source := if external then spec else resolveInternal r.aliases file spec
    isExternal := external }

/-- Resolution confirmed by a probe, if there is one. -/
def resolveProbing (r : Resolver) (probe : Option Probe) (file spec : String) : Inquiry Resolved :=
  if isExternal r.aliases spec then return { specifier := spec, source := spec, isExternal := true }
  else do
    let guess := resolveInternal r.aliases file spec
    match probe with
    | none => return { specifier := spec, source := guess, isExternal := false }
    | some probe =>
      let found ← searchFile r.options probe guess
      return { specifier := spec, source := found.getD guess, isExternal := false }

/-- Resolutions of the distinct specifiers of a list, by text alone. -/
def table (r : Resolver) (file : String) (specs : List String) : Entries Resolved :=
  (distinct specs).map fun spec => (spec, r.resolve file spec)

/-- Resolutions of the distinct specifiers of a list, confirmed by a probe one after the other. -/
def tableProbing (r : Resolver) (probe : Option Probe) (file : String) (specs : List String) :
    Inquiry (Entries Resolved) :=
  (distinct specs).mapM fun spec => do return (spec, ← r.resolveProbing probe file spec)

end Resolver

end Outline.Specifier
