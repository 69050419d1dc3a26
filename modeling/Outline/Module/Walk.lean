/-
Module: Outline.Module.Walk
Layer: Module
Purpose: Computations that walk the statements of a module. They thread two tables, the names imported so far and
  the specifiers resolved so far, and give out declarations, export marks and events. When a step fails,
  everything given out before it stays, and so do the tables.
Main exports: Links, LocalExport, Outcome, Walk, Walk.emit, Walk.exportLater, Walk.note, Walk.reading,
  Walk.resolve, Walk.bindName, Walk.absorb, Walk.within
-/
import Outline.Declaration.Site

namespace Outline

open Specifier (Resolved Resolver)

/-- The tables that all scopes of a file share. -/
structure Links where
  /-- Imported names, with what they are bound to. -/
  imports : Entries Resolved := []
  /-- Specifiers, with what they refer to. -/
  resolved : Entries Resolved := []
deriving DecidableEq, Repr, Inhabited

/-- A declared name that an export clause of the same scope exports, with the name it is exported under. -/
structure LocalExport where
  localName : String
  exportedName : String
deriving DecidableEq, Repr, Inhabited

/-- What a walk leaves behind. -/
structure Outcome (α : Type) where
  links : Links
  declarations : List Declaration := []
  exports : List LocalExport := []
  events : List Event := []
  result : Except Undecodable α

/-- A walk from given tables. -/
def Walk (α : Type) := Links → Outcome α

namespace Walk

variable {α β : Type}

/-- A walk that does nothing. -/
protected def pure (a : α) : Walk α := fun links => { links, result := .ok a }

/-- One walk after another; a failure of the first ends both. -/
protected def bind (x : Walk α) (f : α → Walk β) : Walk β := fun links =>
  let first := x links
  match first.result with
  | .error e => { first with result := .error e }
  | .ok a =>
    let second := f a first.links
    { links := second.links
      declarations := first.declarations ++ second.declarations
      exports := first.exports ++ second.exports
      events := first.events ++ second.events
      result := second.result }

instance : Monad Walk where
  pure := Walk.pure
  bind := Walk.bind

/-- Give out a declaration. -/
def emit (d : Declaration) : Walk Unit := fun links => { links, declarations := [d], result := .ok () }

/-- Mark a declared name as exported. -/
def exportLater (e : LocalExport) : Walk Unit := fun links => { links, exports := [e], result := .ok () }

/-- Log an event. -/
def note (e : Event) : Walk Unit := fun links => { links, events := [e], result := .ok () }

/-- Read something, given the names imported so far. -/
def reading (x : Entries Resolved → Reading α) : Walk α := fun links =>
  { links, events := (x links.imports).events, result := (x links.imports).result }

/-- What a name is bound to by an import. -/
def imported? (name : String) : Walk (Option Resolved) := fun links =>
  { links, result := .ok (Entries.get? links.imports name) }

/-- What a specifier refers to: as the table says, else by text alone, which the table then keeps. -/
def resolve (resolver : Resolver) (file spec : String) : Walk Resolved := fun links =>
  match Entries.get? links.resolved spec with
  | some r => { links, result := .ok r }
  | none =>
    let r := resolver.resolve file spec
    { links := { links with resolved := Entries.put links.resolved spec r }, result := .ok r }

/-- Bind an imported name; the empty name is not bound. -/
def bindName (name : String) (r : Resolved) : Walk Unit := fun links =>
  if name = "" then { links, result := .ok () }
  else { links := { links with imports := Entries.put links.imports name r }, result := .ok () }

/-- On failure log an event and go on, keeping what was done. -/
def absorb (e : Event) (x : Walk Unit) : Walk Unit := fun links =>
  let o := x links
  match o.result with
  | .ok _ => o
  | .error _ => { o with events := o.events ++ [e], result := .ok () }

/-- Walk the statements of an inner scope: its declarations, with `finish` applied to them and its export marks,
    are the value, and nothing of them is given out. -/
def within (finish : List LocalExport → List Declaration → List Declaration) (x : Walk Unit) :
    Walk (List Declaration) := fun links =>
  let o := x links
  { links := o.links
    events := o.events
    result := o.result.map fun _ => finish o.exports o.declarations }

/-- Walk the elements of a list one after the other. -/
def forEach (f : α → Walk Unit) : List α → Walk Unit
  | [] => pure ()
  | a :: as => do
    f a
    forEach f as

end Walk

end Outline
