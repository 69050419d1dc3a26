/-
Module: Outline.Module.Extract
Layer: Module
Purpose: The outline of one file from its text and its syntax tree: the tree is accepted, the specifiers it
  mentions are resolved, by text alone or through a probe, and its statements are walked.
Main exports: Extraction, outlineTree, extract, extractProbing
-/
import Outline.Module.Statement
import Outline.Tree.Fault

namespace Outline

open Specifier (Aliases Probe Resolved Resolver SearchOptions)

/-- What became of a file: the events logged, and its declarations or the reason why there are none. -/
structure Extraction where
  events : List Event
  result : Except Failure (List Declaration)

/-- Walk a whole file with given resolutions. -/
def outlineTree (resolver : Resolver) (src : Source) (path : String) (root : Node) : Walk (List Declaration) :=
  processScope { source := src, path, resolver } root

/-- The specifiers of an acceptable tree, or the reason why it is not acceptable. -/
def acceptedSpecifiers (src : Source) (root : Node) : Except Failure (List String) := do
  checkTree src root
  match collectSpecifiers src root with
  | .ok specs => return specs
  | .error span => throw (.undecodable span)

/-- Walk an accepted file with a table of resolutions and log its outline. -/
def extractFrom (resolver : Resolver) (src : Source) (path : String) (root : Node) (table : Entries Resolved) :
    Extraction :=
  let o := outlineTree resolver src path root { resolved := table }
  match o.result with
  | .ok ds => { events := o.events ++ [.outlined path ds.length], result := .ok ds }
  | .error span => { events := o.events, result := .error (.undecodable span) }

/-- Outline of a file, with its specifiers resolved by text alone. -/
def extract (src : Source) (path : String) (root : Node) (aliases : Aliases) : Extraction :=
  match acceptedSpecifiers src root with
  | .error e => { events := [], result := .error e }
  | .ok specs =>
    let resolver : Resolver := { aliases }
    extractFrom resolver src path root (resolver.table path specs)

/-- Outline of a file, with its specifiers confirmed by a probe, and the paths asked for. -/
def extractProbing (src : Source) (path : String) (root : Node) (aliases : Aliases) (options : SearchOptions)
    (probe : Probe) : Extraction × List String :=
  match acceptedSpecifiers src root with
  | .error e => ({ events := [], result := .error e }, [])
  | .ok specs =>
    let resolver : Resolver := { aliases, options }
    let inquiry := resolver.tableProbing (some probe) path specs
    match inquiry.result with
    | .error why => ({ events := [], result := .error (.interrupted why) }, inquiry.asked)
    | .ok table => (extractFrom resolver src path root table, inquiry.asked)

end Outline
