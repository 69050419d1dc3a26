/-
Module: Outline.Tree.Json
Layer: Tree
Purpose: Syntax trees written as JSON. A node is the list of its kind, start, end, flags, field and children;
  the flags are 1 for named, 2 for missing and 4 for an error, added up.
Main exports: Node.ofJson?
-/
import Outline.Json.Value
import Outline.Tree.Node

namespace Outline.Node

/-- Name of a field, or null. -/
def fieldOfJson? : Json → Option (Option String)
  | .null => some none
  | .text name => some (some name)
  | _ => none

mutual

/-- Node that a JSON document describes. -/
def ofJson? : Json → Option Node
  | .list [.text kind, .int start, .int stop, .int flags, fieldName, .list children] => do
    let field ← fieldOfJson? fieldName
    let children ← allOfJson? children
    return {
      kind
      start := start.toNat
      stop := stop.toNat
      isNamed := flags.toNat.testBit 0
      isMissing := flags.toNat.testBit 1
      hasError := flags.toNat.testBit 2
      field
      children }
  | _ => none

/-- Nodes that a list of JSON documents describes. -/
def allOfJson? : List Json → Option (List Node)
  | [] => some []
  | v :: vs => do
    let n ← ofJson? v
    let ns ← allOfJson? vs
    return n :: ns

end

end Outline.Node
