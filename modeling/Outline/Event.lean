/-
Module: Outline.Event
Layer: Core
Purpose: What is worth a line in the log while a module is outlined.
Main exports: Event, Event.level, Event.message, Event.toJson
-/
import Outline.Json.Value

namespace Outline

/-- How loud an event is. -/
inductive Level where
  | debug
  | warning
deriving DecidableEq, Repr, Inhabited

/-- Name of a level. -/
def Level.name : Level → String
  | .debug => "debug"
  | .warning => "warning"

/-- Something that happened while a module was outlined. Lines count from one. -/
inductive Event where
  /-- A type of a kind that is not modelled was rendered as `any`. -/
  | unsupportedType (kind : String) (line : Nat)
  /-- A type that could not be read was rendered as `any`. -/
  | unreadableType (kind : String) (line : Nat)
  /-- A statement with a syntax error was passed over. -/
  | brokenStatement (path kind : String) (line : Nat) (raw : String)
  /-- A statement was given up part of the way. -/
  | abandonedStatement (path kind : String) (line : Nat)
  /-- A node of unknown kind, or in a place where it means nothing, was passed over. -/
  | unknownNode (path kind : String) (line : Nat) (raw : String) (context : Option String)
  /-- A module was outlined, with this many declarations at its top. -/
  | outlined (path : String) (count : Nat)
deriving DecidableEq, Repr, Inhabited

namespace Event

/-- How loud the event is. -/
def level : Event → Level
  | brokenStatement .. | abandonedStatement .. => .warning
  | _ => .debug

/-- Wording of the event. -/
def message : Event → String
  | unsupportedType .. => "Unsupported type node, falling back to any"
  | unreadableType .. => "Type rendering failed, falling back to any"
  | brokenStatement .. => "TS syntax error; skipping statement"
  | abandonedStatement .. => "TS handler error; skipping declaration"
  | unknownNode .. => "Unknown TypeScript node type"
  | outlined .. => "Extracted declarations"

/-- The particulars of the event, by name. -/
def details : Event → List (String × Json)
  | unsupportedType kind line | unreadableType kind line =>
    [("node_type", .text kind), ("line", .int line)]
  | brokenStatement path kind line raw =>
    [("path", .text path), ("node_type", .text kind), ("line", .int line), ("raw", .text raw)]
  | abandonedStatement path kind line =>
    [("path", .text path), ("node_type", .text kind), ("line", .int line)]
  | unknownNode path kind line raw context =>
    [("path", .text path), ("node_type", .text kind), ("line", .int line), ("raw", .text raw)] ++
      match context with
      | some c => [("context", .text c)]
      | none => []
  | outlined path count => [("path", .text path), ("count", .int count)]

/-- The event as one log entry. -/
def toJson (e : Event) : Json :=
  .object (("event", .text e.message) :: ("log_level", .text e.level.name) :: e.details)

end Event

end Outline
