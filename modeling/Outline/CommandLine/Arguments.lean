/-
Module: Outline.CommandLine.Arguments
Layer: CommandLine
Purpose: The checked values of a command line. Options are checked in the order in which they are given, then the
  argument, and last it is made sure that nothing is left over; a call for help comes before all of that.
Main exports: Arguments, Request, checkEntry, applyOption, checkArguments, Request.ofWords
-/
import Outline.CommandLine.Words
import Outline.Text.Integer

namespace Outline.CommandLine

/-- What a command is to work on, and how. -/
structure Arguments where
  /-- The source file or the directory to be scanned. -/
  target : String := ""
  workspace : Option String := none
  /-- Entries of the alias table, not yet read. -/
  aliases : List String := []
  probe : Option ProbeKind := none
  /-- A file with settings. -/
  config : Option String := none
  workers : Option Int := none
  debug : Bool := false
deriving DecidableEq, Repr, Inhabited

/-- What a command line asks for. -/
inductive Request where
  | run (command : Command) (arguments : Arguments)
  /-- Help on everything or on one command. -/
  | help (command : Option Command)
  /-- There are no words at all. -/
  | nothing
deriving DecidableEq, Repr, Inhabited

/-- A path that leads to an entry of the kind wanted. -/
def checkEntry (disk : Disk) (wanted : EntryKind) (parameter path : String) : Except UsageError String :=
  match wanted, disk.find? path with
  | _, none => .error (.badValue parameter path (.absent wanted))
  | .file, some (.file _) => .ok path
  | .directory, some (.directory _) => .ok path
  | _, _ => .error (.badValue parameter path (.otherKind wanted))

/-- Check an option by the value that counts and set what it says. -/
def applyOption (disk : Disk) (words : Sorted) (a : Arguments) (o : Choice) : Except UsageError Arguments :=
  let value := (words.value? o).getD ""
  match o with
  | .workspace => do return { a with workspace := some (← checkEntry disk .directory "--workspace" value) }
  | .config => do return { a with config := some (← checkEntry disk .file "--config" value) }
  | .aliases => .ok { a with aliases := words.values .aliases }
  | .probe =>
    match ProbeKind.ofName? value with
    | some kind => .ok { a with probe := some kind }
    | none => .error (.badValue "--probe" value .notAProbe)
  | .workers =>
    match Text.integer? value with
    | some n => .ok { a with workers := some n }
    | none => .error (.badValue "--workers" value .notAnInteger)
  | .debug => .ok { a with debug := value == "--debug" }
  | .help => .ok a

/-- Kind of entry that the argument of a command leads to. -/
def Command.wanted : Command → EntryKind
  | .extract => .file
  | .scan => .directory

/-- Check the words behind a command. -/
def checkArguments (disk : Disk) (command : Command) (words : Sorted) : Except UsageError Arguments := do
  let a ← words.given.foldlM (applyOption disk words) {}
  match words.arguments with
  | [] => throw (.missingArgument command.argument)
  | target :: extra =>
    let target ← checkEntry disk command.wanted command.argument target
    if extra.isEmpty then return { a with target } else throw (.extraArguments extra)

/-- What the words behind a command ask for. -/
def Request.ofCommand (disk : Disk) (command : Command) (rest : List String) : Except UsageError Request := do
  let words ← sortWords command.options rest
  if words.given.contains .help then return .help (some command)
  return .run command (← checkArguments disk command words)

/-- A word in the place of a command that names none: it may still be an option that ends everything. -/
def Request.ofUnknown (words : List String) (name : String) : Except UsageError Request := do
  let (asksHelp, _) ← readFront words
  if asksHelp then return .help none
  throw (.unknownCommand name)

/-- What a command line asks for. -/
def Request.ofWords (disk : Disk) (words : List String) : Except UsageError Request :=
  if words.isEmpty then .ok .nothing
  else do
    let (asksHelp, fromCommand) ← readFront words
    if asksHelp then return .help none
    match fromCommand with
    | [] => throw .noCommand
    | name :: rest =>
      match Command.ofName? name with
      | some command => Request.ofCommand disk command rest
      | none => Request.ofUnknown fromCommand name

end Outline.CommandLine
