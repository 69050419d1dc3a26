/-
Module: Outline.CommandLine.Usage
Layer: CommandLine
Purpose: The commands, their options and arguments by name, and what can be wrong with a command line.
Main exports: Command, Choice, Command.options, EntryKind, ValueFault, UsageError, UsageError.message
-/
import Outline.Disk.Probe
import Outline.Specifier.Alias
import Outline.Text.Quoted

namespace Outline.CommandLine

/-- What can be asked for: the outline of one file, or a scan of a directory. -/
inductive Command where
  | extract
  | scan
deriving DecidableEq, Repr, Inhabited

/-- Name of a command. -/
def Command.name : Command → String
  | .extract => "extract"
  | .scan => "scan"

/-- The command of a name. -/
def Command.ofName? (name : String) : Option Command := [Command.extract, .scan].find? (·.name == name)

/-- The one argument that a command takes, by name. -/
def Command.argument : Command → String
  | .extract => "SOURCE"
  | .scan => "ROOT"

/-- The options. -/
inductive Choice where
  | workspace
  | aliases
  | probe
  | config
  | workers
  | debug
  | help
deriving DecidableEq, Repr, Inhabited

/-- Spellings of an option. -/
def Choice.spellings : Choice → List String
  | .workspace => ["--workspace"]
  | .aliases => ["--alias"]
  | .probe => ["--probe"]
  | .config => ["--config"]
  | .workers => ["--workers"]
  | .debug => ["--debug", "--no-debug"]
  | .help => ["-h", "--help"]

/-- Is an option followed by a value? -/
def Choice.takesValue : Choice → Bool
  | .debug | .help => false
  | _ => true

/-- The options of a command. -/
def Command.options : Command → List Choice
  | .extract => [.workspace, .aliases, .probe, .config, .debug, .help]
  | .scan => [.aliases, .probe, .config, .workers, .debug, .help]

/-- The option of a spelling among those known. -/
def Choice.find? (known : List Choice) (spelling : String) : Option Choice :=
  known.find? (·.spellings.contains spelling)

/-- What a path must lead to. -/
inductive EntryKind where
  | file
  | directory
deriving DecidableEq, Repr, Inhabited

/-- Word for a kind of entry. -/
def EntryKind.noun : EntryKind → String
  | .file => "File"
  | .directory => "Directory"

/-- What is wrong with a value. -/
inductive ValueFault where
  | absent (wanted : EntryKind)
  /-- The path leads to the other kind of entry. -/
  | otherKind (wanted : EntryKind)
  | notAProbe
  | notAnInteger
deriving DecidableEq, Repr, Inhabited

/-- What is said of a value with a fault. -/
def ValueFault.report (value : String) : ValueFault → String
  | .absent wanted => wanted.noun ++ " " ++ Text.quoted value ++ " does not exist."
  | .otherKind .file => "File " ++ Text.quoted value ++ " is a directory."
  | .otherKind .directory => "Directory " ++ Text.quoted value ++ " is a file."
  | .notAProbe =>
    Text.quoted value ++ " is not one of " ++
      Text.joinWith ", " (ProbeKind.all.map fun k => Text.quoted k.name) ++ "."
  | .notAnInteger => Text.quoted value ++ " is not a valid integer."

/-- Why a command line is refused. -/
inductive UsageError where
  | noCommand
  | unknownCommand (name : String)
  | unknownOption (spelling : String)
  | missingValue (spelling : String)
  /-- A value is given to an option that takes none. -/
  | unwantedValue (spelling : String)
  | missingArgument (name : String)
  | extraArguments (values : List String)
  | badValue (parameter value : String) (fault : ValueFault)
  | badAlias (e : Specifier.AliasError)
deriving DecidableEq, Repr, Inhabited

/-- Wording of a usage error. -/
def UsageError.message : UsageError → String
  | .noCommand => "Missing command."
  | .unknownCommand name => "No such command " ++ Text.quoted name ++ "."
  | .unknownOption spelling => "No such option " ++ Text.quoted spelling ++ "."
  | .missingValue spelling => "Option " ++ Text.quoted spelling ++ " requires an argument."
  | .unwantedValue spelling => "Option " ++ Text.quoted spelling ++ " does not take a value."
  | .missingArgument name => "Missing argument '" ++ name ++ "'."
  | .extraArguments values =>
    "Got unexpected extra argument" ++ (if values.length = 1 then "" else "s") ++
      " (" ++ Text.joinWith " " values ++ ")"
  | .badValue parameter value fault => "Invalid value for '" ++ parameter ++ "': " ++ fault.report value
  | .badAlias e => e.message

end Outline.CommandLine
