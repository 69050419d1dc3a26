/-
Module: Outline.CommandLine.Outcome
Layer: CommandLine
Purpose: How a run of the command line can end, and what is seen of it: the exit code and the two outputs.
Main exports: Breakdown, Outcome, Outcome.exitCode, Outcome.stdout, Outcome.stderr
-/
import Outline.CommandLine.Usage
import Outline.Json.Printer
import Outline.Scan.Report
import Outline.Settings.Load

namespace Outline.CommandLine

open Settings (LoadError)
open Specifier (Interruption)

/-- A failure that no command reports by a message of its own. -/
inductive Breakdown where
  | settings (e : LoadError)
  /-- The source file is not below the workspace. -/
  | outsideWorkspace
  /-- The source file, or the text of a part of its tree, is not UTF-8. -/
  | undecodable
  /-- The probe broke off. -/
  | interrupted (why : Interruption)
  | scan (e : ScanError)
deriving DecidableEq, Repr, Inhabited

/-- How a run ends. -/
inductive Outcome where
  | printed (document : Json)
  | helped (command : Option Command)
  /-- Help is shown because nothing was asked for. -/
  | nothingAsked
  | refused (e : UsageError)
  | unparsable (fault : SyntaxFault)
  | broken (b : Breakdown)

/-!
### What is seen of a run
-/

/-- How a command is called. -/
def Command.usage (c : Command) : String :=
  "Usage: " ++ c.name ++ " [OPTIONS] " ++ c.argument ++ "\n\nOptions:\n" ++
    String.join (c.options.map fun o => "  " ++ Text.joinWith ", " o.spellings ++ "\n")

/-- Help on everything or on one command. -/
def helpText : Option Command → String
  | some c => c.usage
  | none => "Usage: [OPTIONS] COMMAND [ARGS]...\n\nCommands:\n  extract\n  scan\n"

/-- Exit code of a run. -/
def Outcome.exitCode : Outcome → Nat
  | .printed _ | .helped _ => 0
  | .nothingAsked | .refused _ => 2
  | .unparsable _ | .broken _ => 1

/-- What a run prints. -/
def Outcome.stdout : Outcome → String
  | .printed document => document.pretty ++ "\n"
  | .helped command => helpText command
  | _ => ""

/-- A line for a failure without a message of its own. -/
def Breakdown.report : Breakdown → String
  | .settings (.variable e) => e.message
  | .settings (.invalid issues) => Settings.issuesReport issues
  | .settings .undecodable => "the configuration file is not UTF-8"
  | .settings .malformedToml => "the configuration file is not TOML"
  | .settings .malformedJson => "the configuration file is not JSON"
  | .settings .oversizedNumber => "the configuration file holds an integer of too many digits"
  | .settings .notATable => "the configuration file does not hold an object"
  | .settings .notAnEntry => "an entry of the configuration file is not a pair"
  | .outsideWorkspace => "the source file is not below the workspace"
  | .undecodable => "the source file is not UTF-8"
  | .scan (.badPattern e) => e.message
  | .scan .noWorkers => "a scan needs at least one worker"
  | .interrupted why | .scan (.interrupted why) => why.message

/-- What a run says when it does not print a result. -/
def Outcome.stderr : Outcome → String
  | .nothingAsked => helpText none
  | .refused e => "Error: " ++ e.message ++ "\n"
  | .unparsable fault => "Error: " ++ fault.report ++ "\n"
  | .broken b => "Failed: " ++ b.report ++ "\n"
  | _ => ""

end Outline.CommandLine
