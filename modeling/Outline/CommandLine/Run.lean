/-
Module: Outline.CommandLine.Run
Layer: CommandLine
Purpose: Running a command line on a disk. Settings come from the configuration file and the environment, and the
  options count more; a file is outlined or a directory scanned, and the result is printed as JSON.
Main exports: World, configFormat, configFile, buildSettings, extractCommand, scanCommand, run
-/
import Outline.CommandLine.Arguments
import Outline.CommandLine.Outcome

namespace Outline.CommandLine

open Settings (ConfigFile ConfigFormat loadSettings)

/-- What a run depends on besides the command line. -/
structure World where
  disk : Disk
  grammar : Grammar
  environment : Entries String := []

/-!
### Settings
-/

/-- Ending of the last component of a path, with its dot. A dot in front or at the end starts none. -/
def pathSuffix (path : String) : String :=
  let name := ((pathComponents path).getLast?.getD "").toList.reverse
  let ending := name.takeWhile (· ≠ '.')
  let stem := (name.dropWhile (· ≠ '.')).drop 1
  if ending.isEmpty || stem.isEmpty then "" else String.ofList ('.' :: ending.reverse)

/-- Format of a configuration file by the ending of its name, in any case. -/
def configFormat (path : String) : ConfigFormat :=
  match Text.lower (pathSuffix path) with
  | ".toml" => .toml
  | ".json" => .json
  | _ => .dotEnv

/-- The configuration file at a path. -/
def configFile (disk : Disk) (path : String) : ConfigFile :=
  { format := configFormat path
    content := match disk.find? path with
      | some (.file content) => some content
      | _ => none }

/-- Let options count more than settings. -/
def overrideSettings (disk : Disk) (s : Settings) (aliases : Specifier.Aliases) (workspace : Option String)
    (probe : Option ProbeKind) : Settings :=
  { s with
    aliases := Entries.merge s.aliases aliases
    workspace := match workspace with
      | some path => some (Disk.absolute (disk.canonical path))
      | none => s.workspace
    probe := probe.getD s.probe }

/-- The settings of a run, or how it ends without them. -/
def buildSettings (w : World) (a : Arguments) (workspace : Option String) : Except Outcome Settings := do
  let s ← (loadSettings { environment := w.environment, file := a.config.map (configFile w.disk) }).mapError
    fun e => .broken (.settings e)
  let aliases ← (Specifier.parseAliases a.aliases).mapError fun e => .refused (.badAlias e)
  return overrideSettings w.disk s aliases workspace a.probe

/-!
### Commands
-/

/-- The path under which a source file is reported: as given, or counted from the workspace. -/
def reportedPath (disk : Disk) (a : Arguments) : Except Outcome String :=
  match a.workspace with
  | none => .ok (normalizePath a.target)
  | some workspace =>
    match relativeTo? (disk.canonical a.target) (disk.canonical workspace) with
    | some components => .ok (relativePath components)
    | none => .error (.broken .outsideWorkspace)

/-- Text of the source file. -/
def sourceText (disk : Disk) (path : String) : Except Outcome String :=
  match disk.find? path with
  | some (.file content) => (fileText content).mapError fun _ => .broken .undecodable
  | _ => .ok ""

/-- How a run ends whose file cannot be outlined. -/
def Outcome.ofFailure : Failure → Outcome
  | .unparsable fault => .unparsable fault
  | .undecodable _ => .broken .undecodable
  | .interrupted why => .broken (.interrupted why)

/-- Outline one file, with its specifiers confirmed by the probe of the settings. -/
def extractCommand (w : World) (a : Arguments) : Except Outcome Json := do
  let s ← buildSettings w a a.workspace
  let path ← reportedPath w.disk a
  let text ← sourceText w.disk a.target
  let root := w.grammar (Dialect.ofPath path) text
  let (extraction, _) :=
    extractProbing ⟨text⟩ path root s.aliases s.search (makeProbe w.disk s.probe s.workspace)
  return Declaration.listToJson (← extraction.result.mapError .ofFailure)

/-- Scan a directory, which is also the workspace. -/
def scanCommand (w : World) (a : Arguments) : Except Outcome Json := do
  let s ← buildSettings w a (some a.target)
  let s := { s with workers := a.workers.or s.workers }
  let (result, _) ← (scanDirectory w.disk w.grammar s a.target).mapError fun e => .broken (.scan e)
  return result.toJson

/-- Run a command. -/
def runCommandLine (w : World) : Command → Arguments → Except Outcome Json
  | .extract => extractCommand w
  | .scan => scanCommand w

/-- Run a command line. -/
def run (w : World) (words : List String) : Outcome :=
  match Request.ofWords w.disk words with
  | .error e => .refused e
  | .ok (.help command) => .helped command
  | .ok .nothing => .nothingAsked
  | .ok (.run command a) =>
    match runCommandLine w command a with
    | .ok document => .printed document
    | .error outcome => outcome

end Outline.CommandLine
