/-
Module: Outline.Disk.Probe
Layer: Disk
Purpose: The probes by which paths of a project are confirmed: none, a look at the disk, or a command that is run
  in the workspace and tells by its exit status. A command cannot be given words with zero characters in them.
Main exports: ProbeKind, pathProbe, Command, runCommand, commandProbe, makeProbe
-/
import Outline.Disk.FileTree
import Outline.Specifier.Search

namespace Outline

open Specifier (Answer Probe)

/-- How paths are confirmed. -/
inductive ProbeKind where
  | none
  | path
  | command
deriving DecidableEq, Repr, Inhabited

/-- Name of a kind of probe in settings and on the command line. -/
def ProbeKind.name : ProbeKind → String
  | .none => "none"
  | .path => "path"
  | .command => "command"

/-- The kinds of probes, in the order in which they are listed. -/
def ProbeKind.all : List ProbeKind := [.none, .path, .command]

/-- Kind of probe of a name. -/
def ProbeKind.ofName? (name : String) : Option ProbeKind := ProbeKind.all.find? (·.name == name)

/-- Found or absent. -/
def Answer.ofBool (b : Bool) : Answer := if b then .found else .absent

/-- The directory that a workspace setting means; without one it is the working directory. -/
def workspacePath (d : Disk) (workspace : Option String) : String :=
  match workspace with
  | some w => if w = "" then d.cwdPath else w
  | none => d.cwdPath

/-- A path put behind a directory with one slash. -/
def joinPath (directory path : String) : String :=
  if Text.endsWith directory "/" then directory ++ path else directory ++ "/" ++ path

/-- Look for a file below the workspace. Slashes in front of the path do not count. -/
def pathProbe (d : Disk) (workspace : Option String) : Probe := fun path =>
  let below := String.ofList (path.toList.dropWhile (· = '/'))
  Answer.ofBool (d.isFile (joinPath (workspacePath d workspace) below))

/-- A command: the program and its arguments. -/
abbrev Command := List String

/-- The command that tests for a file. -/
def testFile : Command := ["test", "-f"]

/-- What the test program says of its arguments: a single word holds unless it is empty, a mark of negation turns
    what follows it around, and a path is tested for what it leads to. -/
def testHolds (d : Disk) : List String → Bool
  | [] => false
  | [word] => word != ""
  | "!" :: arguments => !testHolds d arguments
  | ["-e", path] => (d.find? path).isSome
  | ["-f", path] => d.isFile path
  | ["-d", path] => d.isDirectory path
  | _ => false

/-- Run a command in a directory: none if it cannot be started, else whether it succeeds. The test program is
    the only one there is. -/
def runCommand (d : Disk) (directory : String) (command : Command) : Option Bool :=
  if d.isDirectory directory then
    match command with
    | "test" :: arguments => some (testHolds { d with cwd := d.canonical directory } arguments)
    | _ => none
  else none

/-- Replace each pair of slashes by one, from left to right. -/
def halveSlashes : List Char → List Char
  | '/' :: '/' :: rest => '/' :: halveSlashes rest
  | c :: rest => c :: halveSlashes rest
  | [] => []

/-- Is there a zero character in a text? -/
def hasZero (s : String) : Bool := s.toList.contains (Char.ofNat 0)

/-- Ask a command, run in the workspace, about the path below it. A command that cannot be started says no; but with a
    zero character in one of its words, or in the directory, nobody even tries, and the probe breaks off. -/
def commandProbe (d : Disk) (workspace : Option String) (command : Command) : Probe := fun path =>
  let directory := workspacePath d workspace
  let target := String.ofList (halveSlashes (directory ++ "/" ++ path).toList)
  if (directory :: (command ++ [target])).any hasZero then .interrupted .zeroCharacter
  else Answer.ofBool ((runCommand d directory (command ++ [target])).getD false)

/-- The probe that settings ask for. -/
def makeProbe (d : Disk) (kind : ProbeKind) (workspace : Option String) : Probe :=
  match kind with
  | .none => fun _ => .absent
  | .path => pathProbe d workspace
  | .command => commandProbe d workspace testFile

end Outline
