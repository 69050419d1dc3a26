/-
Module: Outline.Main
Layer: Program
Purpose: The program. It reads the working directory and the environment, runs the command line on them and prints
  what comes out. The syntax tree of a source file is read from the file beside it whose name has `.tree.json`
  added.
Main exports: main
-/
import Outline.CommandLine.Run
import Outline.Json.Parser
import Outline.Tree.Json

namespace Outline.Program

/-- Ending of the names of files that hold syntax trees. -/
def treeEnding : String := ".tree.json"

/-- Text and syntax tree of a file, if there is one beside it. -/
def treeBeside (all : List (String × FileTree)) (name : String) (t : FileTree) : List (String × Node) :=
  match t, Entries.get? all (name ++ treeEnding) with
  | .file content, some (.file document) =>
    match fileText content, (String.fromUTF8? document).bind (fun s => (Json.parse s).toOption.bind Node.ofJson?) with
    | .ok text, some root => [(text, root)]
    | _, _ => []
  | _, _ => []

mutual

/-- Texts of the source files below a directory with the syntax trees beside them. -/
def treesIn : FileTree → List (String × Node)
  | .file _ => []
  | .directory entries => treesAmong entries entries

/-- Texts and syntax trees of some entries of a directory, given all of them. -/
def treesAmong (all : List (String × FileTree)) : List (String × FileTree) → List (String × Node)
  | [] => []
  | (name, t) :: rest => treeBeside all name t ++ treesIn t ++ treesAmong all rest

end

/-- The parser that knows the syntax trees found on a disk; any other text is an error as a whole. -/
def grammarOf (known : List (String × Node)) : Grammar := fun _ text =>
  match known.find? fun p => p.1 == text with
  | some (_, root) => root
  | none => { (default : Node) with kind := "ERROR" }

/-- Put a tree at a place. -/
def placeAt (tree : FileTree) : List String → FileTree
  | [] => tree
  | name :: rest => .directory [(name, placeAt tree rest)]

/-- Variables of an environment block, in which each ends with a zero. -/
def variablesOf (block : String) : Entries String :=
  Entries.ofPairs <| (Text.split (Char.ofNat 0) block).filterMap fun entry =>
    let cs := entry.toList
    if cs.contains '=' then
      some (String.ofList (cs.takeWhile (· ≠ '=')), String.ofList ((cs.dropWhile (· ≠ '=')).drop 1))
    else none

/-- Read an entry of a directory with everything below it. -/
partial def loadEntry (entry : IO.FS.DirEntry) : IO (String × FileTree) := do
  if ← entry.path.isDir then
    let entries ← (← entry.path.readDir).toList.mapM loadEntry
    return (entry.fileName, .directory entries)
  else
    return (entry.fileName, .file (← IO.FS.readBinFile entry.path))

/-- The disk as far as it lies below the working directory. -/
def loadDisk : IO Disk := do
  let here ← IO.currentDir
  let entries ← (← here.readDir).toList.mapM loadEntry
  let cwd := pathComponents here.toString
  return { root := placeAt (.directory entries) cwd, cwd }

/-- The environment of the program. -/
def loadEnvironment : IO (Entries String) := do
  try
    let block ← IO.FS.readBinFile "/proc/self/environ"
    return variablesOf ((String.fromUTF8? block).getD "")
  catch _ => return []

/-- Run the command line in the working directory and tell its exit code. -/
def runHere (words : List String) : IO UInt32 := do
  let disk ← loadDisk
  let environment ← loadEnvironment
  let outcome := CommandLine.run { disk, grammar := grammarOf (treesIn disk.root), environment } words
  IO.print outcome.stdout
  IO.eprint outcome.stderr
  return outcome.exitCode.toUInt32

end Outline.Program

/-- Run the command line. -/
def main (words : List String) : IO UInt32 := Outline.Program.runHere words
