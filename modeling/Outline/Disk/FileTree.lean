/-
Module: Outline.Disk.FileTree
Layer: Disk
Purpose: Directories and files as a tree without links, and a working directory in it. Paths are followed
  component by component as an operating system does: each step needs a directory to step from.
Main exports: FileTree, Disk, Disk.find?, Disk.isFile, Disk.isDirectory, Disk.canonical, normalizePath,
  relativeTo?
-/
import Outline.Entries
import Outline.Text.Blank

namespace Outline

/-- A file or a directory. -/
inductive FileTree where
  | file (content : ByteArray)
  | directory (entries : List (String × FileTree))

instance : Inhabited FileTree := ⟨.directory []⟩

namespace FileTree

/-- Follow the components of a path. `above` holds the directories around, the nearest first; the top directory
    is its own parent. -/
def descend (above : List FileTree) (here : FileTree) : List String → Option FileTree
  | [] => some here
  | step :: rest =>
    match here with
    | file _ => none
    | directory entries =>
      if step = "" || step = "." then descend above here rest
      else if step = ".." then
        match above with
        | [] => descend [] here rest
        | parent :: around => descend around parent rest
      else
        match Entries.get? entries step with
        | some next => descend (here :: above) next rest
        | none => none

end FileTree

/-- Everything on a machine, and the directory in which a program runs. -/
structure Disk where
  root : FileTree
  /-- Components of the working directory. -/
  cwd : List String := []

namespace Disk

/-- Is a path counted from the top? -/
def isAbsolute (path : String) : Bool := Text.startsWith path "/"

/-- What a path leads to; the empty path leads nowhere. -/
def find? (d : Disk) (path : String) : Option FileTree :=
  if path = "" then none
  else
    let steps := Text.split '/' path
    FileTree.descend [] d.root (if isAbsolute path then steps else d.cwd ++ steps)

/-- Does a path lead to a file? -/
def isFile (d : Disk) (path : String) : Bool :=
  match d.find? path with
  | some (.file _) => true
  | _ => false

/-- Does a path lead to a directory? -/
def isDirectory (d : Disk) (path : String) : Bool :=
  match d.find? path with
  | some (.directory _) => true
  | _ => false

/-- Take one component into account without looking at the disk. -/
def step (stack : List String) (component : String) : List String :=
  if component = "" || component = "." then stack
  else if component = ".." then stack.dropLast
  else stack ++ [component]

/-- Components of a path counted from the top, without dots and doubled slashes. -/
def canonical (d : Disk) (path : String) : List String :=
  (Text.split '/' path).foldl step (if isAbsolute path then [] else d.cwd)

/-- A path counted from the top, written out. -/
def absolute (components : List String) : String := "/" ++ Text.joinWith "/" components

/-- The working directory, written out. -/
def cwdPath (d : Disk) : String := absolute d.cwd

end Disk

/-- The components of a path that count: empty ones and dots do not. -/
def pathComponents (path : String) : List String :=
  (Text.split '/' path).filter fun s => s ≠ "" && s ≠ "."

/-- A path in plain form: single slashes, no dots, a dot for nothing. Exactly two slashes in front are kept, more
    count as one. -/
def normalizePath (path : String) : String :=
  let slashes := (path.toList.takeWhile (· = '/')).length
  let front := if slashes = 0 then "" else if slashes = 2 then "//" else "/"
  let rest := Text.joinWith "/" (pathComponents path)
  if front = "" && rest = "" then "." else front ++ rest

/-- The rest of a path below a directory, both as components; none when it is not below. -/
def relativeTo? : (path directory : List String) → Option (List String)
  | path, [] => some path
  | [], _ :: _ => none
  | p :: path, d :: directory => if p = d then relativeTo? path directory else none

/-- Components as a relative path; a dot for none. -/
def relativePath (components : List String) : String :=
  if components.isEmpty then "." else Text.joinWith "/" components

end Outline
