/-
Module: Outline.Specifier.Relative
Layer: Specifier
Purpose: Relative module specifiers, resolved by text alone against the directory of the file that holds them.
  Climbing past the project root gives `..` and stays there.
Main exports: directoryOf, climb, resolveRelative
-/
import Outline.Text.Blank

namespace Outline.Specifier

/-- Part of a path before its last slash; nothing when there is no slash. -/
def directoryOf (path : String) : String :=
  String.ofList ((path.toList.reverse.dropWhile (· ≠ '/')).drop 1).reverse

/-- A path below a directory; the empty directory is the project root. -/
def under (directory rest : String) : String :=
  if directory = "" then rest else directory ++ "/" ++ rest

/-- A directory as a path of its own: the project root is written as a dot. -/
def orDot (directory : String) : String :=
  if directory = "" then "." else directory

/-- The directory above. Above the project root, and above anything past it, is `..`. -/
def climb (directory : String) : String :=
  if directory = "" || directory = ".." then ".." else directoryOf directory

/-- Climb once for each leading `..` segment; the other segments are left. -/
def climbAll : String → List String → String × List String
  | directory, [] => (directory, [])
  | directory, s :: rest => if s = ".." then climbAll (climb directory) rest else (directory, s :: rest)

/-- Path that a relative specifier in a file means. -/
def resolveRelative (file spec : String) : String :=
  let directory := directoryOf file
  if spec = "." then orDot directory
  else if spec = ".." then
    if directory = "" then ".." else orDot (directoryOf directory)
  else if Text.startsWith spec "./" then under directory (Text.dropFirst 2 spec)
  else if Text.startsWith spec "../" then
    let (target, segments) := climbAll directory (Text.split '/' spec)
    let rest := Text.joinWith "/" segments
    if rest = "" then orDot target else under target rest
  else under directory spec

end Outline.Specifier
