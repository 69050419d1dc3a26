/-
Module: Outline.Scan.Collect
Layer: Scan
Purpose: Which files of a directory are scanned: those with a source ending, outside ignored directories, that no
  ignore file excludes. Files of a directory come before those of its subdirectories, all in the order of their
  names.
Main exports: SourceFile, ignoreFiles, loadRules, FileTree.sources, isSourceName, collectSources
-/
import Outline.Ignore.Rules
import Outline.Settings.Basic
import Outline.Text.Lower

namespace Outline

open Ignore (IgnoreFile Rule PatternError)

/-!
### Ignore files
-/

/-- Order of paths by their components. -/
def componentsLe : List String → List String → Bool
  | [], _ => true
  | _ :: _, [] => false
  | a :: as, b :: bs => if a = b then componentsLe as bs else decide (a < b)

/-- An entry of a directory as an ignore file, if it is one. -/
def ignoreFile? (directory : List String) (name : String) : FileTree → List IgnoreFile
  | .file content => if name = ".gitignore" then [⟨directory, content⟩] else []
  | .directory _ => []

mutual

/-- The ignore files of a tree in directories none of which is to be skipped. -/
def ignoreFilesIn (skipped : String → Bool) (directory : List String) : FileTree → List IgnoreFile
  | .file _ => []
  | .directory entries => ignoreFilesAmong skipped directory entries

/-- The ignore files among some entries of a directory and below them. -/
def ignoreFilesAmong (skipped : String → Bool) (directory : List String) :
    List (String × FileTree) → List IgnoreFile
  | [] => []
  | (name, t) :: rest =>
    ignoreFile? directory name t ++
      (if skipped name then [] else ignoreFilesIn skipped (directory ++ [name]) t) ++
      ignoreFilesAmong skipped directory rest

end

/-- The ignore files of a tree, in the order of their paths by components. -/
def ignoreFiles (skipped : String → Bool) (tree : FileTree) : List IgnoreFile :=
  (ignoreFilesIn skipped [] tree).mergeSort fun a b =>
    componentsLe (a.directory ++ [".gitignore"]) (b.directory ++ [".gitignore"])

/-- The rules of all ignore files of a tree. -/
def loadRules (ignoredDirectories : List String) (tree : FileTree) : Except PatternError (List Rule) :=
  Ignore.combineFiles (ignoreFiles ignoredDirectories.contains tree)

/-!
### Source files
-/

/-- A file to be scanned: its components below the scanned directory, and its content. -/
structure SourceFile where
  components : List String
  content : ByteArray

/-- Path of a source file below the scanned directory. -/
def SourceFile.path (f : SourceFile) : String := Text.joinWith "/" f.components

/-- What was found under a name of a directory. -/
inductive Found where
  | file (content : ByteArray)
  | below (files : List SourceFile)

/-- Files of a directory first, then what lies below its subdirectories, both by name. -/
def arrange (skipped : String → Bool) (wanted : List String → Bool) (directory : List String)
    (found : List (String × Found)) : List SourceFile :=
  let sorted := found.mergeSort fun a b => decide (a.1 ≤ b.1)
  (sorted.filterMap fun
    | (name, .file content) =>
      if wanted (directory ++ [name]) then some ⟨directory ++ [name], content⟩ else none
    | _ => none) ++
  sorted.flatMap fun
    | (name, .below files) => if skipped name then [] else files
    | _ => []

mutual

/-- What is found at a place of a tree. -/
def foundAt (skipped : String → Bool) (wanted : List String → Bool) (place : List String) : FileTree → Found
  | .file content => .file content
  | .directory entries => .below (arrange skipped wanted place (foundAmong skipped wanted place entries))

/-- What is found under each of some entries of a directory. -/
def foundAmong (skipped : String → Bool) (wanted : List String → Bool) (directory : List String) :
    List (String × FileTree) → List (String × Found)
  | [] => []
  | (name, t) :: rest =>
    (name, foundAt skipped wanted (directory ++ [name]) t) :: foundAmong skipped wanted directory rest

end

/-- The wanted files below a directory, in subdirectories that are not to be skipped. -/
def FileTree.sources (skipped : String → Bool) (wanted : List String → Bool) (tree : FileTree) :
    List SourceFile :=
  match foundAt skipped wanted [] tree with
  | .below files => files
  | .file _ => []

/-- Has a file name one of the source endings, in any case? -/
def isSourceName (extensions : List String) (name : String) : Bool :=
  extensions.any fun e => Text.endsWith (Text.lower name) (Text.lower e)

/-- Is a file, given by its components, to be scanned? -/
def isWanted (settings : Settings) (rules : List Rule) (components : List String) : Bool :=
  isSourceName settings.sourceExtensions (components.getLast?.getD "") &&
    !Ignore.ignoresPath rules (Text.joinWith "/" components)

/-- The files of a tree that are scanned, in order. -/
def collectSources (settings : Settings) (rules : List Rule) (tree : FileTree) : List SourceFile :=
  tree.sources settings.ignoredDirectories.contains (isWanted settings rules)

end Outline
