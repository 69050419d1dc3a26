/-
Module: Outline.Settings.Basic
Layer: Settings
Purpose: What can be set, with the defaults.
Main exports: Settings
-/
import Outline.Disk.Probe
import Outline.Specifier.Alias

namespace Outline

/-- All settings. -/
structure Settings where
  /-- Alias table for module specifiers. -/
  aliases : Specifier.Aliases := []
  /-- Endings tried on an internal path. -/
  search : Specifier.SearchOptions := {}
  /-- Directory below which paths are probed. -/
  workspace : Option String := none
  /-- How paths are confirmed. -/
  probe : ProbeKind := .none
  /-- Endings of the files picked up by a scan, in any case. -/
  sourceExtensions : List String := [".ts", ".tsx", ".mts", ".cts"]
  /-- Names of directories that a scan does not enter; no name occurs twice. -/
  ignoredDirectories : List String :=
    [".git", ".hg", ".svn", "node_modules", "dist", "build", ".next", ".turbo", ".idea", ".vscode"]
  /-- Number of workers of a scan; chosen by the machine when absent. -/
  workers : Option Int := none
deriving DecidableEq, Repr, Inhabited

end Outline
