/-
Module: Outline.Declaration.Site
Layer: Declaration
Purpose: The place in which a declaration is read: the file, the namespaces around it and the names imported so
  far. From it follow qualified names, identifiers, positions and dependencies.
Main exports: Site, Site.qualify, Site.uri, Site.dependencies, declaredName
-/
import Outline.Declaration.Basic
import Outline.Reading

namespace Outline

open Specifier (Resolved)

/-- Where a declaration stands. -/
structure Site where
  source : Source
  /-- Path of the file. -/
  path : String
  /-- Dotted names of the namespaces around; empty at the top of the file. -/
  qualifier : String := ""
  /-- Names imported so far, with what they are bound to. -/
  imports : Entries Resolved := []

namespace Site

/-- A name behind the names of the namespaces around it. -/
def qualify (site : Site) (name : String) : String :=
  if site.qualifier = "" then name else site.qualifier ++ "." ++ name

/-- Identifier of a declaration of this file. -/
def uri (site : Site) (qualified : String) : String := declarationUri site.path qualified

/-- Position of a node. -/
def position (site : Site) (n : Node) : Position := site.source.position n

/-- Text of a node. -/
def read (site : Site) (n : Node) : Reading String := Reading.read site.source n

/-- Text of a node if there is one. -/
def readOrEmpty (site : Site) (n : Option Node) : Reading String := Reading.readOrEmpty site.source n

/-- The imported names that a node uses. -/
def dependencies (site : Site) (n : Node) : Reading (List Dependency) := do
  return findDependencies site.imports (← site.read n)

/-- The name that a node declares, empty if it has none. -/
def declaredName (site : Site) (n : Node) : Reading String := site.readOrEmpty (n.field? "name")

end Site

end Outline
