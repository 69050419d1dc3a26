/-
Module: Outline.Specifier.Search
Layer: Specifier
Purpose: Finding the file that a best-guess path means by asking a probe, candidate after candidate.
Main exports: SearchOptions, hasExtension, candidates, firstConfirmed, searchFile
-/
import Outline.Specifier.Inquiry
import Outline.Text.Blank

namespace Outline.Specifier

/-- The endings tried on a path. -/
structure SearchOptions where
  /-- Endings of files, in the order tried. -/
  extensions : List String := [".ts", ".tsx", ".js", ".jsx", ".json"]
  /-- Endings for a path taken as a directory, in the order tried. -/
  indexFiles : List String := ["/index.ts", "/index.tsx", "/index.js", "/index.jsx", "/index.json"]
deriving DecidableEq, Repr, Inhabited

/-- Does the last segment of a path hold a dot that something follows? -/
def hasExtension (path : String) : Bool :=
  let back := path.toList.reverse
  let ending := back.takeWhile fun c => c ≠ '/' && c ≠ '.'
  !ending.isEmpty && (back.dropWhile fun c => c ≠ '/' && c ≠ '.').head? == some '.'

/-- The paths tried for a best guess: itself if it has an extension, then with each ending. The root directory
    is never tried as an extended path. -/
def candidates (options : SearchOptions) (base : String) : List String :=
  (if hasExtension base then [base] else []) ++
    ((options.extensions ++ options.indexFiles).map (base ++ ·)).filter (· != "/")

/-- The first path that the probe confirms. -/
def firstConfirmed (probe : Probe) : List String → Inquiry (Option String)
  | [] => pure none
  | path :: rest => do
    if ← ask probe path then return some path
    firstConfirmed probe rest

/-- The file that a best guess means. -/
def searchFile (options : SearchOptions) (probe : Probe) (base : String) : Inquiry (Option String) :=
  firstConfirmed probe (candidates options base)

end Outline.Specifier
