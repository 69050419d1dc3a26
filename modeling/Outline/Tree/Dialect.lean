/-
Module: Outline.Tree.Dialect
Layer: Tree
Purpose: Which of the two grammars a file is parsed with, told by the ending of its path.
Main exports: Dialect, Dialect.ofPath
-/
import Outline.Text.Blank
import Outline.Text.Lower

namespace Outline

/-- The two dialects of the language. -/
inductive Dialect where
  /-- Without embedded markup. -/
  | plain
  /-- With embedded markup. -/
  | markup
deriving DecidableEq, Repr, Inhabited

/-- Dialect of a file: plain for the endings reserved to it, in any case, else with markup. -/
def Dialect.ofPath (path : String) : Dialect :=
  if [".ts", ".mts", ".cts"].any (Text.endsWith (Text.lower path)) then .plain else .markup

end Outline
