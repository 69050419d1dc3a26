/-
Module: Outline.Proofs.Specifier.Spellings
Layer: Proofs
Purpose: Glob aliases and relative paths meet. A directory can be written in four ways as the target of a pattern that
  ends in `/*`; all four mean the directory, so what such an alias leads a specifier to is the path that the specifier
  written out from the project root has.
Main exports: IsPlainDirectory, Spells, targetDirectory_of_spells, resolveInternal_of_spells
-/
import Outline.Proofs.Specifier.Climbing
import Outline.Proofs.Specifier.Rewriting

namespace Outline.Specifier

/-!
### Targets
-/

/-- A run at the end of a text ends where a character is kept. -/
theorem dropEndWhile_concat (p : Char → Bool) (front : List Char) (last : Char) :
    Text.dropEndWhile p (front ++ [last]) = if p last then Text.dropEndWhile p front else front ++ [last] := by
  simp only [Text.dropEndWhile, List.reverse_append, List.reverse_singleton, List.singleton_append, List.dropWhile_cons]
  split
  · rfl
  · simp

/-- A directory written without anything that a target may add to it: it is not the project root, has no `./` in front,
    and ends neither in a slash nor in a star. -/
structure IsPlainDirectory (directory : String) : Prop where
  notEmpty : directory ≠ ""
  notRoot : directory ≠ "."
  notHere : Text.startsWith directory "./" = false
  noSlash : Text.endsWith directory "/" = false
  noStar : Text.endsWith directory "*" = false

/-- The spellings of a directory as the target of a glob alias. -/
inductive Spells (directory : String) : String → Prop where
  | hereStarred : Spells directory ("./" ++ directory ++ "/*")
  | here : Spells directory ("./" ++ directory)
  | hereSlashed : Spells directory ("./" ++ directory ++ "/")
  | starred : Spells directory (directory ++ "/*")

variable {directory target : String}

/-- The last character of a plain directory is neither a slash nor a star. -/
theorem IsPlainDirectory.exists_last (plain : IsPlainDirectory directory) :
    ∃ front last, directory.toList = front ++ [last] ∧ last ≠ '/' ∧ last ≠ '*' := by
  have someChars : directory.toList ≠ [] := mt String.toList_eq_nil_iff.1 plain.notEmpty
  have chars : directory.toList = directory.toList.dropLast ++ [directory.toList.getLast someChars] :=
    (List.dropLast_concat_getLast someChars).symm
  have ends : ∀ c : String, c.toList = [directory.toList.getLast someChars] → Text.endsWith directory c = true := by
    intro c single
    rw [Text.endsWith, List.isSuffixOf_iff_suffix, single]
    exact ⟨_, chars.symm⟩
  refine ⟨_, _, chars, ?_, ?_⟩
  · intro slash
    exact Bool.false_ne_true (plain.noSlash.symm.trans (ends "/" (by rw [slash]; rfl)))
  · intro star
    exact Bool.false_ne_true (plain.noStar.symm.trans (ends "*" (by rw [star]; rfl)))

/-- No `./` is left in front of a plain directory, whether one was there or not. -/
theorem IsPlainDirectory.plainTarget (plain : IsPlainDirectory directory) :
    plainTarget directory = directory ∧ plainTarget ("./" ++ directory) = directory := by
  have kept : dropHere directory.toList = directory.toList := by
    have notHere := plain.notHere
    rw [Text.startsWith] at notHere
    unfold dropHere
    split
    next rest chars =>
      rw [chars] at notHere
      cases notHere
    next => rfl
  have dropped : dropHere ("./" ++ directory).toList = directory.toList := by
    rw [String.toList_append]
    exact kept
  constructor
  · rw [Specifier.plainTarget, kept, String.ofList_toList]
  · rw [Specifier.plainTarget, dropped, String.ofList_toList]

/-- What is left of a plain directory, or of one with a slash behind it, when the slashes at its end are dropped. -/
theorem IsPlainDirectory.dropEndWhile (plain : IsPlainDirectory directory) (before : String) :
    String.ofList (Text.dropEndWhile (· = '/') (before ++ directory).toList) = before ++ directory ∧
      String.ofList (Text.dropEndWhile (· = '/') (before ++ directory ++ "/").toList) = before ++ directory := by
  obtain ⟨front, last, chars, notSlash, _⟩ := plain.exists_last
  have whole : (before ++ directory).toList = (before.toList ++ front) ++ [last] := by
    rw [String.toList_append, chars, List.append_assoc]
  have kept : Text.dropEndWhile (· = '/') (before ++ directory).toList = (before ++ directory).toList := by
    rw [whole, dropEndWhile_concat, if_neg (by simpa using notSlash)]
  constructor
  · rw [kept, String.ofList_toList]
  · have slashed : (before ++ directory ++ "/").toList = (before ++ directory).toList ++ ['/'] := String.toList_append
    rw [slashed, dropEndWhile_concat, if_pos (by decide), kept, String.ofList_toList]

/-- A plain directory, or one with a slash behind it, does not end as a pattern does. -/
theorem IsPlainDirectory.endsWith (plain : IsPlainDirectory directory) (before : String) :
    Text.endsWith (before ++ directory) "/*" = false ∧ Text.endsWith (before ++ directory ++ "/") "/*" = false := by
  obtain ⟨front, last, chars, _, notStar⟩ := plain.exists_last
  have star : ∀ s : String, s.toList.getLast? ≠ some '*' → Text.endsWith s "/*" = false := by
    intro s other
    rw [Bool.eq_false_iff]
    intro ends
    obtain ⟨stem, rfl⟩ := Text.endsWith_iff_exists.1 ends
    refine other ?_
    rw [String.toList_append, List.getLast?_append]
    rfl
  constructor
  · apply star
    rw [String.toList_append, chars, ← List.append_assoc, List.getLast?_concat]
    exact fun same => notStar (Option.some.inj same)
  · apply star
    rw [String.toList_append, List.getLast?_append]
    exact fun same => absurd (Option.some.inj same) (by decide)

theorem targetDirectory_of_spells (plain : IsPlainDirectory directory) (spells : Spells directory target) :
    targetDirectory target = directory := by
  have starred : ∀ s : String, targetDirectory (s ++ "/*") = Specifier.plainTarget s := by
    intro s
    have glob : Text.endsWith (s ++ "/*") "/*" = true := Text.endsWith_iff_exists.2 ⟨s, rfl⟩
    have cut : Text.dropLast 2 (s ++ "/*") = s := Text.dropLast_append s "/*"
    rw [targetDirectory, if_pos glob, cut]
  cases spells with
  | hereStarred => rw [starred, plain.plainTarget.2]
  | here =>
      rw [targetDirectory, (plain.endsWith "./").1, if_neg Bool.false_ne_true, (plain.dropEndWhile "./").1,
        plain.plainTarget.2]
  | hereSlashed =>
      rw [targetDirectory, (plain.endsWith "./").2, if_neg Bool.false_ne_true, (plain.dropEndWhile "./").2,
        plain.plainTarget.2]
  | starred => rw [starred, plain.plainTarget.1]

/-!
### Paths
-/

variable {aliases before after : Aliases} {stem rest file : String}

/-- The first alias that applies leads below the directory that its target spells. -/
theorem redirect?_of_spells (plain : IsPlainDirectory directory) (spells : Spells directory target)
    (others : ∀ a ∈ before, aliasMatches a.1 (stem ++ "/" ++ rest) = false) :
    redirect? (before ++ (stem ++ "/*", target) :: after) (stem ++ "/" ++ rest) = some (directory ++ "/" ++ rest) := by
  refine redirect?_eq_some_iff.2 ⟨before, _, target, after, rfl, others, ?_⟩
  have below : pathBelow (targetDirectory target) rest = directory ++ "/" ++ rest := by
    rw [targetDirectory_of_spells plain spells, pathBelow, if_neg (by simp [plain.notEmpty, plain.notRoot])]
  exact below ▸ .below

/-- In a file of the project root a relative path is a path from the project root. -/
theorem resolveRelative_atRoot (root : '/' ∉ file.toList) (path : String) :
    resolveRelative file ("./" ++ path) = path := by
  have levels : Levels [] := ⟨fun d none => absurd none List.not_mem_nil, fun d none => absurd none List.not_mem_nil⟩
  exact resolveRelative_here levels root path

/-- Where the first alias that applies to a specifier is a glob alias whose target spells a plain directory, it leads the
    specifier, in any file, to what is left of it behind the stem, below that directory; and in a file of the project root
    the relative path written out has the same path, unless an alias applies to that. -/
theorem resolveInternal_of_spells (plain : IsPlainDirectory directory) (spells : Spells directory target)
    (table : aliases = before ++ (stem ++ "/*", target) :: after)
    (first : ∀ a ∈ before, aliasMatches a.1 (stem ++ "/" ++ rest) = false)
    (free : ∀ a ∈ aliases, aliasMatches a.1 ("./" ++ directory ++ "/" ++ rest) = false) :
    (∀ file, resolveInternal aliases file (stem ++ "/" ++ rest) = directory ++ "/" ++ rest) ∧
      ∀ file, '/' ∉ file.toList →
        resolveInternal aliases file ("./" ++ directory ++ "/" ++ rest) = directory ++ "/" ++ rest ∧
          resolveInternal aliases file (stem ++ "/" ++ rest) =
            resolveInternal aliases file ("./" ++ directory ++ "/" ++ rest) := by
  have aliased : ∀ file, resolveInternal aliases file (stem ++ "/" ++ rest) = directory ++ "/" ++ rest := by
    intro file
    simp only [resolveInternal, table, redirect?_of_spells plain spells first]
  have relative : ∀ file, '/' ∉ file.toList →
      resolveInternal aliases file ("./" ++ directory ++ "/" ++ rest) = directory ++ "/" ++ rest := by
    intro file root
    have written : "./" ++ directory ++ "/" ++ rest = "./" ++ (directory ++ "/" ++ rest) := by
      simp only [String.append_assoc]
    have dotted : Text.startsWith ("./" ++ (directory ++ "/" ++ rest)) "." = true :=
      Text.startsWith_iff_exists.2 ⟨"/" ++ (directory ++ "/" ++ rest), rfl⟩
    rw [resolveInternal, redirect?_eq_none_iff.2 free, written]
    simp only [dotted, if_true]
    exact resolveRelative_atRoot root _
  exact ⟨aliased, fun file root => ⟨relative file root, (aliased file).trans (relative file root).symm⟩⟩

/-- A table whose second alias spells a directory two levels down. -/
theorem resolveInternal_of_spells_button :
    IsPlainDirectory "src/lib" ∧ Spells "src/lib" "./src/lib/" ∧
      (∀ a ∈ [("~config", "./config")], aliasMatches a.1 ("@" ++ "/" ++ "ui/button") = false) ∧
      (∀ a ∈ [("~config", "./config"), ("@/*", "./src/lib/"), ("@/ui/*", "other")],
        aliasMatches a.1 ("./" ++ "src/lib" ++ "/" ++ "ui/button") = false) ∧
      '/' ∉ "index.ts".toList ∧
      resolveInternal [("~config", "./config"), ("@/*", "./src/lib/"), ("@/ui/*", "other")] "index.ts" "@/ui/button" =
        "src/lib/ui/button" ∧
      resolveInternal [("~config", "./config"), ("@/*", "./src/lib/"), ("@/ui/*", "other")] "index.ts"
        "./src/lib/ui/button" = "src/lib/ui/button" := by
  have plain : IsPlainDirectory "src/lib" := ⟨by decide, by decide, by decide, by decide, by decide⟩
  have spells : Spells "src/lib" "./src/lib/" := .hereSlashed
  have first : ∀ a ∈ [("~config", "./config")], aliasMatches a.1 ("@" ++ "/" ++ "ui/button") = false := by decide
  have free : ∀ a ∈ [("~config", "./config"), ("@/*", "./src/lib/"), ("@/ui/*", "other")],
      aliasMatches a.1 ("./" ++ "src/lib" ++ "/" ++ "ui/button") = false := by decide
  have root : '/' ∉ "index.ts".toList := by decide
  obtain ⟨aliased, relative⟩ := resolveInternal_of_spells plain spells rfl first free
  exact ⟨plain, spells, first, free, root, aliased "index.ts", (relative "index.ts" root).1⟩

end Outline.Specifier
