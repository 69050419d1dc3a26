/-
Module: Outline.Proofs.Specifier.Climbing
Layer: Proofs
Purpose: Where relative specifiers lead. The text of a directory is climbed one level at a time, with the empty text for
  the project root and `..` for all that is above it; read as a list of names, a level is the last name. From there the
  path that any number of steps up and any rest lead to is told.
Main exports: upward, Levels, ascent, climb_ascent, climbAll_replicate, above, resolveRelative_lexical
-/
import Mathlib.Data.List.TakeWhile
import Outline.Proofs.Text.Split
import Outline.Specifier.Relative

namespace Outline.Specifier

open Text (split joinWith SlashFree)

/-- A specifier that goes up some levels and then to `rest`. -/
def upward : Nat → String → String
  | 0, rest => rest
  | k + 1, rest => "../" ++ upward k rest

/-- Names of directories in the text of a path. -/
structure Levels (dirs : List String) : Prop where
  named : ∀ d ∈ dirs, d ≠ "" ∧ d ≠ ".."
  slashFree : SlashFree dirs

instance (dirs : List String) : Decidable (Levels dirs) :=
  decidable_of_iff ((∀ d ∈ dirs, d ≠ "" ∧ d ≠ "..") ∧ SlashFree dirs)
    ⟨fun ⟨named, slashFree⟩ => ⟨named, slashFree⟩, fun levels => ⟨levels.named, levels.slashFree⟩⟩

/-!
### Directories as lists of names
-/

section Directories

variable {dirs : List String} {name : String}

theorem Levels.take (levels : Levels dirs) (n : Nat) : Levels (dirs.take n) :=
  ⟨fun d mem => levels.named d (List.mem_of_mem_take mem), fun d mem => levels.slashFree d (List.mem_of_mem_take mem)⟩

/-- Only the project root has no text. -/
theorem Levels.joinWith_eq_empty (levels : Levels dirs) : joinWith "/" dirs = "" ↔ dirs = [] := by
  constructor
  · intro empty
    by_contra some
    have single : SlashFree [""] := by decide
    have same : dirs = [""] := Text.joinWith_injective some levels.slashFree (List.cons_ne_nil _ _) single empty
    exact (levels.named "" (same ▸ List.mem_cons_self)).1 rfl
  · rintro rfl
    rfl

/-- No directory is written like what is above the project root. -/
theorem Levels.joinWith_ne_parent (levels : Levels dirs) : joinWith "/" dirs ≠ ".." := by
  intro parent
  by_cases none : dirs = []
  · rw [none] at parent
    exact absurd parent (by decide)
  · have single : SlashFree [".."] := by decide
    have same : dirs = [".."] := Text.joinWith_injective none levels.slashFree (List.cons_ne_nil _ _) single parent
    exact (levels.named ".." (same ▸ List.mem_cons_self)).2 rfl

/-- A path below a directory is one with a further name. -/
theorem Levels.under_joinWith (levels : Levels dirs) (rest : String) :
    under (joinWith "/" dirs) rest = joinWith "/" (dirs ++ [rest]) := by
  unfold under
  split
  next empty =>
    rw [levels.joinWith_eq_empty.1 empty]
    rfl
  next some =>
    have named : dirs ≠ [] := fun none => some (levels.joinWith_eq_empty.2 none)
    exact (Text.joinWith_append "/" named (List.cons_ne_nil rest [])).symm

/-- Going back from the end of a path, a name without a slash is passed over. -/
theorem passed_of_slashFree (free : '/' ∉ name.toList) : ∀ c ∈ name.toList.reverse, decide (c ≠ '/') = true := by
  intro c mem
  rw [decide_eq_true_iff]
  rintro rfl
  exact free (List.mem_reverse.1 mem)

theorem directoryOf_append (directory : String) (free : '/' ∉ name.toList) :
    directoryOf (directory ++ "/" ++ name) = directory := by
  have backwards :
      (directory ++ "/" ++ name).toList.reverse = name.toList.reverse ++ '/' :: directory.toList.reverse := by
    simp [String.toList_append]
  rw [directoryOf, backwards, List.dropWhile_append_of_pos (passed_of_slashFree free),
    List.dropWhile_cons_of_neg (by simp), List.drop_one, List.tail_cons, List.reverse_reverse, String.ofList_toList]

theorem directoryOf_of_slashFree (free : '/' ∉ name.toList) : directoryOf name = "" := by
  rw [directoryOf, List.dropWhile_eq_nil_iff.2 (passed_of_slashFree free)]
  rfl

/-- The directory of a path is the names before the last. -/
theorem directoryOf_joinWith (dirs : List String) (free : '/' ∉ name.toList) :
    directoryOf (joinWith "/" (dirs ++ [name])) = joinWith "/" dirs := by
  by_cases none : dirs = []
  · rw [none]
    exact directoryOf_of_slashFree free
  · rw [Text.joinWith_append "/" none (List.cons_ne_nil name [])]
    exact directoryOf_append (joinWith "/" dirs) free

end Directories

/-!
### Steps up
-/

section Steps

variable {dirs : List String}

/-- The directory some levels up. What is above the project root is written as one parent. -/
def ascent (dirs : List String) (k : Nat) : List String :=
  if k ≤ dirs.length then dirs.take (dirs.length - k) else [".."]

theorem climb_empty : climb "" = ".." := rfl

/-- Above the parent no more is known, and it is kept. -/
theorem climb_parent : climb ".." = ".." := rfl

/-- Below the project root a step up drops the last name. -/
theorem climb_joinWith {last : String} (levels : Levels (dirs ++ [last])) :
    climb (joinWith "/" (dirs ++ [last])) = joinWith "/" dirs := by
  have some : joinWith "/" (dirs ++ [last]) ≠ "" := by
    rw [ne_eq, levels.joinWith_eq_empty]
    exact List.append_ne_nil_of_right_ne_nil _ (List.cons_ne_nil _ _)
  have free : '/' ∉ last.toList := levels.slashFree last (List.mem_append_right _ List.mem_cons_self)
  rw [climb, if_neg (by simp [some, levels.joinWith_ne_parent])]
  exact directoryOf_joinWith dirs free

/-- One step more leads one level further up. -/
theorem climb_ascent (levels : Levels dirs) (k : Nat) :
    climb (joinWith "/" (ascent dirs k)) = joinWith "/" (ascent dirs (k + 1)) := by
  rcases Nat.lt_trichotomy k dirs.length with below | atRoot | past
  · have next : dirs.length - k = dirs.length - (k + 1) + 1 := by omega
    have inside : dirs.length - (k + 1) < dirs.length := by omega
    have level := levels.take (dirs.length - k)
    rw [next, List.take_add_one, List.getElem?_eq_getElem inside] at level
    rw [ascent, if_pos (Nat.le_of_lt below), ascent, if_pos (Nat.succ_le_of_lt below), next, List.take_add_one,
      List.getElem?_eq_getElem inside]
    exact climb_joinWith level
  · rw [ascent, if_pos (Nat.le_of_eq atRoot), ascent, if_neg (by omega), atRoot, Nat.sub_self, List.take_zero]
    exact climb_empty
  · rw [ascent, if_neg (by omega), ascent, if_neg (by omega)]
    exact climb_parent

/-- Every leading `..` is one step up. -/
theorem climbAll_replicate (levels : Levels dirs) (j k : Nat) {segments : List String}
    (other : segments.head? ≠ some "..") :
    climbAll (joinWith "/" (ascent dirs j)) (List.replicate k ".." ++ segments) =
      (joinWith "/" (ascent dirs (j + k)), segments) := by
  induction k generalizing j with
  | zero =>
      rw [List.replicate_zero, List.nil_append, Nat.add_zero]
      cases segments with
      | nil => rfl
      | cons s rest =>
          have notParent : s ≠ ".." := fun same => other (congrArg some same)
          rw [climbAll, if_neg notParent]
  | succ k ih =>
      rw [List.replicate_succ, List.cons_append, climbAll, if_pos rfl, climb_ascent levels, ih, Nat.add_assoc,
        Nat.add_comm 1 k]

/-- A path that climbs splits into its climbing steps and the rest. -/
theorem split_upward (k : Nat) (rest : String) :
    split '/' (upward k rest) = List.replicate k ".." ++ split '/' rest := by
  induction k with
  | zero => rfl
  | succ k ih =>
      have first : split '/' (".." ++ "/" ++ upward k rest) = split '/' ".." ++ split '/' (upward k rest) :=
        Text.split_append ".." (upward k rest)
      have single : split '/' ".." = [".."] := Text.split_eq_singleton (by decide)
      rw [single, ih] at first
      exact first

end Steps

/-!
### Where relative specifiers lead
-/

section Relative

variable {dirs : List String} {file spec rest : String}

/-- The path that `k` steps up from a directory and then `rest` lead to. The rest stands below the directory that many
    levels up, in the project root, or past the root, where any number of steps counts as one; without a rest it is that
    directory itself. -/
def above (dirs : List String) (k : Nat) (rest : String) : String :=
  if rest = "" then
    if k < dirs.length then joinWith "/" (dirs.take (dirs.length - k))
    else if k = dirs.length then "."
    else ".."
  else
    if k < dirs.length then joinWith "/" (dirs.take (dirs.length - k)) ++ "/" ++ rest
    else if k = dirs.length then rest
    else "../" ++ rest

theorem above_eq (levels : Levels dirs) (k : Nat) (rest : String) :
    (if rest = "" then orDot (joinWith "/" (ascent dirs k)) else under (joinWith "/" (ascent dirs k)) rest) =
      above dirs k rest := by
  rcases Nat.lt_trichotomy k dirs.length with below | atRoot | past
  · have some : joinWith "/" (dirs.take (dirs.length - k)) ≠ "" := by
      rw [ne_eq, (levels.take _).joinWith_eq_empty, List.take_eq_nil_iff]
      rintro (none | none)
      · omega
      · rw [none] at below
        exact absurd below (Nat.not_lt_zero k)
    simp only [ascent, above, if_pos below, if_pos (Nat.le_of_lt below), orDot, under, if_neg some]
  · rw [ascent, if_pos (Nat.le_of_eq atRoot), atRoot, Nat.sub_self, List.take_zero]
    simp [above, orDot, under, joinWith]
  · have notRoot : k ≠ dirs.length := Nat.ne_of_gt past
    simp [ascent, above, Nat.not_le_of_lt past, Nat.not_lt_of_lt past, notRoot, orDot, under, joinWith]

/-- A specifier that goes up leads to what is left of its segments, from the directory that the steps up end at. -/
theorem resolveRelative_of_parent {target : String} {segments : List String}
    (parent : Text.startsWith spec "../" = true)
    (climbed : climbAll (directoryOf file) (split '/' spec) = (target, segments)) :
    resolveRelative file spec =
      if joinWith "/" segments = "" then orDot target else under target (joinWith "/" segments) := by
  have notDot : spec ≠ "." := by rintro rfl; exact absurd parent (by decide)
  have notParent : spec ≠ ".." := by rintro rfl; exact absurd parent (by decide)
  have notHere : Text.startsWith spec "./" = false := by
    obtain ⟨behind, rfl⟩ := Text.startsWith_iff_exists.1 parent
    rw [Text.startsWith, String.toList_append]
    rfl
  simp only [resolveRelative, if_neg notDot, if_neg notParent, notHere, parent, if_true, Bool.false_eq_true, if_false,
    climbed]

/-- The parent of a directory is one step up. -/
theorem resolveRelative_parent (notPast : directoryOf file ≠ "..") :
    resolveRelative file ".." = orDot (climb (directoryOf file)) := by
  have notDot : ".." ≠ "." := by decide
  simp only [resolveRelative, if_neg notDot, if_true]
  split
  next root => rw [root]; rfl
  next notRoot => rw [climb, if_neg (by simp [notRoot, notPast])]

variable {leaf : String}

/-- The directory of a file is no step up. -/
theorem directoryOf_file (dirs : List String) (free : '/' ∉ leaf.toList) :
    directoryOf (joinWith "/" (dirs ++ [leaf])) = joinWith "/" (ascent dirs 0) := by
  rw [directoryOf_joinWith dirs free, ascent, if_pos (Nat.zero_le _), Nat.sub_zero, List.take_length]

/-- Steps up, each with a slash behind it, and a rest. -/
theorem resolveRelative_upward (levels : Levels dirs) (free : '/' ∉ leaf.toList) (k : Nat)
    (other : (split '/' rest).head? ≠ some "..") :
    resolveRelative (joinWith "/" (dirs ++ [leaf])) (upward (k + 1) rest) = above dirs (k + 1) rest := by
  have parent : Text.startsWith (upward (k + 1) rest) "../" = true :=
    Text.startsWith_iff_exists.2 ⟨upward k rest, rfl⟩
  have climbed : climbAll (directoryOf (joinWith "/" (dirs ++ [leaf]))) (split '/' (upward (k + 1) rest)) =
      (joinWith "/" (ascent dirs (k + 1)), split '/' rest) := by
    rw [directoryOf_file dirs free, split_upward, climbAll_replicate levels 0 _ other, Nat.zero_add]
  rw [resolveRelative_of_parent parent climbed, Text.joinWith_split rfl, above_eq levels]

/-- Steps up, with slashes only between them. -/
theorem resolveRelative_parents (levels : Levels dirs) (free : '/' ∉ leaf.toList) (k : Nat) :
    resolveRelative (joinWith "/" (dirs ++ [leaf])) (joinWith "/" (List.replicate (k + 1) "..")) =
      above dirs (k + 1) "" := by
  have directory := directoryOf_file dirs free
  cases k with
  | zero =>
      have notPast : directoryOf (joinWith "/" (dirs ++ [leaf])) ≠ ".." := by
        rw [directoryOf_joinWith dirs free]
        exact levels.joinWith_ne_parent
      rw [← above_eq levels, if_pos rfl, ← climb_ascent levels, ← directory]
      exact resolveRelative_parent notPast
  | succ k =>
      have slashFree : SlashFree (List.replicate (k + 2) "..") := by
        intro s mem
        rw [List.eq_of_mem_replicate mem]
        decide
      have pieces : split '/' (joinWith "/" (List.replicate (k + 2) "..")) = List.replicate (k + 2) ".." ++ [] := by
        rw [List.append_nil]
        exact Text.split_joinWith (List.cons_ne_nil _ _) slashFree
      have parent : Text.startsWith (joinWith "/" (List.replicate (k + 2) "..")) "../" = true :=
        Text.startsWith_iff_exists.2 ⟨joinWith "/" (List.replicate (k + 1) ".."), rfl⟩
      have climbed : climbAll (directoryOf (joinWith "/" (dirs ++ [leaf])))
          (split '/' (joinWith "/" (List.replicate (k + 2) ".."))) = (joinWith "/" (ascent dirs (k + 2)), []) := by
        have noRest : ([] : List String).head? ≠ some ".." := nofun
        rw [directory, pieces, climbAll_replicate levels 0 _ noRest, Nat.zero_add]
      rw [resolveRelative_of_parent parent climbed]
      exact above_eq levels (k + 2) ""

/-- A rest beside a file is below the directory of the file. -/
theorem resolveRelative_here (levels : Levels dirs) (free : '/' ∉ leaf.toList) (rest : String) :
    resolveRelative (joinWith "/" (dirs ++ [leaf])) ("./" ++ rest) = joinWith "/" (dirs ++ [rest]) := by
  have here : Text.startsWith ("./" ++ rest) "./" = true := Text.startsWith_iff_exists.2 ⟨rest, rfl⟩
  have notDot : "./" ++ rest ≠ "." := by
    intro same
    rw [same] at here
    exact absurd here (by decide)
  have notParent : "./" ++ rest ≠ ".." := by
    intro same
    rw [same] at here
    exact absurd here (by decide)
  have behind : Text.dropFirst 2 ("./" ++ rest) = rest := Text.dropFirst_append "./" rest
  simp only [resolveRelative, if_neg notDot, if_neg notParent, here, if_true, behind, directoryOf_joinWith dirs free]
  exact levels.under_joinWith rest

/-- Relative specifiers in a file some directories down lead, read as text alone, to where they say: `k` steps up and a
    rest to the rest that many levels up, in the project root if these are as many as there are, and behind one `..` if
    there are fewer; without a rest to the directory itself, with a slash at the end or without; and a rest beside the
    file to the rest in its directory. -/
theorem resolveRelative_lexical (levels : Levels dirs) (free : '/' ∉ leaf.toList) :
    let file := joinWith "/" (dirs ++ [leaf])
    (∀ k rest, 1 ≤ k → (split '/' rest).head? ≠ some ".." →
        resolveRelative file (upward k rest) = above dirs k rest) ∧
      (∀ k, 1 ≤ k → resolveRelative file (joinWith "/" (List.replicate k "..")) = above dirs k "") ∧
      (∀ rest, resolveRelative file ("./" ++ rest) = joinWith "/" (dirs ++ [rest])) ∧
      resolveRelative file "." = if dirs = [] then "." else joinWith "/" dirs := by
  intro file
  refine ⟨?_, ?_, ?_, ?_⟩
  · intro k rest up other
    obtain ⟨j, rfl⟩ := Nat.exists_eq_add_of_le' up
    exact resolveRelative_upward levels free j other
  · intro k up
    obtain ⟨j, rfl⟩ := Nat.exists_eq_add_of_le' up
    exact resolveRelative_parents levels free j
  · exact resolveRelative_here levels free
  · simp only [file, resolveRelative, if_true, directoryOf_joinWith dirs free, orDot, levels.joinWith_eq_empty]

/-- From a file two directories down. -/
theorem resolveRelative_lexical_nested :
    Levels ["src", "lib"] ∧ '/' ∉ "a.ts".toList ∧
      resolveRelative "src/lib/a.ts" "../b/c" = "src/b/c" ∧ resolveRelative "src/lib/a.ts" "../../b" = "b" ∧
      resolveRelative "src/lib/a.ts" "../../../../b" = "../b" ∧ resolveRelative "src/lib/a.ts" "../.." = "." ∧
      resolveRelative "src/lib/a.ts" "./b" = "src/lib/b" ∧ resolveRelative "src/lib/a.ts" "." = "src/lib" := by
  have levels : Levels ["src", "lib"] := by decide
  have free : '/' ∉ "a.ts".toList := by decide
  obtain ⟨climbing, climbingOnly, beside, here⟩ := resolveRelative_lexical levels free
  exact ⟨levels, free, climbing 1 "b/c" (by decide) (by decide), climbing 2 "b" (by decide) (by decide),
    climbing 4 "b" (by decide) (by decide), climbingOnly 2 (by decide), beside "b", here⟩

end Relative

end Outline.Specifier
