/-
Module: Outline.Proofs.Ignore.Scoping
Layer: Proofs
Purpose: Patterns of a nested ignore file, changed so that they are about its directory. The change is made on the
  text; for directories whose names mean themselves, and for patterns without escapes and bare slashes, it does what it
  should: the changed pattern matches a path below the directory exactly if the pattern matches the rest of the path.
Main exports: LiteralDirectory, Portable, scope, segments_scope, Carries, carries_scopePattern
-/
import Outline.Ignore.Rules
import Outline.Proofs.Ignore.Segments

namespace Outline.Ignore

open Text (split splitOn joinWith SlashFree dropEndWhile)

/-- The components of a directory below the scanned one, if every character in them means itself where the directory
    stands in front of a pattern. -/
structure LiteralDirectory (directory : List String) : Prop where
  below : directory ≠ []
  named : ∀ s ∈ directory, s ≠ "" ∧ s ≠ "."
  slashFree : SlashFree directory
  plain : Plain directory
  unmarked : ∀ s ∈ directory.head?, s.toList.head? ≠ some '#' ∧ s.toList.head? ≠ some '!'

/-- A pattern without escapes and with at most one slash in front, which is not stars alone with a slash behind them. -/
structure Portable (pattern : String) : Prop where
  noEscape : '\\' ∉ pattern.toList
  oneSlash : Text.startsWith pattern "//" = false
  notBare : ¬(collapseStars (segments pattern) = ["**"] ∧ Text.endsWith pattern "/" = true)

instance (directory : List String) : Decidable (LiteralDirectory directory) :=
  decidable_of_iff
    (directory ≠ [] ∧ (∀ s ∈ directory, s ≠ "" ∧ s ≠ ".") ∧ SlashFree directory ∧ Plain directory ∧
      ∀ s ∈ directory.head?, s.toList.head? ≠ some '#' ∧ s.toList.head? ≠ some '!')
    ⟨fun ⟨below, named, slashFree, plain, unmarked⟩ => ⟨below, named, slashFree, plain, unmarked⟩,
      fun literal => ⟨literal.below, literal.named, literal.slashFree, literal.plain, literal.unmarked⟩⟩

instance (pattern : String) : Decidable (Portable pattern) :=
  decidable_of_iff
    ('\\' ∉ pattern.toList ∧ Text.startsWith pattern "//" = false ∧
      ¬(collapseStars (segments pattern) = ["**"] ∧ Text.endsWith pattern "/" = true))
    ⟨fun ⟨noEscape, oneSlash, notBare⟩ => ⟨noEscape, oneSlash, notBare⟩,
      fun portable => ⟨portable.noEscape, portable.oneSlash, portable.notBare⟩⟩

/-- The text in front of a changed pattern. -/
def scope (directory : List String) : String := joinWith "/" directory ++ "/"

/-!
### Slashes at the end
-/

section Slashes

variable {cs : List Char}

/-- A text is what is left without the slashes at its end, and those slashes. -/
theorem dropEndWhile_append (cs : List Char) : ∃ k, cs = dropEndWhile (· = '/') cs ++ List.replicate k '/' := by
  refine ⟨(cs.reverse.takeWhile (· = '/')).length, ?_⟩
  have slashes : (cs.reverse.takeWhile (· = '/')).reverse =
      List.replicate (cs.reverse.takeWhile (· = '/')).length '/' := by
    rw [List.eq_replicate_iff]
    refine ⟨List.length_reverse, ?_⟩
    intro c mem
    simpa using List.mem_takeWhile_imp (List.mem_reverse.1 mem)
  rw [← slashes, dropEndWhile, ← List.reverse_append, List.takeWhile_append_dropWhile, List.reverse_reverse]

theorem splitOn_replicate (k : Nat) : splitOn '/' (List.replicate k '/') = List.replicate (k + 1) [] := by
  induction k with
  | zero => rfl
  | succ k ih => rw [List.replicate_succ, splitOn, if_pos rfl, ih, List.replicate_succ (n := k + 1)]

/-- A text with slashes only at its end is a name and empty pieces. -/
theorem splitOn_of_flat (flat : '/' ∉ dropEndWhile (· = '/') cs) :
    ∃ k, splitOn '/' cs = dropEndWhile (· = '/') cs :: List.replicate k [] := by
  obtain ⟨k, parts⟩ := dropEndWhile_append cs
  refine ⟨k, ?_⟩
  generalize dropEndWhile (· = '/') cs = name at flat parts
  subst parts
  cases k with
  | zero => rw [List.replicate_zero, List.append_nil, List.replicate_zero, Text.splitOn_eq_singleton flat]
  | succ k =>
      rw [List.replicate_succ, Text.splitOn_append, Text.splitOn_eq_singleton flat, splitOn_replicate]
      rfl

/-- A text with a slash before its end has several pieces, of which the second is not empty or not the last. -/
theorem splitOn_of_deep (deep : '/' ∈ dropEndWhile (· = '/') cs) :
    ∃ first second rest, splitOn '/' cs = first :: second :: rest ∧ (second ≠ [] ∨ rest ≠ []) := by
  obtain ⟨k, parts⟩ := dropEndWhile_append cs
  have last : ∀ c ∈ (dropEndWhile (· = '/') cs).getLast?, c ≠ '/' := by
    intro c isLast
    have stops := List.head?_dropWhile_not (· = '/') cs.reverse
    rw [dropEndWhile, List.getLast?_reverse] at isLast
    rw [Option.mem_def.1 isLast] at stops
    simpa using stops
  generalize dropEndWhile (· = '/') cs = name at deep parts last
  obtain ⟨front, behind, rfl⟩ := List.append_of_mem deep
  have some : behind ++ List.replicate k '/' ≠ [] := by
    intro none
    rw [(List.append_eq_nil_iff.1 none).1] at last
    simp at last
  rw [parts, List.append_assoc, List.cons_append, Text.splitOn_append]
  have someFront : splitOn '/' front ≠ [] := Text.splitOn_ne_nil front
  have someBehind : splitOn '/' (behind ++ List.replicate k '/') ≠ [] := Text.splitOn_ne_nil _
  obtain ⟨first, firsts, found⟩ := List.exists_cons_of_ne_nil someFront
  obtain ⟨second, rest, further⟩ := List.exists_cons_of_ne_nil someBehind
  rw [found, further]
  cases firsts with
  | cons more firsts => exact ⟨first, more, firsts ++ second :: rest, rfl, .inr (by simp)⟩
  | nil =>
      refine ⟨first, second, rest, rfl, ?_⟩
      by_contra empty
      simp only [not_or, not_not] at empty
      rw [empty.1, empty.2] at further
      exact some (Text.eq_nil_of_splitOn further)

end Slashes

/-!
### Changed patterns
-/

section Segments

variable {directory : List String} {pattern rest : String}

/-- Whatever stands behind a directory, its segments are followed from there. -/
theorem segments_scope (literal : LiteralDirectory directory) (some : rest ≠ "") :
    segments (scope directory ++ rest) = directory ++ closed (split '/' rest) := by
  have raw : split '/' (scope directory ++ rest) = directory ++ split '/' rest := by
    rw [scope, Text.split_append, Text.split_joinWith literal.below literal.slashFree]
  have someRest : split '/' rest ≠ [] := Text.split_ne_nil rest
  obtain ⟨s, others, rfl⟩ := List.exists_cons_of_ne_nil literal.below
  have named := (literal.named s List.mem_cons_self).1
  rw [← closed_append someRest]
  rw [List.cons_append] at raw ⊢
  cases others with
  | nil =>
      obtain ⟨t, more, found⟩ := List.exists_cons_of_ne_nil someRest
      rw [List.nil_append] at raw ⊢
      rw [found] at raw ⊢
      apply segments_of_path raw named
      by_contra empty
      simp only [not_or, not_not] at empty
      rw [empty.1, empty.2] at found
      exact some (Text.eq_empty_of_split found)
  | cons t others =>
      apply segments_of_path raw named
      exact .inl (literal.named t (List.mem_cons_of_mem s List.mem_cons_self)).1

/-- A pattern without escapes is put behind the directory, perhaps with stars in between. -/
theorem scopePattern_of_noEscape (noEscape : '\\' ∉ pattern.toList) (p : String) :
    scopePattern pattern p =
      if pattern.toList.head? = some '/' then p ++ String.ofList (pattern.toList.dropWhile (· = '/'))
      else if '/' ∈ dropEndWhile (· = '/') pattern.toList then p ++ pattern
      else p ++ "**/" ++ pattern := by
  have same : pattern.toList.map (fun c => if c = '\\' then '/' else c) = pattern.toList := by
    have each : ∀ c ∈ pattern.toList, (if c = '\\' then '/' else c) = id c := by
      intro c mem
      apply if_neg
      rintro rfl
      exact noEscape mem
    exact (List.map_congr_left each).trans (List.map_id _)
  unfold scopePattern
  rw [same]
  simp only [List.contains_iff_mem, String.ofList_toList]

/-- Two empty segments at the end ask for two slashes side by side. -/
theorem piecesFrom_doubled {front : List String} {ps : List Piece}
    (read : piecesFrom true (front ++ ["", "**"]) = .ok ps) : ∃ qs, ps = qs ++ [.char '/', .char '/'] := by
  induction front generalizing ps with
  | nil =>
      have pieces : piecesFrom true ["", "**"] = .ok [.char '/', .char '/'] := by
        simp [piecesFrom, segmentPieces]
        rfl
      rw [List.nil_append, pieces] at read
      cases read
      exact ⟨[], rfl⟩
  | cons s front ih =>
      have further : (front ++ ["", "**"]).isEmpty = false := by simp
      rw [List.cons_append] at read
      by_cases stars : s = "**"
      · subst stars
        rw [piecesFrom_stars true (by simp)] at read
        cases behind : piecesFrom true (front ++ ["", "**"]) with
        | error e =>
            rw [behind] at read
            cases read
        | ok more =>
            rw [behind] at read
            cases read
            obtain ⟨qs, rfl⟩ := ih behind
            exact ⟨.inner :: qs, rfl⟩
      · rw [piecesFrom_name true stars, further] at read
        cases own : namePieces s with
        | error e =>
            rw [own] at read
            cases read
        | ok own' =>
            cases behind : piecesFrom true (front ++ ["", "**"]) with
            | error e =>
                rw [own, behind] at read
                cases read
            | ok more =>
                rw [own, behind] at read
                cases read
                obtain ⟨qs, rfl⟩ := ih behind
                exact ⟨.char '/' :: (own' ++ qs), by simp⟩

/-- No path has an empty name in it. -/
theorem rejects_doubled {front : List String} {cs : List Char} (regular : Regular cs) :
    accepts (patternPieces (collapseStars (front ++ ["", "**"]))) cs = false := by
  have parts : collapseStars (front ++ ["", "**"]) = collapseStars front ++ ["", "**"] :=
    collapseStars_append (by decide)
  apply Bool.eq_false_iff.2
  intro accepted
  have some : collapseStars (front ++ ["", "**"]) ≠ [] := collapseStars_ne_nil (by simp)
  have behind := (accepts_behind some fun t rest => collapseStars_next).2 ⟨cs, rfl, accepted⟩
  rw [parts] at behind
  cases read : piecesFrom true (collapseStars front ++ ["", "**"]) with
  | error e =>
      rw [read] at behind
      cases behind
  | ok ps =>
      rw [read] at behind
      obtain ⟨qs, rfl⟩ := piecesFrom_doubled read
      obtain ⟨rest, suffix⟩ := suffix_of_matchesFrom behind
      rcases List.suffix_cons_iff.1 suffix with whole | inside
      · obtain ⟨c, name, notSlash, rfl⟩ := regular.cons
        cases whole
        exact notSlash rfl
      · exact regular.not_suffix inside

/-- A single segment with stars put in front of it is what it is anyhow. -/
theorem collapseStars_of_single {name : String} {more : List String} (raw : split '/' pattern = name :: more)
    (named : name ≠ "") (alone : more = [] ∨ more = [""]) :
    collapseStars ("**" :: closed (name :: more)) = collapseStars (segments pattern) := by
  rw [segments_of_single raw named alone]
  by_cases stars : name = "**"
  · subst stars
    rcases alone with rfl | rfl <;> rfl
  · rw [if_neg stars]
    have parts : closed (["**"] ++ name :: more) = ["**"] ++ closed (name :: more) :=
      closed_append (List.cons_ne_nil _ _)
    exact congrArg collapseStars parts.symm

/-- With several slashes at the end, the last segments are empty. -/
theorem closed_doubled (name : String) (k : Nat) :
    ∃ front, closed (name :: List.replicate (k + 2) "") = front ++ ["", "**"] := by
  refine ⟨name :: List.replicate k "", ?_⟩
  have slashes : name :: List.replicate (k + 2) "" = (name :: List.replicate k "") ++ ["", ""] := by
    rw [List.cons_append, ← List.replicate_append_replicate]
    rfl
  rw [slashes, closed_append (List.cons_ne_nil _ _)]
  rfl

/-- A changed pattern follows segments from the directory that match the paths that the pattern matches. -/
def Carries (directory : List String) (pattern changed : String) : Prop :=
  ∃ parts, parts ≠ [] ∧ segments changed = directory ++ parts ∧
    ∀ cs, Regular cs →
      accepts (patternPieces (collapseStars parts)) cs = accepts (patternPieces (collapseStars (segments pattern))) cs

/-- What stands behind the slash in front of a pattern is put behind the directory. -/
theorem carries_of_tied (literal : LiteralDirectory directory) (portable : Portable pattern) {cs : List Char}
    (chars : pattern.toList = '/' :: cs) :
    Carries directory pattern (scope directory ++ String.ofList (pattern.toList.dropWhile (· = '/'))) := by
  have text : pattern = "" ++ "/" ++ String.ofList cs := by
    apply String.toList_inj.1
    rw [chars]
    simp [String.toList_append]
  have raw : split '/' pattern = "" :: split '/' (String.ofList cs) := by
    rw [text, Text.split_append]
    rfl
  have more : String.ofList cs ≠ "" := by
    intro none
    have bare : pattern = "/" := by rw [text, none]; rfl
    apply portable.notBare
    rw [bare]
    decide
  have single : cs.dropWhile (· = '/') = cs := by
    have oneSlash := portable.oneSlash
    rw [Text.startsWith, chars] at oneSlash
    cases cs with
    | nil => rfl
    | cons d cs =>
        apply List.dropWhile_cons_of_neg
        intro same
        rw [of_decide_eq_true same] at oneSlash
        cases oneSlash
  rw [chars, List.dropWhile_cons_of_pos (by decide), single]
  refine ⟨_, closed_ne_nil (Text.split_ne_nil _), segments_scope literal more, ?_⟩
  intro text _
  rw [segments_of_tied raw]

/-- The first piece of a pattern without a slash in front is not empty. -/
theorem split_of_untied {c : Char} {cs : List Char} (chars : pattern.toList = c :: cs) (untied : c ≠ '/') :
    ∃ piece pieces, splitOn '/' pattern.toList = piece :: pieces ∧ String.ofList piece ≠ "" := by
  obtain ⟨piece, pieces, found⟩ : ∃ piece pieces, splitOn '/' (c :: cs) = (c :: piece) :: pieces :=
    Text.splitOn_cons untied
  exact ⟨c :: piece, pieces, by rw [chars, found], by simp⟩

/-- Several segments are put behind the directory as they are. -/
theorem carries_of_deep (literal : LiteralDirectory directory) {c : Char} {cs : List Char}
    (chars : pattern.toList = c :: cs) (untied : c ≠ '/') (deep : '/' ∈ dropEndWhile (· = '/') pattern.toList) :
    Carries directory pattern (scope directory ++ pattern) := by
  obtain ⟨piece, pieces, found, named⟩ := split_of_untied chars untied
  obtain ⟨first, second, rest, parts, further⟩ := splitOn_of_deep deep
  have some : pattern ≠ "" := by
    rintro rfl
    cases chars
  have raw : split '/' pattern = String.ofList piece :: String.ofList second :: rest.map String.ofList := by
    rw [found] at parts
    rw [split, found, (List.cons.inj parts).2]
    rfl
  refine ⟨_, closed_ne_nil (Text.split_ne_nil _), segments_scope literal some, ?_⟩
  intro text _
  rw [segments_of_path raw named (by simpa using further), raw]

/-- A single segment is looked for in all directories below, as it is anyhow. With several slashes at its end it matches
    no path, with and without stars in front. -/
theorem carries_of_flat (literal : LiteralDirectory directory) {c : Char} {cs : List Char}
    (chars : pattern.toList = c :: cs) (untied : c ≠ '/') (flat : '/' ∉ dropEndWhile (· = '/') pattern.toList) :
    Carries directory pattern (scope directory ++ "**/" ++ pattern) := by
  obtain ⟨piece, pieces, found, named⟩ := split_of_untied chars untied
  obtain ⟨k, parts⟩ := splitOn_of_flat flat
  have raw : split '/' pattern = String.ofList piece :: List.replicate k "" := by
    rw [found] at parts
    rw [split, found, (List.cons.inj parts).2, List.map_cons, List.map_replicate]
  have put : scope directory ++ "**/" ++ pattern = scope directory ++ ("**" ++ "/" ++ pattern) := by
    rw [String.append_assoc, String.append_assoc]
    rfl
  have stars : split '/' ("**" ++ "/" ++ pattern) = ["**"] ++ split '/' pattern := by
    rw [Text.split_append]
    rfl
  have follows : segments (scope directory ++ "**/" ++ pattern) = directory ++ "**" :: closed (split '/' pattern) := by
    rw [put, segments_scope literal (by simp), stars, closed_append (Text.split_ne_nil _), List.singleton_append]
  refine ⟨_, List.cons_ne_nil _ _, follows, ?_⟩
  intro text regular
  rcases k with _ | _ | k
  · rw [raw, collapseStars_of_single raw named (.inl rfl)]
  · rw [raw, collapseStars_of_single raw named (.inr rfl)]
  · have path : segments pattern = closed (split '/' pattern) := by
      rw [raw]
      exact segments_of_path raw named (.inr (List.cons_ne_nil _ _))
    obtain ⟨front, doubled⟩ := closed_doubled (String.ofList piece) k
    have starred : accepts (patternPieces (collapseStars (("**" :: front) ++ ["", "**"]))) text = false :=
      rejects_doubled regular
    rw [path, raw, doubled, rejects_doubled regular]
    exact starred

/-- A changed pattern says about the directory what the pattern says alone. -/
theorem carries_scopePattern (literal : LiteralDirectory directory) (portable : Portable pattern) (some : pattern ≠ "") :
    Carries directory pattern (scopePattern pattern (scope directory)) := by
  obtain ⟨c, cs, chars⟩ := List.exists_cons_of_ne_nil (mt String.toList_eq_nil_iff.1 some)
  rw [scopePattern_of_noEscape portable.noEscape]
  split
  next tied =>
    rw [chars] at tied
    rw [Option.some.inj tied] at chars
    exact carries_of_tied literal portable chars
  next untied =>
    rw [chars] at untied
    have untied : c ≠ '/' := by simpa using untied
    split
    next deep => exact carries_of_deep literal chars untied deep
    next flat => exact carries_of_flat literal chars untied flat

end Segments

end Outline.Ignore
