/-
Module: Outline.Proofs.Ignore.Ranges
Layer: Proofs
Purpose: Where a reversed range can come from. Classes of characters are read from brackets alone, so that an ignore
  file whose text has no opening bracket, in a directory whose name has none, states no reversed range.
Main exports: Ordered, Matcher.bracket_of_reversed, Rule.bracket_of_reversed, bracket_of_reversed
-/
import Outline.Proofs.Ignore.Nested

namespace Outline.Ignore

open Text (split splitOn joinWith)

/-!
### Pieces
-/

section Pieces

variable {s : String} {parts : List String} {cs : List Char} {ps : List Piece}
  {x : Except SegmentStop (List Piece)}

/-- If pieces could be read, no range in them is reversed. -/
def Ordered (x : Except SegmentStop (List Piece)) : Prop := ∀ ps, x = .ok ps → piecesOrdered ps = true

/-- A piece that is no set keeps the ranges in order. -/
theorem Ordered.cons {p : Piece} (ordered : Ordered x) (other : ∀ k, p ≠ .oneOf k) :
    Ordered (do return p :: (← x)) := by
  intro ps read
  cases x with
  | error stop => cases read
  | ok qs =>
      cases read
      have others : piecesOrdered qs = true := ordered qs rfl
      cases p with
      | oneOf k => exact absurd rfl (other k)
      | _ => exact others

/-- Two lists of pieces in turn have their ranges in order if both do. -/
theorem piecesOrdered_append (ps qs : List Piece) :
    piecesOrdered (ps ++ qs) = (piecesOrdered ps && piecesOrdered qs) := List.all_append

/-- Without a bracket there is no class. -/
theorem ordered_segmentPieces (plain : '[' ∉ cs) : Ordered (segmentPieces cs) := by
  fun_induction segmentPieces cs with
  | case1 =>
      rintro ps ⟨⟩
      rfl
  | case2 c rest ih => exact .cons (ih fun mem => plain (by simp [mem])) fun k => by simp
  | case3 => rintro ps ⟨⟩
  | case4 rest _ ih => exact .cons (ih fun mem => plain (List.mem_cons_of_mem _ mem)) fun k => by simp
  | case5 rest _ _ ih => exact .cons (ih fun mem => plain (List.mem_cons_of_mem _ mem)) fun k => by simp
  | case6 => exact absurd List.mem_cons_self plain
  | case7 => exact absurd List.mem_cons_self plain
  | case8 c rest _ _ _ _ ih => exact .cons (ih fun mem => plain (List.mem_cons_of_mem _ mem)) fun k => by simp

theorem ordered_namePieces (plain : '[' ∉ s.toList) : Ordered (namePieces s) := by
  unfold namePieces
  split
  · rintro ps ⟨⟩
    rfl
  · exact ordered_segmentPieces plain

theorem ordered_piecesFrom (needsSlash : Bool) (plain : ∀ s ∈ parts, '[' ∉ s.toList) :
    Ordered (piecesFrom needsSlash parts) := by
  induction parts generalizing needsSlash with
  | nil =>
      rintro ps ⟨⟩
      rfl
  | cons s rest ih =>
      obtain ⟨first, others⟩ := List.forall_mem_cons.1 plain
      by_cases stars : s = "**"
      · subst stars
        by_cases last : rest = []
        · subst last
          rintro ps ⟨⟩
          rfl
        · rw [piecesFrom_stars needsSlash last]
          exact .cons (ih true others) fun k => by simp
      · rw [piecesFrom_name needsSlash stars]
        have own := ordered_namePieces first
        have after := ih true others
        intro ps read
        cases names : namePieces s with
        | error stop =>
            rw [names] at read
            cases read
        | ok named =>
            cases behind : piecesFrom true rest with
            | error stop =>
                rw [names, behind] at read
                cases read
            | ok more =>
                rw [names, behind] at read
                cases read
                have slash : piecesOrdered (if needsSlash then [.char '/'] else []) = true := by cases needsSlash <;> rfl
                have last : piecesOrdered (if rest.isEmpty then [.ending] else more) = true := by
                  split
                  · rfl
                  · exact after more behind
                rw [piecesOrdered_append, piecesOrdered_append, own named names, slash, last]
                rfl

theorem ordered_patternPieces (plain : ∀ s ∈ parts, '[' ∉ s.toList) : Ordered (patternPieces parts) := by
  unfold patternPieces
  split
  next rest =>
    exact .cons (ordered_piecesFrom false fun s mem => plain s (List.mem_cons_of_mem _ mem)) fun k => by simp
  next => exact ordered_piecesFrom false plain

end Pieces

/-!
### Patterns
-/

section Patterns

variable {s whole pattern line : String} {parts : List String} {c : Char}

theorem mem_of_mem_splitOn {sep : Char} {cs piece : List Char} (among : piece ∈ splitOn sep cs) (mem : c ∈ piece) :
    c ∈ cs := by
  induction cs generalizing piece with
  | nil =>
      rw [List.mem_singleton.1 among] at mem
      exact mem
  | cons d cs ih =>
      rw [Text.splitOn] at among
      split at among
      next =>
        rcases List.mem_cons.1 among with rfl | further
        · cases mem
        · exact List.mem_cons_of_mem d (ih further mem)
      next =>
        have some : splitOn sep cs ≠ [] := Text.splitOn_ne_nil cs
        obtain ⟨first, pieces, found⟩ := List.exists_cons_of_ne_nil some
        rw [found] at among ih
        rcases List.mem_cons.1 among with rfl | further
        · rcases List.mem_cons.1 mem with rfl | inner
          · exact List.mem_cons_self
          · exact List.mem_cons_of_mem d (ih List.mem_cons_self inner)
        · exact List.mem_cons_of_mem d (ih (List.mem_cons_of_mem _ further) mem)

theorem mem_of_mem_split (among : s ∈ split '/' pattern) (mem : c ∈ s.toList) : c ∈ pattern.toList := by
  obtain ⟨piece, found, rfl⟩ := List.mem_map.1 among
  rw [String.toList_ofList] at mem
  exact mem_of_mem_splitOn found mem

theorem mem_of_mem_collapseStars (mem : s ∈ collapseStars parts) : s ∈ parts := by
  fun_induction collapseStars parts with
  | case1 rest ih => exact List.mem_cons_of_mem _ (ih mem)
  | case2 t rest _ ih =>
      rcases List.mem_cons.1 mem with rfl | further
      · exact List.mem_cons_self
      · exact List.mem_cons_of_mem t (ih further)
  | case3 => exact mem

theorem mem_closed (mem : s ∈ closed parts) : s = "**" ∨ s ∈ parts := by
  unfold closed at mem
  split at mem
  · rcases List.mem_append.1 mem with kept | added
    · exact .inr (List.dropLast_subset parts kept)
    · exact .inl (List.mem_singleton.1 added)
  · exact .inr mem

/-- A segment is a piece of the pattern, or stars that were added. -/
theorem mem_segments (mem : s ∈ segments pattern) : s = "**" ∨ s ∈ split '/' pattern := by
  obtain ⟨tied, among, mem⟩ : ∃ tied : List String, (∀ t ∈ tied, t = "**" ∨ t ∈ split '/' pattern) ∧ s ∈ closed tied := by
    refine ⟨_, ?_, mem⟩
    intro t among
    split at among
    next rest raw => exact .inr (raw ▸ List.mem_cons_of_mem _ among)
    next t raw =>
      split at among
      · exact .inr among
      · exact List.mem_cons.1 among
    next t raw =>
      split at among
      · exact .inr among
      · exact List.mem_cons.1 among
    next => exact .inr among
  rcases mem_closed mem with stars | piece
  · exact .inl stars
  · exact among s piece

theorem ordered_of_pattern (plain : '[' ∉ pattern.toList) : Ordered (patternPieces (collapseStars (segments pattern))) := by
  apply ordered_patternPieces
  intro s mem bracket
  rcases mem_segments (mem_of_mem_collapseStars mem) with rfl | piece
  · exact absurd bracket (by decide)
  · exact plain (mem_of_mem_split piece bracket)

theorem Matcher.bracket_of_reversed (reversed : Matcher.parse whole pattern = .error .reversedRange) :
    '[' ∈ pattern.toList := by
  apply Classical.byContradiction
  intro plain
  have ordered := ordered_of_pattern plain
  unfold Matcher.parse at reversed
  split at reversed
  next => cases reversed
  next => cases reversed
  next => cases reversed
  next => cases reversed
  next =>
    split at reversed
    next => cases reversed
    next => cases reversed
    next ps read =>
      rw [if_pos (ordered ps read)] at reversed
      cases reversed

theorem mem_of_mem_dropEndWhile {p : Char → Bool} {cs : List Char} (mem : c ∈ Text.dropEndWhile p cs) : c ∈ cs := by
  rw [Text.dropEndWhile, List.mem_reverse] at mem
  exact List.mem_reverse.1 (List.dropWhile_subset p mem)

/-- A line that states a reversed range has a bracket. -/
theorem Rule.bracket_of_reversed (reversed : Rule.parse line = .error .reversedRange) : '[' ∈ line.toList := by
  have untrimmed : ∀ {t : String}, (t = line ∨ t = Text.trimEnd line) → '[' ∈ t.toList → '[' ∈ line.toList := by
    rintro t (rfl | rfl) mem
    · exact mem
    · rw [Text.trimEnd, String.toList_ofList] at mem
      exact mem_of_mem_dropEndWhile mem
  unfold Rule.parse at reversed
  dsimp only at reversed
  generalize pattern_eq : (if Text.endsWith line "\\ " then line else Text.trimEnd line) = pattern at reversed
  have fromLine : pattern = line ∨ pattern = Text.trimEnd line := by
    rw [← pattern_eq]
    split
    · exact .inl rfl
    · exact .inr rfl
  apply untrimmed fromLine
  split at reversed
  next => cases reversed
  next =>
    split at reversed
    next =>
      cases read : Matcher.parse pattern (Text.dropFirst 1 pattern) with
      | ok m =>
          rw [read] at reversed
          cases reversed
      | error e =>
          rw [read] at reversed
          cases reversed
          have mem := Matcher.bracket_of_reversed read
          rw [Text.dropFirst, String.toList_ofList] at mem
          exact List.mem_of_mem_drop mem
    next =>
      cases read : Matcher.parse pattern pattern with
      | ok m =>
          rw [read] at reversed
          cases reversed
      | error e =>
          rw [read] at reversed
          cases reversed
          exact Matcher.bracket_of_reversed read

end Patterns

/-!
### Files
-/

section Files

variable {line pattern : String} {c : Char} {cs l : List Char} {directory : List String}

theorem mem_of_mem_lines (among : l ∈ Text.lines cs) (mem : c ∈ l) : c ∈ cs := by
  fun_induction Text.lines cs generalizing l with
  | case1 => cases among
  | case2 cs ih =>
      rcases List.mem_cons.1 among with rfl | further
      · cases mem
      · exact List.mem_cons_of_mem _ (List.mem_cons_of_mem _ (ih further mem))
  | case3 d cs _ _ ih =>
      rcases List.mem_cons.1 among with rfl | further
      · cases mem
      · exact List.mem_cons_of_mem _ (ih further mem)
  | case4 d cs _ _ ih =>
      cases found : Text.lines cs with
      | nil =>
          rw [found] at among
          rw [List.mem_singleton.1 among, List.mem_singleton] at mem
          exact mem ▸ List.mem_cons_self
      | cons first others =>
          rw [found] at among ih
          rcases List.mem_cons.1 among with rfl | further
          · rcases List.mem_cons.1 mem with rfl | inner
            · exact List.mem_cons_self
            · exact List.mem_cons_of_mem d (ih List.mem_cons_self inner)
          · exact List.mem_cons_of_mem d (ih (List.mem_cons_of_mem _ further) mem)

/-- The characters of the lines come from the content. -/
theorem mem_of_mem_patternLines (among : line ∈ patternLines cs) (mem : c ∈ line.toList) : c ∈ cs := by
  obtain ⟨trimmed, found, kept⟩ := List.mem_filterMap.1 among
  obtain ⟨raw, isLine, rfl⟩ := List.mem_map.1 found
  split at kept
  next => cases kept
  next =>
    cases kept
    rw [String.toList_ofList] at mem
    exact mem_of_mem_lines isLine (mem_of_mem_dropEndWhile mem)

/-- The brackets of a changed pattern are those of the directory and those that it had. -/
theorem bracket_of_scopePattern {scopePath : String} (mem : '[' ∈ (scopePattern pattern scopePath).toList) :
    '[' ∈ scopePath.toList ∨ '[' ∈ pattern.toList := by
  have unslashed : '[' ∈ pattern.toList.map (fun c => if c = '\\' then '/' else c) → '[' ∈ pattern.toList := by
    intro mem
    obtain ⟨d, among, same⟩ := List.mem_map.1 mem
    split at same
    · exact absurd same (by decide)
    · exact same ▸ among
  unfold scopePattern at mem
  dsimp only at mem
  split at mem
  · rw [String.toList_append, String.toList_ofList, List.mem_append] at mem
    exact mem.imp_right fun kept => unslashed (List.dropWhile_subset _ kept)
  · split at mem
    · rw [String.toList_append, String.toList_ofList, List.mem_append] at mem
      exact mem.imp_right unslashed
    · rw [String.toList_append, String.toList_append, List.mem_append, List.mem_append] at mem
      rcases mem with (directory | stars) | kept
      · exact .inl directory
      · exact absurd stars (by decide)
      · rw [String.toList_ofList] at kept
        exact .inr (unslashed kept)

/-- A bracket in a scoped line comes from the directory or from the line. -/
theorem bracket_of_scopeLine {scopePath : String} (mem : '[' ∈ (scopeLine scopePath line).toList) :
    '[' ∈ scopePath.toList ∨ '[' ∈ line.toList := by
  unfold scopeLine at mem
  split at mem
  · rw [String.toList_append, List.mem_append] at mem
    rcases mem with mark | mem
    · exact absurd mark (by decide)
    · rcases bracket_of_scopePattern mem with directory | kept
      · exact .inl directory
      · rw [Text.dropFirst, String.toList_ofList] at kept
        exact .inr (List.mem_of_mem_drop kept)
  · exact bracket_of_scopePattern mem

/-- The characters of joined parts come from a part or from the mark. -/
theorem exists_mem_of_mem_joinWith {mark : String} {parts : List String} (mem : c ∈ (joinWith mark parts).toList) :
    c ∈ mark.toList ∨ ∃ part ∈ parts, c ∈ part.toList := by
  induction parts with
  | nil => cases mem
  | cons s rest ih =>
      cases rest with
      | nil => exact .inr ⟨s, List.mem_cons_self, mem⟩
      | cons t rest =>
          rw [joinWith, String.toList_append, String.toList_append, List.mem_append, List.mem_append] at mem
          rcases mem with (first | between) | behind
          · exact .inr ⟨s, List.mem_cons_self, first⟩
          · exact .inl between
          · rcases ih behind with between | inner
            · exact .inl between
            · obtain ⟨part, among, mem⟩ := inner
              exact .inr ⟨part, List.mem_cons_of_mem s among, mem⟩

/-- The error of some lines is the error of one of them. -/
theorem exists_of_parseRules {lines : List String} {e : PatternError} (failed : parseRules lines = .error e) :
    ∃ line ∈ lines, Rule.parse line = .error e := by
  rw [parseRules] at failed
  induction lines with
  | nil => cases failed
  | cons line rest ih =>
      rw [List.mapM_cons] at failed
      cases first : Rule.parse line with
      | error e' =>
          rw [first] at failed
          cases failed
          exact ⟨line, List.mem_cons_self, first⟩
      | ok r =>
          rw [first] at failed
          cases others : rest.mapM Rule.parse with
          | error e' =>
              rw [others] at failed
              cases failed
              obtain ⟨line', among, inner⟩ := ih others
              exact ⟨line', List.mem_cons_of_mem line among, inner⟩
          | ok rs =>
              rw [others] at failed
              cases failed

/-- A reversed range is read from a bracket in the file, or from one in the name of a directory it lies in. -/
theorem bracket_of_reversed {content : ByteArray} (reversed : parseFile directory content = .error .reversedRange) :
    (∃ part ∈ directory, '[' ∈ part.toList) ∨ '[' ∈ Text.Utf8.decodeReplacing content.data.toList := by
  obtain ⟨line, among, own⟩ := exists_of_parseRules reversed
  have bracket := Rule.bracket_of_reversed own
  unfold scopedLines at among
  split at among
  next => exact .inr (mem_of_mem_patternLines among bracket)
  next =>
    obtain ⟨raw, isLine, rfl⟩ := List.mem_map.1 among
    rcases bracket_of_scopeLine bracket with way | kept
    · rw [String.toList_append, List.mem_append] at way
      have joined := way.resolve_right (by decide)
      exact .inl ((exists_mem_of_mem_joinWith joined).resolve_left (by decide))
    · exact .inr (mem_of_mem_patternLines isLine kept)

end Files

end Outline.Ignore
