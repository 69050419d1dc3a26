/-
Module: Outline.Proofs.Ignore.Segments
Layer: Proofs
Purpose: Patterns as lists of segments, and what it means to put the names of directories in front of them. Names
  without special characters are matched literally, and what is matched behind them is what the segments alone match:
  stars in front of a pattern stand for any directories in front of a path, stars behind a name for any directories
  in between.
Main exports: isSpecial, Plain, closed, segments_of_path, collapseStars_append, accepts, accepts_behind, accepts_below
-/
import Outline.Proofs.Ignore.Matching

namespace Outline.Ignore

open Text (split joinWith SlashFree)

/-!
### Segments
-/

/-- Segments in which a slash at the end stands for what is inside. -/
def closed (parts : List String) : List String :=
  if parts.getLast? = some "" then parts.dropLast ++ ["**"] else parts

section Segments

variable {pattern s t : String} {parts rest : List String}

theorem closed_append (some : rest ≠ []) : closed (parts ++ rest) = parts ++ closed rest := by
  have last : (parts ++ rest).getLast? = rest.getLast? := by
    rw [List.getLast?_append]
    exact Option.or_of_isSome (List.getLast?_isSome.2 some)
  unfold closed
  rw [last]
  split
  · rw [List.dropLast_append_of_ne_nil some, List.append_assoc]
  · rfl

theorem closed_ne_nil (some : parts ≠ []) : closed parts ≠ [] := by
  unfold closed
  split
  · exact List.append_ne_nil_of_right_ne_nil _ (List.cons_ne_nil _ _)
  · exact some

/-- A slash in front ties a pattern to its directory. -/
theorem segments_of_tied (raw : split '/' pattern = "" :: rest) : segments pattern = closed rest := by
  unfold segments
  rw [raw]
  rfl

/-- A single segment is looked for in all directories. -/
theorem segments_of_single (raw : split '/' pattern = s :: rest) (named : s ≠ "") (alone : rest = [] ∨ rest = [""]) :
    segments pattern = closed (if s = "**" then s :: rest else "**" :: s :: rest) := by
  unfold segments
  rw [raw]
  rcases alone with rfl | rfl <;> by_cases stars : s = "**" <;> simp [closed, named, stars]

/-- Several segments are followed from the directory of the pattern. -/
theorem segments_of_path (raw : split '/' pattern = s :: t :: rest) (named : s ≠ "") (further : t ≠ "" ∨ rest ≠ []) :
    segments pattern = closed (s :: t :: rest) := by
  unfold segments
  rw [raw]
  simp only
  split
  next same => cases same; exact absurd rfl named
  next same => cases same
  next same =>
    cases same
    rcases further with other | more
    · exact absurd rfl other
    · exact absurd rfl more
  next => rfl

end Segments

/-!
### Stars
-/

section Stars

variable {s t : String} {parts rest : List String}

theorem collapseStars_cons (other : s ≠ "**") : collapseStars (s :: rest) = s :: collapseStars rest := by
  rw [collapseStars]
  intro more same
  exact absurd same other

/-- Behind a segment that is no double star collapsing starts anew. -/
theorem collapseStars_append (other : s ≠ "**") :
    collapseStars (parts ++ s :: rest) = collapseStars parts ++ s :: collapseStars rest := by
  fun_induction collapseStars parts with
  | case1 more ih =>
      rw [List.cons_append, List.cons_append, collapseStars]
      exact ih
  | case2 u more alone ih =>
      rw [List.cons_append, collapseStars, ih, List.cons_append]
      intro behind stars same
      cases more with
      | nil => exact other (List.cons.inj same).1
      | cons v more =>
          have next := (List.cons.inj same).1
          exact alone more stars (by rw [next])
  | case3 => exact collapseStars_cons other

theorem head?_collapseStars (parts : List String) : (collapseStars parts).head? = parts.head? := by
  fun_induction collapseStars parts with
  | case1 more ih => exact ih
  | case2 => rfl
  | case3 => rfl

theorem collapseStars_ne_nil (some : parts ≠ []) : collapseStars parts ≠ [] := by
  intro none
  have same := head?_collapseStars parts
  rw [none] at same
  exact some (List.head?_eq_none_iff.1 same.symm)

/-- No two stars are left side by side. -/
theorem collapseStars_next (collapsed : collapseStars parts = "**" :: t :: rest) : t ≠ "**" := by
  fun_induction collapseStars parts with
  | case1 more ih => exact ih collapsed
  | case2 u more alone ih =>
      obtain ⟨rfl, next⟩ := List.cons.inj collapsed
      rintro rfl
      have same := head?_collapseStars more
      rw [next] at same
      obtain ⟨behind, rfl⟩ := List.head?_eq_some_iff.1 same.symm
      exact alone behind rfl rfl
  | case3 => cases collapsed

end Stars

/-!
### Pieces
-/

/-- Do the pieces match a text? A segment that cannot be read matches nothing. -/
def accepts (pieces : Except SegmentStop (List Piece)) (cs : List Char) : Bool :=
  match pieces with
  | .ok ps => matchesFrom ps cs
  | .error _ => false

section Pieces

variable {s t : String} {parts rest : List String} {pieces : Except SegmentStop (List Piece)} {cs : List Char}

/-- Pieces behind a literal text accept that text and then what they accept. -/
theorem accepts_map_literal {text : List Char} :
    accepts ((text.map .char ++ ·) <$> pieces) cs = true ↔ ∃ rest, cs = text ++ rest ∧ accepts pieces rest = true := by
  cases pieces with
  | error e => simp [accepts]
  | ok ps => exact matchesFrom_literal

/-- The pieces of a segment other than `**`. -/
def namePieces (s : String) : Except SegmentStop (List Piece) :=
  if s = "*" then .ok [.some] else segmentPieces s.toList

/-- A segment that is no double star: a slash where one is needed, its own pieces, and the rest or the end. -/
theorem piecesFrom_name (needsSlash : Bool) (other : s ≠ "**") :
    piecesFrom needsSlash (s :: rest) = do
      let own ← namePieces s
      let after ← piecesFrom true rest
      return (if needsSlash then [.char '/'] else []) ++ own ++ (if rest.isEmpty then [.ending] else after) := by
  rw [piecesFrom, if_neg other, namePieces]
  by_cases star : s = "*"
  · simp only [if_pos star]
    rfl
  · simp only [if_neg star]

/-- Behind a name, segments without stars in front follow a slash. -/
theorem piecesFrom_true (other : s ≠ "**") :
    piecesFrom true (s :: rest) = (['/'].map .char ++ ·) <$> piecesFrom false (s :: rest) := by
  rw [piecesFrom_name true other, piecesFrom_name false other]
  cases namePieces s with
  | error e => rfl
  | ok own => cases piecesFrom true rest <;> rfl

/-- A double star inside a pattern is a piece of its own. -/
theorem piecesFrom_stars (needsSlash : Bool) (some : rest ≠ []) :
    piecesFrom needsSlash ("**" :: rest) = (.inner :: ·) <$> piecesFrom true rest := by
  rw [piecesFrom, if_pos rfl, if_neg (by simpa using some)]
  cases piecesFrom true rest <;> rfl

theorem patternPieces_name (other : s ≠ "**") : patternPieces (s :: rest) = piecesFrom false (s :: rest) := by
  unfold patternPieces
  split
  next same => exact absurd (List.cons.inj same).1 other
  next => rfl

/-- What is matched behind a name and a slash is what the segments alone match. -/
theorem accepts_behind (some : parts ≠ []) (collapsed : ∀ t rest, parts = "**" :: t :: rest → t ≠ "**") :
    accepts (piecesFrom true parts) cs = true ↔ ∃ rest, cs = '/' :: rest ∧ accepts (patternPieces parts) rest = true := by
  obtain ⟨s, parts, rfl⟩ := List.exists_cons_of_ne_nil some
  by_cases stars : s = "**"
  · subst stars
    cases parts with
    | nil =>
        -- stars alone match everything
        have all : ∀ text, accepts (patternPieces ["**"]) text = true := by
          intro text
          exact matchesFrom_leading.2 (.inl rfl)
        simp only [all, and_true]
        exact matchesFrom_char.trans (by simp [matchesFrom])
    | cons t parts =>
        have other := collapsed t parts rfl
        rw [piecesFrom_stars true (List.cons_ne_nil _ _), piecesFrom_true other, patternPieces]
        cases piecesFrom false (t :: parts) with
        | error e => simp [accepts]
        | ok ps => exact matchesFrom_inner
  · rw [piecesFrom_true stars, accepts_map_literal, patternPieces_name stars]
    rfl

end Pieces

/-!
### Names that mean themselves
-/

/-- A character that has a meaning of its own in patterns. -/
def isSpecial (c : Char) : Bool := c = '\\' || c = '*' || c = '?' || c = '['

/-- Names in which every character stands for itself. -/
def Plain (names : List String) : Prop := ∀ s ∈ names, ∀ c ∈ s.toList, isSpecial c = false

instance (names : List String) : Decidable (Plain names) :=
  decidable_of_iff (names.all fun s => s.toList.all fun c => !isSpecial c) (by simp [Plain])

section Names

variable {s : String} {names rest : List String} {cs : List Char}

/-- A segment without special characters stands for itself. -/
theorem segmentPieces_plain (plain : ∀ c ∈ cs, isSpecial c = false) : segmentPieces cs = .ok (cs.map .char) := by
  induction cs with
  | nil => rw [segmentPieces, List.map_nil]
  | cons c cs ih =>
      obtain ⟨first, others⟩ := List.forall_mem_cons.1 plain
      simp only [isSpecial, Bool.or_eq_false_iff, decide_eq_false_iff_not] at first
      obtain ⟨⟨⟨noEscape, noStar⟩, noMark⟩, noBracket⟩ := first
      rw [segmentPieces.eq_def]
      dsimp only
      rw [if_neg noEscape, if_neg noStar, if_neg noMark, if_neg noBracket, ih others]
      rfl

theorem ne_of_plain (plain : ∀ c ∈ s.toList, isSpecial c = false) : s ≠ "**" ∧ s ≠ "*" := by
  constructor
  · rintro rfl
    exact absurd (plain '*' (by decide)) (by decide)
  · rintro rfl
    exact absurd (plain '*' (by decide)) (by decide)

theorem collapseStars_plain (plain : Plain names) : collapseStars (names ++ rest) = names ++ collapseStars rest := by
  induction names with
  | nil => rfl
  | cons s names ih =>
      obtain ⟨first, others⟩ := List.forall_mem_cons.1 plain
      rw [List.cons_append, collapseStars_cons (ne_of_plain first).1, ih others, List.cons_append]

/-- The pieces of names are their characters. -/
theorem piecesFrom_plain (plain : Plain names) (some : names ≠ []) (more : rest ≠ []) :
    piecesFrom false (names ++ rest) = ((joinWith "/" names).toList.map .char ++ ·) <$> piecesFrom true rest := by
  have further : ∀ parts : List String, (parts ++ rest).isEmpty = false := by
    intro parts
    simp [more]
  induction names with
  | nil => exact absurd rfl some
  | cons s names ih =>
      obtain ⟨first, others⟩ := List.forall_mem_cons.1 plain
      have own : namePieces s = .ok (s.toList.map .char) := by
        rw [namePieces, if_neg (ne_of_plain first).2, segmentPieces_plain first]
      rw [List.cons_append, piecesFrom_name false (ne_of_plain first).1, own, further]
      cases names with
      | nil =>
          rw [List.nil_append]
          cases piecesFrom true rest <;> rfl
      | cons t names =>
          have next := (ne_of_plain (List.forall_mem_cons.1 others).1).1
          have behind := ih others (List.cons_ne_nil t names)
          rw [List.cons_append] at behind ⊢
          rw [piecesFrom_true next, behind, joinWith, String.toList_append, String.toList_append]
          cases piecesFrom true rest with
          | error e => rfl
          | ok ps => simp [Functor.map, Except.map, Bind.bind, Except.bind, pure, Except.pure]

/-- Behind names that mean themselves, a path is matched as it is by the segments alone. -/
theorem accepts_below (plain : Plain names) (some : names ≠ []) (more : rest ≠ [])
    (collapsed : ∀ t others, rest = "**" :: t :: others → t ≠ "**") :
    accepts (patternPieces (names ++ rest)) cs = true ↔
      ∃ behind, cs = (joinWith "/" names).toList ++ '/' :: behind ∧ accepts (patternPieces rest) behind = true := by
  have pieces : patternPieces (names ++ rest) = piecesFrom false (names ++ rest) := by
    obtain ⟨s, names, rfl⟩ := List.exists_cons_of_ne_nil some
    exact patternPieces_name (ne_of_plain (plain s List.mem_cons_self)).1
  rw [pieces, piecesFrom_plain plain some more, accepts_map_literal]
  simp only [accepts_behind more collapsed]
  constructor
  · rintro ⟨_, rfl, behind, rfl, accepted⟩
    exact ⟨behind, rfl, accepted⟩
  · rintro ⟨behind, rfl, accepted⟩
    exact ⟨_, rfl, behind, rfl, accepted⟩

end Names

/-!
### Matchers
-/

namespace Matcher

variable {whole pattern : String} {parts rest : List String} {m : Matcher} {cs : List Char}

/-- The matcher for some pieces, if they can be read. -/
def ofPieces (whole : String) (pieces : Except SegmentStop (List Piece)) : Except PatternError Matcher :=
  match pieces with
  | .error .danglingEscape => .error (.malformed whole)
  | .error .unclosedBracket => .ok .nothing
  | .ok ps => if piecesOrdered ps then .ok (.pieces ps) else .error .reversedRange

/-- A matcher made of pieces matches what they match. -/
theorem accepts_ofPieces {pieces : Except SegmentStop (List Piece)} (parsed : ofPieces whole pieces = .ok m) :
    m.accepts cs = Ignore.accepts pieces cs := by
  unfold ofPieces at parsed
  split at parsed
  next => cases parsed
  next =>
    cases parsed
    rfl
  next ps =>
    split at parsed
    · cases parsed
      rfl
    · cases parsed

/-- A pattern that does not begin with stars is matched piece by piece. -/
theorem accepts_of_parse_names (parsed : Matcher.parse whole pattern = .ok m)
    (names : ∀ rest, collapseStars (segments pattern) ≠ "**" :: rest) :
    m.accepts cs = Ignore.accepts (patternPieces (collapseStars (segments pattern))) cs := by
  unfold Matcher.parse at parsed
  split at parsed
  next => cases parsed
  next bare => exact absurd bare (names _)
  next bare => exact absurd bare (names _)
  next bare => exact absurd bare (names _)
  next => exact accepts_ofPieces parsed

/-- Every pattern is matched to paths as if it were matched piece by piece, unless it is stars and a slash at the
    end. -/
theorem accepts_of_parse (parsed : Matcher.parse whole pattern = .ok m)
    (notBare : ¬(collapseStars (segments pattern) = ["**"] ∧ Text.endsWith pattern "/" = true))
    (regular : Regular cs) :
    m.accepts cs = Ignore.accepts (patternPieces (collapseStars (segments pattern))) cs := by
  have star : namePieces "*" = .ok [.some] := rfl
  unfold Matcher.parse at parsed
  split at parsed
  next => cases parsed
  next bare =>
    have open' : Text.endsWith pattern "/" = false := by simpa [bare] using notBare
    rw [open'] at parsed
    cases parsed
    rw [bare]
    exact (matchesFrom_leading.2 (.inl rfl)).symm
  next bare =>
    cases parsed
    have pieces : patternPieces ["**", "*"] = .ok [.leading, .some, .ending] := by
      rw [patternPieces, piecesFrom_name false (by decide), star]
      rfl
    rw [bare, pieces]
    exact (matchesFrom_shallow regular).symm
  next bare =>
    cases parsed
    have pieces : patternPieces ["**", "*", "**"] = .ok [.leading, .some, .char '/'] := by
      rw [patternPieces, piecesFrom_name false (by decide), star]
      rfl
    rw [bare, pieces]
    apply Bool.eq_iff_iff.2
    exact List.contains_iff_mem.trans (matchesFrom_deep regular).symm
  next => exact accepts_ofPieces parsed

end Matcher

end Outline.Ignore
