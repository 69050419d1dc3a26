/-
Module: Outline.Proofs.Ignore.Nested
Layer: Proofs
Purpose: Ignore files of nested directories. The rules of a file that is read for its place below the scanned directory
  ignore no path outside its directory, and below it just what the rules of the file alone ignore, for the directories
  and patterns that can be put behind one another as text. Directories whose names say something else in a pattern,
  and patterns that do, are treated otherwise.
Main exports: PatternLine, Rule.parse_eq, Rule.below, Rule.behind, ignored_congr, plainPath, ignoresPath_nested
-/
import Mathlib.Data.List.Forall2
import Outline.Proofs.Ignore.Scoping

namespace Outline.Ignore

open Text (split splitOn joinWith SlashFree dropEndWhile isBlank)

/-!
### Lines
-/

/-- A line as it is read from an ignore file: no comment, and no blank at its end. -/
structure PatternLine (line : String) : Prop where
  solid : ∃ c, line.toList.getLast? = some c ∧ isBlank c = false
  noComment : line.toList.head? ≠ some '#'

/-- A line without the mark of negation. -/
def bare (line : String) : String := if Text.startsWith line "!" then Text.dropFirst 1 line else line

section Lines

variable {directory : List String} {line pattern : String}

/-- Starting with a mark of one character is having it first. -/
theorem startsWith_iff {s mark : String} {c : Char} (single : mark.toList = [c]) :
    Text.startsWith s mark = true ↔ s.toList.head? = some c := by
  rw [Text.startsWith, single]
  cases s.toList with
  | nil => simp
  | cons d ds => simpa [List.isPrefixOf] using eq_comm

/-- The lines of a file that hold patterns are such lines. -/
theorem patternLine_of_mem {content : List Char} (mem : line ∈ patternLines content) : PatternLine line := by
  obtain ⟨l, among, kept⟩ := List.mem_filterMap.1 mem
  obtain ⟨raw, _, rfl⟩ := List.mem_map.1 among
  split at kept
  next => cases kept
  next fine =>
    cases kept
    simp only [Bool.or_eq_true, not_or, List.isEmpty_iff, decide_eq_true_eq] at fine
    obtain ⟨some, noComment⟩ := fine
    constructor
    · obtain ⟨c, isLast⟩ := Option.ne_none_iff_exists'.1 (mt List.getLast?_eq_none_iff.1 some)
      have stops := List.head?_dropWhile_not isBlank raw.reverse
      have first : (raw.reverse.dropWhile isBlank).head? = Option.some c := by
        rw [← isLast, dropEndWhile, List.getLast?_reverse]
      rw [first] at stops
      exact ⟨c, by rw [String.toList_ofList, isLast], by simpa using stops⟩
    · rw [String.toList_ofList]
      intro marked
      obtain ⟨rest, line⟩ := List.head?_eq_some_iff.1 marked
      apply noComment
      rw [line]
      rfl

theorem trimEnd_of_solid (solid : ∃ c, line.toList.getLast? = some c ∧ isBlank c = false) :
    Text.trimEnd line = line := by
  obtain ⟨c, isLast, notBlank⟩ := solid
  obtain ⟨rest, backwards⟩ := List.head?_eq_some_iff.1 (List.head?_reverse.trans isLast)
  rw [Text.trimEnd, dropEndWhile, backwards, List.dropWhile_cons_of_neg (by simp [notBlank]), ← backwards,
    List.reverse_reverse, String.ofList_toList]

/-- A line that is not a bare slash states its pattern, negated if it is marked so. -/
theorem Rule.parse_eq (clean : PatternLine line) (notSlash : line ≠ "/") :
    Rule.parse line = (fun m => ⟨Text.startsWith line "!", m⟩) <$> Matcher.parse line (bare line) := by
  have some : line ≠ "" := by
    rintro rfl
    obtain ⟨c, isLast, _⟩ := clean.solid
    cases isLast
  have noComment : Text.startsWith line "#" = false := by
    rw [← Bool.not_eq_true, startsWith_iff rfl]
    exact clean.noComment
  unfold Rule.parse bare
  simp only [trimEnd_of_solid clean.solid, ite_self, some, notSlash, noComment, decide_false, Bool.or_self,
    Bool.false_eq_true, if_false]
  split
  next negated =>
    rw [negated]
    cases Matcher.parse line (Text.dropFirst 1 line) <;> rfl
  next plain =>
    rw [Bool.eq_false_iff.2 plain]
    cases Matcher.parse line line <;> rfl

end Lines

/-!
### Changed lines
-/

section Changed

variable {directory : List String} {line pattern : String} {cs : List Char}

/-- A pattern with a character that is neither a slash nor taken for one. -/
def Names (pattern : String) : Prop := ∃ c ∈ pattern.toList, c ≠ '/' ∧ c ≠ '\\'

instance (pattern : String) : Decidable (Names pattern) :=
  decidable_of_iff (pattern.toList.any fun c => c ≠ '/' && c ≠ '\\') (by simp [Names])

/-- Whatever the pattern is, an end of it is put behind the directory, perhaps with stars in between. -/
theorem scopePattern_parts (pattern p : String) :
    ∃ stars behind, (stars = "" ∨ stars = "**/") ∧
      behind <:+ pattern.toList.map (fun c => if c = '\\' then '/' else c) ∧
      scopePattern pattern p = p ++ (stars ++ String.ofList behind) ∧
      (Names pattern → stars ++ String.ofList behind ≠ "") := by
  have some : Names pattern →
      ∃ c ∈ pattern.toList.map (fun c => if c = '\\' then '/' else c), c ≠ '/' := by
    rintro ⟨c, mem, notSlash, noEscape⟩
    exact ⟨_, List.mem_map_of_mem mem, by simp [notSlash, noEscape]⟩
  unfold scopePattern
  generalize pattern.toList.map _ = chars at some ⊢
  dsimp only
  split
  · refine ⟨"", chars.dropWhile (· = '/'), .inl rfl, List.dropWhile_suffix _, by simp, ?_⟩
    intro names none
    obtain ⟨c, mem, notSlash⟩ := some names
    have all : ∀ d ∈ chars, d = '/' := by simpa using none
    exact notSlash (all c mem)
  · split
    · refine ⟨"", chars, .inl rfl, List.suffix_rfl, by simp, ?_⟩
      intro names none
      obtain ⟨c, mem, _⟩ := some names
      have empty : chars = [] := by simpa using none
      rw [empty] at mem
      cases mem
    · exact ⟨"**/", chars, .inr rfl, List.suffix_rfl, String.append_assoc, fun _ => by simp⟩

/-- A scope of literal names starts with none of the marks that a line can start with. -/
theorem scope_head (literal : LiteralDirectory directory) :
    ∃ c rest, (scope directory).toList = c :: rest ∧ c ≠ '#' ∧ c ≠ '!' ∧ c ≠ '/' := by
  obtain ⟨s, others, rfl⟩ := List.exists_cons_of_ne_nil literal.below
  have named := (literal.named s List.mem_cons_self).1
  obtain ⟨c, rest, chars⟩ := List.exists_cons_of_ne_nil (mt String.toList_eq_nil_iff.1 named)
  have unmarked := literal.unmarked s rfl
  have free := literal.slashFree s List.mem_cons_self
  rw [chars] at unmarked free
  have front : ∃ more, (joinWith "/" (s :: others)).toList = c :: more := by
    cases others with
    | nil => exact ⟨rest, chars⟩
    | cons t others => exact ⟨_, by rw [joinWith, String.toList_append, String.toList_append, chars]; rfl⟩
  obtain ⟨more, joined⟩ := front
  refine ⟨c, more ++ ['/'], by rw [scope, String.toList_append, joined]; rfl, ?_, ?_, ?_⟩
  · simpa using unmarked.1
  · simpa using unmarked.2
  · rintro rfl
    exact free List.mem_cons_self

/-- A pattern behind a scope of literal names starts with none of the marks either. -/
theorem scopePattern_head (literal : LiteralDirectory directory) (pattern : String) :
    ∃ c rest, (scopePattern pattern (scope directory)).toList = c :: rest ∧ c ≠ '#' ∧ c ≠ '!' ∧ c ≠ '/' := by
  obtain ⟨c, rest, chars, unmarked⟩ := scope_head literal
  obtain ⟨stars, behind, _, _, parts, _⟩ := scopePattern_parts pattern (scope directory)
  refine ⟨c, rest ++ (stars ++ String.ofList behind).toList, ?_, unmarked⟩
  rw [parts, String.toList_append, chars, List.cons_append]

/-- A scoped line keeps its exclamation mark in front; the rest is scoped. -/
theorem scopeLine_eq (p line : String) :
    scopeLine p line = (if Text.startsWith line "!" then "!" else "") ++ scopePattern (bare line) p := by
  unfold scopeLine bare
  split
  · rfl
  · rw [String.empty_append]

/-- The mark of negation stays in front, and only the pattern behind it is changed. -/
theorem scopeLine_marked (literal : LiteralDirectory directory) (line : String) :
    Text.startsWith (scopeLine (scope directory) line) "!" = Text.startsWith line "!" ∧
      bare (scopeLine (scope directory) line) = scopePattern (bare line) (scope directory) ∧
      scopeLine (scope directory) line ≠ "/" ∧ (scopeLine (scope directory) line).toList.head? ≠ some '#' := by
  obtain ⟨c, rest, chars, notHash, notMark, notSlash⟩ := scopePattern_head literal (bare line)
  by_cases marked : Text.startsWith line "!" = true
  · have front : (scopeLine (scope directory) line).toList =
        '!' :: (scopePattern (bare line) (scope directory)).toList := by
      rw [scopeLine_eq, if_pos marked, String.toList_append]
      rfl
    have stays : Text.startsWith (scopeLine (scope directory) line) "!" = true := by
      rw [startsWith_iff rfl, front]
      rfl
    refine ⟨by rw [stays, marked], ?_, ?_, ?_⟩
    · rw [bare, if_pos stays, Text.dropFirst, front, List.drop_one, List.tail_cons, String.ofList_toList]
    · intro same
      rw [same] at front
      cases front
    · rw [front]
      simp
  · have changed : scopeLine (scope directory) line = scopePattern (bare line) (scope directory) := by
      rw [scopeLine_eq, if_neg marked, String.empty_append]
    rw [← changed] at chars
    have stays : ¬Text.startsWith (scopeLine (scope directory) line) "!" = true := by
      rw [startsWith_iff (c := '!') rfl, chars]
      simpa using notMark
    refine ⟨by rw [Bool.eq_false_iff.2 stays, Bool.eq_false_iff.2 marked], ?_, ?_, ?_⟩
    · rw [bare, if_neg stays, changed]
    · intro same
      rw [same] at chars
      cases chars
      exact notSlash rfl
    · rw [chars]
      simpa using notHash

/-- The last character of a list is that of every end of it. -/
theorem getLast?_of_suffix {l l' : List Char} {c : Char} (suffix : l <:+ l') (isLast : l.getLast? = some c) :
    l'.getLast? = some c := by
  obtain ⟨front, rfl⟩ := suffix
  rw [List.getLast?_append, isLast]
  rfl

theorem bare_suffix (line : String) : (bare line).toList <:+ line.toList := by
  unfold bare
  split
  · rw [Text.dropFirst, String.toList_ofList]
    exact List.drop_suffix 1 line.toList
  · exact List.suffix_rfl

/-- A changed line has no blank at its end either. -/
theorem scopeLine_clean (literal : LiteralDirectory directory) (clean : PatternLine line) :
    PatternLine (scopeLine (scope directory) line) := by
  refine ⟨?_, (scopeLine_marked literal line).2.2.2⟩
  obtain ⟨stars, behind, eitherStars, suffix, parts, _⟩ := scopePattern_parts (bare line) (scope directory)
  have slash : '/' :: behind <:+ (scopeLine (scope directory) line).toList := by
    rw [scopeLine_eq, parts]
    generalize (if Text.startsWith line "!" then "!" else "") = mark
    rcases eitherStars with rfl | rfl
    · exact ⟨mark.toList ++ (joinWith "/" directory).toList, by simp [scope, String.toList_append]⟩
    · exact ⟨mark.toList ++ (joinWith "/" directory).toList ++ ['/', '*', '*'], by simp [scope, String.toList_append]⟩
  refine ⟨_, getLast?_of_suffix slash List.getLast?_cons, ?_⟩
  cases isLast : behind.getLast? with
  | none => decide
  | some d =>
      have ofPattern := getLast?_of_suffix suffix isLast
      rw [List.getLast?_map] at ofPattern
      obtain ⟨e, isLastOfPattern, rfl⟩ := Option.map_eq_some_iff.1 ofPattern
      obtain ⟨c, isLastOfLine, notBlank⟩ := clean.solid
      have same : c = e := Option.some.inj (isLastOfLine.symm.trans (getLast?_of_suffix (bare_suffix line) isLastOfPattern))
      rw [same] at notBlank
      show isBlank (if e = '\\' then '/' else e) = false
      split
      · decide
      · exact notBlank

end Changed

/-!
### Rules
-/

namespace Rule

variable {directory : List String} {line : String} {r changed : Rule} {cs : List Char}

/-- The rule of a line has the sign of the line and the matcher of its pattern. -/
theorem of_parse (clean : PatternLine line) (notSlash : line ≠ "/") (parsed : Rule.parse line = .ok r) :
    r.negated = Text.startsWith line "!" ∧ Matcher.parse line (bare line) = .ok r.matcher := by
  rw [Rule.parse_eq clean notSlash] at parsed
  cases found : Matcher.parse line (bare line) with
  | error e =>
      rw [found] at parsed
      cases parsed
  | ok m =>
      rw [found] at parsed
      cases parsed
      exact ⟨rfl, rfl⟩

/-- What a changed line matches is matched behind the directory by the segments that its pattern follows from
    there. -/
theorem accepts_of_scoped (literal : LiteralDirectory directory) (clean : PatternLine line)
    (parsed : Rule.parse (scopeLine (scope directory) line) = .ok changed) {parts : List String} (some : parts ≠ [])
    (follows : segments (scopePattern (bare line) (scope directory)) = directory ++ parts) :
    changed.negated = Text.startsWith line "!" ∧
      ∀ cs, changed.matcher.accepts cs = true ↔
        ∃ behind, cs = (joinWith "/" directory).toList ++ '/' :: behind ∧
          accepts (patternPieces (collapseStars parts)) behind = true := by
  obtain ⟨sameSign, samePattern, notSlash, _⟩ := scopeLine_marked literal line
  obtain ⟨sign, matcher⟩ := of_parse (scopeLine_clean literal clean) notSlash parsed
  rw [samePattern] at matcher
  have collapsed : collapseStars (segments (scopePattern (bare line) (scope directory))) =
      directory ++ collapseStars parts := by
    rw [follows, collapseStars_plain literal.plain]
  refine ⟨sign.trans sameSign, ?_⟩
  intro cs
  rw [Matcher.accepts_of_parse_names matcher, collapsed]
  · exact accepts_below literal.plain literal.below (collapseStars_ne_nil some) fun t rest => collapseStars_next
  · intro rest
    rw [collapsed]
    obtain ⟨s, others, same⟩ := List.exists_cons_of_ne_nil literal.below
    have plain : ∀ c ∈ s.toList, isSpecial c = false := literal.plain s (by rw [same]; exact List.mem_cons_self)
    rw [same]
    intro stars
    exact (ne_of_plain plain).1 (List.cons.inj stars).1

/-- A changed rule matches nothing outside the directory. -/
theorem below (literal : LiteralDirectory directory) (clean : PatternLine line) (names : Names (bare line))
    (parsed : Rule.parse (scopeLine (scope directory) line) = .ok changed) (accepted : changed.matcher.accepts cs = true) :
    ∃ behind, cs = (joinWith "/" directory).toList ++ '/' :: behind := by
  obtain ⟨stars, behind, _, _, parts, some⟩ := scopePattern_parts (bare line) (scope directory)
  have follows := segments_scope literal (some names)
  rw [← parts] at follows
  have matched := (accepts_of_scoped literal clean parsed (closed_ne_nil (Text.split_ne_nil _)) follows).2 cs
  obtain ⟨rest, text, _⟩ := matched.1 accepted
  exact ⟨rest, text⟩

/-- Behind the directory, a changed rule matches what the rule matches alone, and it has the same sign. -/
theorem behind (literal : LiteralDirectory directory) (clean : PatternLine line) (portable : Portable (bare line))
    (parsed : Rule.parse line = .ok r) (parsedChanged : Rule.parse (scopeLine (scope directory) line) = .ok changed) :
    changed.negated = r.negated ∧ ∀ cs, Regular cs →
      changed.matcher.accepts ((joinWith "/" directory).toList ++ '/' :: cs) = r.matcher.accepts cs := by
  have notSlash : line ≠ "/" := by
    rintro rfl
    exact portable.notBare (by decide)
  obtain ⟨sign, matcher⟩ := of_parse clean notSlash parsed
  have some : bare line ≠ "" := by
    intro empty
    rw [empty] at matcher
    cases matcher
  obtain ⟨parts, someParts, follows, same⟩ := carries_scopePattern literal portable some
  obtain ⟨signChanged, matched⟩ := accepts_of_scoped literal clean parsedChanged someParts follows
  refine ⟨signChanged.trans sign.symm, ?_⟩
  intro cs regular
  rw [Matcher.accepts_of_parse matcher portable.notBare regular, ← same cs regular]
  apply Bool.eq_iff_iff.2
  rw [matched]
  constructor
  · rintro ⟨behind, text, accepted⟩
    cases List.append_cancel_left text
    exact accepted
  · intro accepted
    exact ⟨cs, rfl, accepted⟩

end Rule

/-!
### Lists of rules
-/

section Rules

variable {rules changed : List Rule} {path path' : List Char}

theorem ignored_eq (rules : List Rule) (path : List Char) :
    ignored rules path = ((rules.reverse.find? fun r => r.matcher.accepts path).map (!·.negated)).getD false := by
  unfold ignored
  cases rules.reverse.find? fun r => r.matcher.accepts path <;> rfl

/-- Rules with the same signs that match the same decide the same. -/
theorem ignored_congr
    (alike : List.Forall₂ (fun r r' => r'.negated = r.negated ∧ r'.matcher.accepts path' = r.matcher.accepts path)
      rules changed) : ignored changed path' = ignored rules path := by
  rw [ignored_eq, ignored_eq]
  have backwards := List.forall₂_reverse_iff.2 alike
  generalize rules.reverse = rs at backwards
  generalize changed.reverse = rs' at backwards
  induction backwards with
  | nil => rfl
  | cons same _ ih =>
      obtain ⟨sign, accepts⟩ := same
      rw [List.find?_cons, List.find?_cons, accepts]
      split
      · rw [Option.map_some, Option.map_some, sign]
      · exact ih

/-- A path is ignored only if some rule matches it. -/
theorem exists_accepts_of_ignored (isIgnored : ignored rules path = true) : ∃ r ∈ rules, r.matcher.accepts path = true := by
  rw [ignored_eq] at isIgnored
  cases found : rules.reverse.find? fun r => r.matcher.accepts path with
  | none =>
      rw [found] at isIgnored
      cases isIgnored
  | some r =>
      have accepted := List.find?_some found
      exact ⟨r, List.mem_reverse.1 (List.mem_of_find?_eq_some found), accepted⟩

section Related

variable {α β γ : Type} {R : α → β → Prop} {S : α → γ → Prop} {T : β → γ → Prop} {as : List α} {bs : List β}
  {ds : List γ}

theorem exists_of_forall₂ (related : List.Forall₂ R as bs) {b : β} (mem : b ∈ bs) : ∃ a ∈ as, R a b := by
  induction related with
  | nil => cases mem
  | cons first _ ih =>
      rcases List.mem_cons.1 mem with rfl | further
      · exact ⟨_, List.mem_cons_self, first⟩
      · obtain ⟨a, among, holds⟩ := ih further
        exact ⟨a, List.mem_cons_of_mem _ among, holds⟩

/-- What is made of the same elements in two ways is related element by element. -/
theorem forall₂_of_common (left : List.Forall₂ R as bs) (right : List.Forall₂ S as ds)
    (each : ∀ a ∈ as, ∀ b d, R a b → S a d → T b d) : List.Forall₂ T bs ds := by
  induction left generalizing ds with
  | nil =>
      cases right
      exact .nil
  | cons first _ ih =>
      cases right with
      | cons firstRight others =>
          obtain ⟨here, further⟩ := List.forall_mem_cons.1 each
          exact .cons (here _ _ first firstRight) (ih others further)

end Related

/-- Rules are read line by line. -/
theorem forall₂_of_parseRules {lines : List String} (parsed : parseRules lines = .ok rules) :
    List.Forall₂ (fun line r => Rule.parse line = .ok r) lines rules := by
  unfold parseRules at parsed
  induction lines generalizing rules with
  | nil =>
      cases parsed
      exact .nil
  | cons line lines ih =>
      rw [List.mapM_cons] at parsed
      cases first : Rule.parse line with
      | error e =>
          rw [first] at parsed
          cases parsed
      | ok r =>
          cases others : lines.mapM Rule.parse with
          | error e =>
              rw [first, others] at parsed
              cases parsed
          | ok rs =>
              rw [first, others] at parsed
              cases parsed
              exact .cons first (ih others)

end Rules

/-!
### Paths
-/

section Paths

variable {directory : List String} {path : String} {rules : List Rule}

/-- The components of a path that count are names without slashes. -/
theorem pathComponents_named (path : String) : ∀ s ∈ pathComponents path, s ≠ "" ∧ s ≠ "." ∧ '/' ∉ s.toList := by
  intro s mem
  obtain ⟨among, named⟩ := List.mem_filter.1 mem
  simp only [ne_eq, decide_not, Bool.and_eq_true, Bool.not_eq_true', decide_eq_false_iff_not] at named
  exact ⟨named.1, named.2, Text.slashFree_split path s among⟩

theorem regular_joinWith {names : List String} (some : names ≠ []) (named : ∀ s ∈ names, s ≠ "" ∧ '/' ∉ s.toList) :
    Regular (joinWith "/" names).toList := by
  intro empty
  have pieces : split '/' (joinWith "/" names) = names := Text.split_joinWith some fun s mem => (named s mem).2
  have among : "" ∈ split '/' (joinWith "/" names) := List.mem_map.2 ⟨[], empty, rfl⟩
  rw [pieces] at among
  exact (named "" among).1 rfl

/-- The path below a directory has the components of the directory and its own. -/
theorem pathComponents_scope (literal : LiteralDirectory directory) (path : String) :
    pathComponents (scope directory ++ path) = directory ++ pathComponents path := by
  unfold pathComponents
  rw [scope, Text.split_append, Text.split_joinWith literal.below literal.slashFree, List.filter_append]
  congr 1
  apply List.filter_eq_self.2
  intro s mem
  obtain ⟨some, notDot⟩ := literal.named s mem
  simp [some, notDot]

/-- A path in plain form, as rules are applied to it. -/
def plainPath (path : String) : List Char :=
  let plain := (normalizePath path).toList
  if plain.head? = some '/' then plain.drop 1 else plain

/-- The names of a path, joined with slashes, begin with a name. -/
theorem joined_cons (some : pathComponents path ≠ []) :
    ∃ c rest, c ≠ '/' ∧ (joinWith "/" (pathComponents path)).toList = c :: rest := by
  have named := pathComponents_named path
  exact (regular_joinWith some fun s mem => ⟨(named s mem).1, (named s mem).2.2⟩).cons

theorem joined_ne_empty (some : pathComponents path ≠ []) : joinWith "/" (pathComponents path) ≠ "" := by
  obtain ⟨c, rest, _, text⟩ := joined_cons some
  intro empty
  rw [empty] at text
  cases text

/-- The plain form of a relative path is its names joined with slashes. -/
theorem plainPath_of_relative (relative : path.toList.head? ≠ some '/') (some : pathComponents path ≠ []) :
    plainPath path = (joinWith "/" (pathComponents path)).toList := by
  obtain ⟨c, rest, notSlash, text⟩ := joined_cons some
  have noSlashes : path.toList.takeWhile (· = '/') = [] := by
    cases chars : path.toList with
    | nil => rfl
    | cons d ds =>
        rw [chars] at relative
        exact List.takeWhile_cons_of_neg (by simpa using relative)
  have normal : normalizePath path = joinWith "/" (pathComponents path) := by
    simp [normalizePath, noSlashes, joined_ne_empty some]
  simp [plainPath, normal, text, notSlash]

/-- The plain form of any path is its names joined with slashes, or a dot, or it begins with a slash. -/
theorem plainPath_eq (path : String) :
    plainPath path = (joinWith "/" (pathComponents path)).toList ∨ plainPath path = ['.'] ∨
      (plainPath path).head? = some '/' := by
  unfold plainPath normalizePath
  dsimp only
  generalize (path.toList.takeWhile (· = '/')).length = slashes
  by_cases none : pathComponents path = []
  · have empty : joinWith "/" (pathComponents path) = "" := by
      rw [none]
      rfl
    rw [empty]
    split
    · exact .inr (.inl rfl)
    · split
      · exact .inr (.inr rfl)
      · exact .inl rfl
  · obtain ⟨c, rest, notSlash, text⟩ := joined_cons none
    split
    · left
      simp [joined_ne_empty none, text, notSlash]
    · split
      · right; right
        simp [String.toList_append]
      · left
        simp [String.toList_append]

end Paths

/-!
### Files
-/

/-- The lines of an ignore file that state a pattern. -/
def fileLines (content : ByteArray) : List String := patternLines (Text.Utf8.decodeReplacing content.data.toList)

section Files

variable {directory : List String} {content : ByteArray} {rules nested : List Rule}

/-- The rules of a file at the top are read line by line. -/
theorem parseFile_top (parsed : parseFile [] content = .ok rules) :
    List.Forall₂ (fun line r => Rule.parse line = .ok r) (fileLines content) rules :=
  forall₂_of_parseRules parsed

/-- The rules of a file further down are read line by line from the scoped lines. -/
theorem parseFile_nested (literal : LiteralDirectory directory) (parsed : parseFile directory content = .ok nested) :
    List.Forall₂ (fun line r => Rule.parse (scopeLine (scope directory) line) = .ok r) (fileLines content) nested := by
  have some : directory.isEmpty = false := by
    rw [← Bool.not_eq_true, List.isEmpty_iff]
    exact literal.below
  rw [parseFile, scopedLines, some] at parsed
  exact List.forall₂_map_left_iff.1 (forall₂_of_parseRules parsed)

/-- The rules of a nested file ignore nothing outside its directory. -/
theorem below_of_ignoresPath (literal : LiteralDirectory directory) (parsed : parseFile directory content = .ok nested)
    (names : ∀ line ∈ fileLines content, Names (bare line)) {path : String} (isIgnored : ignoresPath nested path = true) :
    ∃ behind, behind ≠ [] ∧ pathComponents path = directory ++ behind := by
  have isIgnored : ignored nested (plainPath path) = true := isIgnored
  obtain ⟨r, among, accepted⟩ := exists_accepts_of_ignored isIgnored
  obtain ⟨line, mem, parsedLine⟩ := exists_of_forall₂ (parseFile_nested literal parsed) among
  obtain ⟨behind, text⟩ := Rule.below literal (patternLine_of_mem mem) (names line mem) parsedLine accepted
  obtain ⟨c, rest, front, _, _, notSlash⟩ := scope_head literal
  have scopeText : plainPath path = (scope directory ++ String.ofList behind).toList := by
    rw [text]
    simp [scope, String.toList_append]
  rcases plainPath_eq path with joined | dot | slash
  · rw [joined] at scopeText
    have pieces := congrArg (split '/') (String.toList_inj.1 scopeText)
    have some : pathComponents path ≠ [] := by
      intro none
      rw [none, String.toList_append, front] at scopeText
      cases scopeText
    rw [Text.split_joinWith some fun s mem => (pathComponents_named path s mem).2.2, scope, Text.split_append,
      Text.split_joinWith literal.below literal.slashFree] at pieces
    exact ⟨_, Text.split_ne_nil _, pieces⟩
  · have slash : '/' ∈ plainPath path := by
      rw [text]
      exact List.mem_append_right _ List.mem_cons_self
    rw [dot] at slash
    exact absurd slash (by decide)
  · rw [scopeText, String.toList_append, front] at slash
    exact absurd (Option.some.inj slash) notSlash

/-- The rules of a nested file ignore below its directory what the rules of the file alone ignore. -/
theorem ignoresPath_scope (literal : LiteralDirectory directory) (parsed : parseFile [] content = .ok rules)
    (parsedNested : parseFile directory content = .ok nested)
    (portable : ∀ line ∈ fileLines content, Portable (bare line)) {path : String}
    (relative : path.toList.head? ≠ some '/') (some : pathComponents path ≠ []) :
    ignoresPath nested (scope directory ++ path) = ignoresPath rules path := by
  obtain ⟨c, rest, front, _, _, notSlash⟩ := scope_head literal
  have relativeScope : (scope directory ++ path).toList.head? ≠ Option.some '/' := by
    rw [String.toList_append, front]
    simpa using notSlash
  have components := pathComponents_scope literal path
  have someScope : pathComponents (scope directory ++ path) ≠ [] := by
    rw [components]
    exact List.append_ne_nil_of_right_ne_nil _ some
  have plain := plainPath_of_relative relative some
  have plainScope : plainPath (scope directory ++ path) = (joinWith "/" directory).toList ++ '/' :: plainPath path := by
    rw [plainPath_of_relative relativeScope someScope, components, Text.joinWith_append "/" literal.below some, plain,
      String.toList_append, String.toList_append, List.append_assoc]
    rfl
  have regular : Regular (plainPath path) := by
    rw [plain]
    exact regular_joinWith some fun s mem => ⟨(pathComponents_named path s mem).1, (pathComponents_named path s mem).2.2⟩
  show ignored nested (plainPath (scope directory ++ path)) = ignored rules (plainPath path)
  rw [plainScope]
  apply ignored_congr
  apply forall₂_of_common (parseFile_top parsed) (parseFile_nested literal parsedNested)
  intro line mem r r' parsedLine parsedChanged
  obtain ⟨sign, accepts⟩ := Rule.behind literal (patternLine_of_mem mem) (portable line mem) parsedLine parsedChanged
  exact ⟨sign, accepts _ regular⟩

/-- Reading an ignore file for its place is translation. Below a directory whose name means itself, the rules of the
    file ignore what the rules of the file alone ignore, if its patterns have no escapes and are not bare slashes; and
    they ignore nothing elsewhere, if its patterns name something. -/
theorem ignoresPath_nested (literal : LiteralDirectory directory) (parsed : parseFile [] content = .ok rules)
    (parsedNested : parseFile directory content = .ok nested) :
    ((∀ line ∈ fileLines content, Portable (bare line)) →
        ∀ path : String, path.toList.head? ≠ some '/' → pathComponents path ≠ [] →
          ignoresPath nested (scope directory ++ path) = ignoresPath rules path) ∧
      ((∀ line ∈ fileLines content, Names (bare line)) →
        ∀ path : String, ignoresPath nested path = true →
          ∃ behind, behind ≠ [] ∧ pathComponents path = directory ++ behind) := by
  constructor
  · intro portable path relative some
    exact ignoresPath_scope literal parsed parsedNested portable relative some
  · intro names path isIgnored
    exact below_of_ignoresPath literal parsedNested names isIgnored

end Files

/-- Three patterns: one for every directory, one for the file's own, one taken back. -/
def sampleFile : ByteArray := "*.ts\n/a.js\n!k.ts\n".toUTF8

/-- The rules of the three patterns, behind pieces for a directory and for what lies in between. -/
def sampleRules (own anywhere : List Piece) : List Rule :=
  [⟨false, .pieces (anywhere ++ .many :: ".ts".toList.map .char ++ [.ending])⟩,
    ⟨false, .pieces (own ++ "a.js".toList.map .char ++ [.ending])⟩,
    ⟨true, .pieces (anywhere ++ "k.ts".toList.map .char ++ [.ending])⟩]

/-- A file of three patterns, at the top and in a directory two levels down: below the directory it ignores what it
    ignores below the top, and the last pattern takes a file back. -/
theorem ignoresPath_nested_sample :
    ∃ rules nested, parseFile [] sampleFile = .ok rules ∧ parseFile ["lib", "a b"] sampleFile = .ok nested ∧
      ignoresPath nested "lib/a b/src/x.ts" = ignoresPath rules "src/x.ts" ∧
      ignoresPath rules "src/x.ts" = true ∧ ignoresPath nested "lib/a b/k.ts" = false ∧
      ∃ behind, behind ≠ [] ∧ pathComponents "lib/a b/src/x.ts" = ["lib", "a b"] ++ behind := by
  let rules := sampleRules [] [.leading]
  let nested := sampleRules ("lib/a b/".toList.map .char) ("lib/a b".toList.map .char ++ [.inner, .char '/'])
  have parsed : parseFile [] sampleFile = .ok rules := by decide +kernel
  have parsedNested : parseFile ["lib", "a b"] sampleFile = .ok nested := by decide +kernel
  obtain ⟨translated, contained⟩ := ignoresPath_nested (by decide +kernel) parsed parsedNested
  have same := translated (by decide +kernel) "src/x.ts" (by decide +kernel) (by decide +kernel)
  have isIgnored : ignoresPath nested "lib/a b/src/x.ts" = true := by decide +kernel
  have below := contained (by decide +kernel) "lib/a b/src/x.ts" isIgnored
  exact ⟨rules, nested, parsed, parsedNested, same, by decide +kernel, by decide +kernel, below⟩

/-- Brackets in the name of a directory are read as a class: the rules of the file in the directory miss the file that
    it names, and ignore one in another directory. -/
theorem strayed_bracketDirectory :
    ∃ rules nested, parseFile [] "f".toUTF8 = .ok rules ∧ parseFile ["[id]"] "f".toUTF8 = .ok nested ∧
      ignoresPath rules "f" = true ∧ ignoresPath nested (scope ["[id]"] ++ "f") = false ∧
      ignoresPath nested "i/f" = true ∧ ¬∃ behind, pathComponents "i/f" = ["[id]"] ++ behind := by
  refine ⟨[⟨false, .pieces [.leading, .char 'f', .ending]⟩],
    [⟨false, .pieces [.oneOf ⟨false, "id".toList⟩, .inner, .char '/', .char 'f', .ending]⟩],
    by decide +kernel, by decide +kernel, by decide +kernel, by decide +kernel, by decide +kernel, ?_⟩
  rintro ⟨behind, parts⟩
  have first : (pathComponents "i/f").head? = some "[id]" := by
    rw [parts]
    rfl
  exact absurd first (by decide +kernel)

end Outline.Ignore
