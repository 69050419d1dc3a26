/-
Module: Outline.Ignore.Pattern
Layer: Ignore
Purpose: Ignore patterns: how one is read and which paths it matches. A pattern becomes a list of pieces that are
  matched from the start of the path; each piece says which remainders it can leave, and a pattern matches when
  its pieces can be matched one after the other, whatever is left in the end.
Main exports: CharClass, Piece, Piece.remainders, matchesFrom, PatternError, Matcher, Rule, Rule.parse
-/
import Outline.Text.Blank
import Outline.Text.Quoted

namespace Outline.Ignore

/-!
### Character classes
-/

/-- Bounds of the characters that the body of a class covers, piece by piece. A dash between two characters makes
    a range of them. -/
def classRanges : List Char → List (Char × Char)
  | lo :: '-' :: hi :: rest => (lo, hi) :: classRanges rest
  | c :: rest => (c, c) :: classRanges rest
  | [] => []

/-- A set of characters, written between brackets. -/
structure CharClass where
  negated : Bool
  body : List Char
deriving DecidableEq, Repr, Inhabited

/-- Is no range of the class reversed? -/
def CharClass.isOrdered (k : CharClass) : Bool := (classRanges k.body).all fun (lo, hi) => lo ≤ hi

/-- Is a character in the class? -/
def CharClass.covers (k : CharClass) (c : Char) : Bool :=
  ((classRanges k.body).any fun (lo, hi) => lo ≤ c && c ≤ hi) != k.negated

/-!
### Pieces
-/

/-- A part of a pattern. -/
inductive Piece where
  /-- This character. -/
  | char (c : Char)
  /-- A character of a class, which may be a slash. -/
  | oneOf (k : CharClass)
  /-- Any character but a slash. -/
  | one
  /-- Any characters but slashes, also none. -/
  | many
  /-- Any characters but slashes, at least one. -/
  | some
  /-- Any directories in front, also none. -/
  | leading
  /-- Any directories in between, also none. -/
  | inner
  /-- The end of the path, or of a directory in it. -/
  | ending
deriving DecidableEq, Repr, Inhabited

/-- The remainders after dropping characters that satisfy `p`, from none of them to all. -/
def tailsWhile (p : Char → Bool) : List Char → List (List Char)
  | [] => [[]]
  | c :: cs => (c :: cs) :: (if p c then tailsWhile p cs else [])

/-- The remainders of some text on one line, at least one character long. -/
def afterText : List Char → List (List Char)
  | [] => []
  | c :: cs => if c = '\n' then [] else tailsWhile (· ≠ '\n') cs

/-- The remainder behind a slash, if one stands here. -/
def afterSlash? : List Char → Option (List Char)
  | '/' :: rest => some rest
  | _ => none

/-- What can be left of a text when a piece is matched at its front. -/
def Piece.remainders : Piece → List Char → List (List Char)
  | .char c, d :: rest => if c = d then [rest] else []
  | .oneOf k, d :: rest => if k.covers d then [rest] else []
  | .one, d :: rest => if d = '/' then [] else [rest]
  | .char _, [] | .oneOf _, [] | .one, [] | .some, [] => []
  | .many, cs => tailsWhile (· ≠ '/') cs
  | .some, d :: rest => if d = '/' then [] else tailsWhile (· ≠ '/') rest
  | .leading, cs => cs :: (afterText cs).filterMap afterSlash?
  | .inner, cs =>
    cs :: match afterSlash? cs with
      | Option.some rest => afterText rest
      | none => []
  | .ending, cs =>
    match cs with
    | [] => [[]]
    | '/' :: rest => [rest]
    -- A line feed at the very end does not count.
    | ['\n'] => [['\n']]
    | _ => []

/-- Can the pieces be matched one after the other from the start of a text? -/
def matchesFrom : List Piece → List Char → Bool
  | [], _ => true
  | p :: ps, cs => (p.remainders cs).any (matchesFrom ps)

/-!
### Reading patterns
-/

/-- What is wrong with a pattern. -/
inductive PatternError where
  /-- It names nothing, or ends in an escape of nothing. -/
  | malformed (pattern : String)
  /-- A range of characters is reversed. -/
  | reversedRange
deriving DecidableEq, Repr, Inhabited

/-- Wording of a pattern error. -/
def PatternError.message : PatternError → String
  | .malformed pattern => "Invalid git pattern: " ++ Text.quoted pattern
  | .reversedRange => "bad character range"

/-- Why a segment could not be read to its end. -/
inductive SegmentStop where
  /-- A bracket is not closed. -/
  | unclosedBracket
  /-- An escape stands at the end. -/
  | danglingEscape
deriving DecidableEq, Repr, Inhabited

/-- The mark of negation at the start of a class, if it is there, and the rest. -/
def classSign : List Char → Bool × List Char
  | '!' :: rest => (true, rest)
  | '^' :: rest => (true, rest)
  | rest => (false, rest)

/-- A closing bracket at the start of a class, where it is one of its characters, and the rest. -/
def classFirst : List Char → List Char × List Char
  | ']' :: rest => ([']'], rest)
  | rest => ([], rest)

/-- The class after an opening bracket and what follows it, if the bracket is closed. -/
def splitClass (cs : List Char) : Option (CharClass × List Char) :=
  let (negated, unsigned) := classSign cs
  let (first, rest) := classFirst unsigned
  match rest.dropWhile (· ≠ ']') with
  | _ :: after => some (⟨negated, first ++ rest.takeWhile (· ≠ ']')⟩, after)
  | [] => none

theorem classSign_length (cs : List Char) : (classSign cs).2.length ≤ cs.length := by
  unfold classSign; split <;> simp

theorem classFirst_length (cs : List Char) : (classFirst cs).2.length ≤ cs.length := by
  unfold classFirst; split <;> simp

/-- What follows a class is not longer than the text it was read from. -/
theorem splitClass_length {cs after : List Char} {k : CharClass} (h : splitClass cs = some (k, after)) :
    after.length ≤ cs.length := by
  have sign := classSign_length cs
  have first := classFirst_length (classSign cs).2
  have drop := ((classFirst (classSign cs).2).2.dropWhile_sublist (· ≠ ']')).length_le
  simp only [splitClass] at h
  split at h
  · next heq =>
    cases h
    simp only [heq, List.length_cons] at drop
    omega
  · cases h

/-- The pieces of one segment. -/
def segmentPieces : List Char → Except SegmentStop (List Piece)
  | [] => .ok []
  | c :: cs =>
    if c = '\\' then
      match cs with
      | d :: rest => do return .char d :: (← segmentPieces rest)
      | [] => .error .danglingEscape
    else if c = '*' then do return .many :: (← segmentPieces cs)
    else if c = '?' then do return .one :: (← segmentPieces cs)
    else if c = '[' then
      match _closed : splitClass cs with
      | some (k, after) => do return .oneOf k :: (← segmentPieces after)
      | none => .error .unclosedBracket
    else do return .char c :: (← segmentPieces cs)
termination_by cs => cs.length
decreasing_by
  all_goals try have := splitClass_length _closed
  all_goals simp_all only [List.length_cons]
  all_goals omega

/-- The segments of a pattern without its negation. A leading slash ties the pattern to its directory; a single
    segment, also with a slash behind it, is looked for in all directories; a slash at the end stands for what is
    inside. -/
def segments (pattern : String) : List String :=
  let raw := Text.split '/' pattern
  let tied := match raw with
    | "" :: rest => rest
    | [s] => if s = "**" then raw else "**" :: raw
    | [s, ""] => if s = "**" then raw else "**" :: raw
    | _ => raw
  if tied.getLast? = some "" then tied.dropLast ++ ["**"] else tied

/-- Segments without repeated `**`. -/
def collapseStars : List String → List String
  | "**" :: "**" :: rest => collapseStars ("**" :: rest)
  | s :: rest => s :: collapseStars rest
  | [] => []

/-- The pieces of the segments after the first. `needsSlash` tells whether a slash stands before the next. -/
def piecesFrom (needsSlash : Bool) : List String → Except SegmentStop (List Piece)
  | [] => .ok []
  | s :: rest =>
    if s = "**" then
      if rest.isEmpty then .ok [.char '/']
      else do return .inner :: (← piecesFrom true rest)
    else do
      let own ← if s = "*" then pure [Piece.some] else segmentPieces s.toList
      let after ← piecesFrom true rest
      return (if needsSlash then [.char '/'] else []) ++ own ++ (if rest.isEmpty then [.ending] else after)

/-- The pieces of a pattern. -/
def patternPieces : List String → Except SegmentStop (List Piece)
  | "**" :: rest => do return .leading :: (← piecesFrom false rest)
  | all => piecesFrom false all

/-- Which paths a pattern matches. -/
inductive Matcher where
  | nothing
  | everything
  /-- Every path with a directory in it. -/
  | nested
  | pieces (ps : List Piece)
deriving DecidableEq, Repr, Inhabited

/-- Does the matcher accept a path? -/
def Matcher.accepts (m : Matcher) (path : List Char) : Bool :=
  match m with
  | .nothing => false
  | .everything => true
  | .nested => path.contains '/'
  | .pieces ps => matchesFrom ps path

/-- Is no range of any class reversed? -/
def piecesOrdered (ps : List Piece) : Bool :=
  ps.all fun
    | .oneOf k => k.isOrdered
    | _ => true

/-- The matcher of a pattern without its negation; `whole` is the pattern as written. -/
def Matcher.parse (whole pattern : String) : Except PatternError Matcher :=
  match collapseStars (segments pattern) with
  | [] => .error (.malformed whole)
  | ["**"] => .ok (if Text.endsWith pattern "/" then .nested else .everything)
  | ["**", "*"] => .ok .everything
  | ["**", "*", "**"] => .ok .nested
  | parts =>
    match patternPieces parts with
    | .error .danglingEscape => .error (.malformed whole)
    | .error .unclosedBracket => .ok .nothing
    | .ok ps => if piecesOrdered ps then .ok (.pieces ps) else .error .reversedRange

/-- An ignore rule: which paths it is about, and whether it takes them back. -/
structure Rule where
  negated : Bool
  matcher : Matcher
deriving DecidableEq, Repr, Inhabited

/-- The rule that a pattern states. Comments, a bare slash and nothing at all match nothing. -/
def Rule.parse (line : String) : Except PatternError Rule := do
  let pattern := if Text.endsWith line "\\ " then line else Text.trimEnd line
  if pattern = "" || pattern = "/" || Text.startsWith pattern "#" then return ⟨false, .nothing⟩
  else if Text.startsWith pattern "!" then
    return ⟨true, ← Matcher.parse pattern (Text.dropFirst 1 pattern)⟩
  else return ⟨false, ← Matcher.parse pattern pattern⟩

end Outline.Ignore
