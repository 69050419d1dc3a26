/-
Module: Outline.Proofs.Ignore.Matching
Layer: Proofs
Purpose: What it takes to match pieces from the start of a text. Each piece leaves an end of the text, literal
  characters leave what stands behind them, and directories in between followed by a slash match behind a slash
  exactly what directories in front match.
Main exports: matchesFrom_literal, matchesFrom_inner, Regular, matchesFrom_shallow, matchesFrom_deep,
  suffix_of_matchesFrom
-/
import Mathlib.Data.List.TakeWhile
import Outline.Ignore.Pattern
import Outline.Proofs.Text.Split

namespace Outline.Ignore

open Text (splitOn)

variable {p : Piece} {ps qs : List Piece} {cs rest : List Char}

/-!
### Single pieces
-/

/-- Pieces match if the first leaves a rest that the others match. -/
theorem matchesFrom_cons : matchesFrom (p :: ps) cs = true ↔ ∃ rest ∈ p.remainders cs, matchesFrom ps rest = true := by
  rw [matchesFrom, List.any_eq_true]

theorem matchesFrom_char {c : Char} :
    matchesFrom (.char c :: ps) cs = true ↔ ∃ rest, cs = c :: rest ∧ matchesFrom ps rest = true := by
  rw [matchesFrom_cons]
  cases cs with
  | nil => simp [Piece.remainders]
  | cons d cs =>
      by_cases same : c = d
      · simp [Piece.remainders, same]
      · simp [Piece.remainders, same, Ne.symm same]

/-- Literal characters match themselves. -/
theorem matchesFrom_literal {text : List Char} :
    matchesFrom (text.map .char ++ ps) cs = true ↔ ∃ rest, cs = text ++ rest ∧ matchesFrom ps rest = true := by
  induction text generalizing cs with
  | nil => simp
  | cons c text ih =>
      rw [List.map_cons, List.cons_append, matchesFrom_char]
      constructor
      · rintro ⟨behind, rfl, further⟩
        obtain ⟨rest, rfl, matched⟩ := ih.1 further
        exact ⟨rest, rfl, matched⟩
      · rintro ⟨rest, rfl, matched⟩
        exact ⟨text ++ rest, rfl, ih.2 ⟨rest, rfl, matched⟩⟩

theorem afterSlash?_eq_some_iff : afterSlash? cs = some rest ↔ cs = '/' :: rest := by
  unfold afterSlash?
  split
  next => simp
  next other =>
    simp only [reduceCtorEq, false_iff]
    rintro rfl
    exact other rest rfl

/-- A leading double star matches at the start, or behind some slash. -/
theorem matchesFrom_leading :
    matchesFrom (.leading :: ps) cs = true ↔
      matchesFrom ps cs = true ∨ ∃ t ∈ afterText cs, ∃ rest, t = '/' :: rest ∧ matchesFrom ps rest = true := by
  rw [matchesFrom_cons]
  simp only [Piece.remainders, List.mem_cons, List.mem_filterMap, afterSlash?_eq_some_iff, exists_eq_or_imp]
  apply or_congr_right
  constructor
  · rintro ⟨rest, ⟨t, among, behind⟩, matched⟩
    exact ⟨t, among, rest, behind, matched⟩
  · rintro ⟨t, among, rest, behind, matched⟩
    exact ⟨rest, ⟨t, among, behind⟩, matched⟩

/-- Directories in between, with a slash behind them, match behind a slash what directories in front match. -/
theorem matchesFrom_inner :
    matchesFrom (.inner :: .char '/' :: ps) cs = true ↔
      ∃ rest, cs = '/' :: rest ∧ matchesFrom (.leading :: ps) rest = true := by
  rw [matchesFrom_cons]
  simp only [matchesFrom_char, matchesFrom_leading, Piece.remainders]
  cases cs with
  | nil => simp [afterSlash?]
  | cons d cs =>
      by_cases slash : d = '/'
      · subst slash
        simp [afterSlash?]
      · have other : '/' ≠ d := Ne.symm slash
        simp_all [afterSlash?]

/-!
### Remainders
-/

theorem suffix_of_mem_tailsWhile {q : Char → Bool} (mem : rest ∈ tailsWhile q cs) : rest <:+ cs := by
  induction cs with
  | nil =>
      rw [tailsWhile, List.mem_singleton] at mem
      exact mem ▸ List.suffix_rfl
  | cons c cs ih =>
      rw [tailsWhile, List.mem_cons] at mem
      rcases mem with rfl | further
      · exact List.suffix_rfl
      · split at further
        · exact (ih further).trans (List.suffix_cons c cs)
        · cases further

theorem dropWhile_mem_tailsWhile (q : Char → Bool) (cs : List Char) : cs.dropWhile q ∈ tailsWhile q cs := by
  induction cs with
  | nil => exact List.mem_singleton_self _
  | cons c cs ih =>
      rw [tailsWhile, List.dropWhile_cons]
      split
      · exact List.mem_cons_of_mem _ ih
      · exact List.mem_cons_self

theorem suffix_of_mem_afterText (mem : rest ∈ afterText cs) : rest <:+ cs := by
  cases cs with
  | nil => cases mem
  | cons c cs =>
      rw [afterText] at mem
      split at mem
      · cases mem
      · exact (suffix_of_mem_tailsWhile mem).trans (List.suffix_cons c cs)

theorem suffix_of_afterSlash? (found : afterSlash? cs = some rest) : rest <:+ cs := by
  rw [afterSlash?_eq_some_iff.1 found]
  exact List.suffix_cons _ _

/-- A piece leaves an end of the text. -/
theorem Piece.suffix_of_mem_remainders (mem : rest ∈ p.remainders cs) : rest <:+ cs := by
  have single : ∀ {b : Prop} [Decidable b] {d : Char} {ds : List Char},
      rest ∈ (if b then [ds] else []) → rest <:+ d :: ds := by
    intro b _ d ds mem
    split at mem
    · rw [List.mem_singleton.1 mem]
      exact List.suffix_cons d ds
    · cases mem
  cases p with
  | char c =>
      cases cs with
      | nil => cases mem
      | cons d cs => exact single mem
  | oneOf k =>
      cases cs with
      | nil => cases mem
      | cons d cs => exact single mem
  | one =>
      cases cs with
      | nil => cases mem
      | cons d cs =>
          rw [remainders, ← ite_not] at mem
          exact single mem
  | many => exact suffix_of_mem_tailsWhile mem
  | some =>
      cases cs with
      | nil => cases mem
      | cons d cs =>
          rw [remainders] at mem
          split at mem
          · cases mem
          · exact (suffix_of_mem_tailsWhile mem).trans (List.suffix_cons d cs)
  | leading =>
      rcases List.mem_cons.1 mem with rfl | further
      · exact List.suffix_rfl
      · obtain ⟨t, among, found⟩ := List.mem_filterMap.1 further
        exact (suffix_of_afterSlash? found).trans (suffix_of_mem_afterText among)
  | inner =>
      rcases List.mem_cons.1 mem with rfl | further
      · exact List.suffix_rfl
      · split at further
        next behind found => exact (suffix_of_mem_afterText further).trans (suffix_of_afterSlash? found)
        next => cases further
  | ending =>
      unfold remainders at mem
      dsimp only at mem
      split at mem
      · exact List.mem_singleton.1 mem ▸ List.suffix_rfl
      · exact List.mem_singleton.1 mem ▸ List.suffix_cons _ _
      · exact List.mem_singleton.1 mem ▸ List.suffix_rfl
      · cases mem

/-- What comes last among the pieces is matched at an end of the text. -/
theorem matchesFrom_append (matched : matchesFrom (ps ++ qs) cs = true) :
    ∃ rest, rest <:+ cs ∧ matchesFrom qs rest = true := by
  induction ps generalizing cs with
  | nil => exact ⟨cs, List.suffix_rfl, matched⟩
  | cons p ps ih =>
      obtain ⟨behind, among, matched⟩ := matchesFrom_cons.1 matched
      obtain ⟨rest, suffix, matched⟩ := ih matched
      exact ⟨rest, suffix.trans (Piece.suffix_of_mem_remainders among), matched⟩

/-!
### Paths
-/

/-- The text of a path: names with one slash between two of them, and at least one name. -/
def Regular (cs : List Char) : Prop := [] ∉ splitOn '/' cs

instance (cs : List Char) : Decidable (Regular cs) := inferInstanceAs (Decidable (_ ∉ _))

/-- A path begins with a name. -/
theorem Regular.cons (regular : Regular cs) : ∃ c rest, c ≠ '/' ∧ cs = c :: rest := by
  cases cs with
  | nil => exact absurd (List.mem_singleton_self _) regular
  | cons c rest =>
      refine ⟨c, rest, ?_, rfl⟩
      rintro rfl
      apply regular
      rw [splitOn, if_pos rfl]
      exact List.mem_cons_self

/-- Nowhere in a path do two slashes stand side by side. -/
theorem Regular.not_suffix (regular : Regular cs) : ¬ '/' :: '/' :: rest <:+ cs := by
  rintro ⟨front, rfl⟩
  apply regular
  rw [Text.splitOn_append, splitOn, if_pos rfl]
  exact List.mem_append_right _ List.mem_cons_self

/-- What can stand behind the first name of a path. -/
theorem Regular.behind_name {c : Char} (name : List Char) (notSlash : c ≠ '/') :
    ∃ rest ∈ Piece.remainders .some (c :: name), (rest = [] ∧ '/' ∉ name) ∨ ∃ t, rest = '/' :: t := by
  refine ⟨name.dropWhile (· ≠ '/'), ?_, ?_⟩
  · rw [Piece.remainders, if_neg notSlash]
    exact dropWhile_mem_tailsWhile _ _
  · have stops := List.head?_dropWhile_not (fun c : Char => decide (c ≠ '/')) name
    cases behind : name.dropWhile (· ≠ '/') with
    | nil =>
        refine .inl ⟨rfl, ?_⟩
        intro deep
        have none := List.dropWhile_eq_nil_iff.1 behind '/' deep
        simp at none
    | cons d rest =>
        rw [behind] at stops
        have slash : d = '/' := by simpa using stops
        exact .inr ⟨rest, by rw [slash]⟩

/-- Every path has a name in some directory, perhaps the first one. -/
theorem matchesFrom_shallow (regular : Regular cs) : matchesFrom [.leading, .some, .ending] cs = true := by
  obtain ⟨c, name, notSlash, rfl⟩ := regular.cons
  obtain ⟨rest, among, ends⟩ := Regular.behind_name name notSlash
  apply matchesFrom_leading.2
  apply Or.inl
  apply matchesFrom_cons.2
  refine ⟨rest, among, ?_⟩
  rcases ends with ⟨rfl, _⟩ | ⟨t, rfl⟩
  · rfl
  · rfl

/-- A name in some directory, with a slash behind it: the path has a directory in it. -/
theorem matchesFrom_deep (regular : Regular cs) :
    matchesFrom [.leading, .some, .char '/'] cs = true ↔ '/' ∈ cs := by
  constructor
  · intro matched
    have parts : matchesFrom ([.leading, .some] ++ [.char '/']) cs = true := matched
    obtain ⟨rest, suffix, slash⟩ := matchesFrom_append parts
    obtain ⟨behind, rfl, _⟩ := matchesFrom_char.1 slash
    exact suffix.mem List.mem_cons_self
  · intro deep
    obtain ⟨c, name, notSlash, rfl⟩ := regular.cons
    have further : '/' ∈ name := (List.mem_cons.1 deep).resolve_left (Ne.symm notSlash)
    obtain ⟨rest, among, ends⟩ := Regular.behind_name name notSlash
    apply matchesFrom_leading.2
    apply Or.inl
    apply matchesFrom_cons.2
    refine ⟨rest, among, ?_⟩
    rcases ends with ⟨_, flat⟩ | ⟨t, rfl⟩
    · exact absurd further flat
    · rfl

/-- Two slashes at the end of the pieces need two slashes side by side. -/
theorem suffix_of_matchesFrom (matched : matchesFrom (ps ++ [.char '/', .char '/']) cs = true) :
    ∃ rest, '/' :: '/' :: rest <:+ cs := by
  obtain ⟨slashes, suffix, first⟩ := matchesFrom_append matched
  obtain ⟨behind, rfl, second⟩ := matchesFrom_char.1 first
  obtain ⟨rest, rfl, _⟩ := matchesFrom_char.1 second
  exact ⟨rest, suffix⟩

end Outline.Ignore
