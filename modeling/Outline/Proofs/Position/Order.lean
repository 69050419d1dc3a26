/-
Module: Outline.Proofs.Position.Order
Layer: Proofs
Purpose: Line and column numbers in reading order. Every byte offset of a text, its end included, has a line and a
  column, and a later offset has a later one: within a line by the column, beyond it by the line. Spans that are
  nested in the tree are therefore nested as positions.
Main exports: LineColumn.lt_iff, linesSize, isSome_locateFrom_iff, locateFrom_lt, linesSize_lines, Source.locate_lt,
  Position.Within, Source.position_within, Source.position_start_le
-/
import Mathlib.Algebra.GroupWithZero.Nat
import Mathlib.Data.Prod.Lex
import Outline.Position
import Outline.Proofs.Tree.Nested

namespace Outline

namespace LineColumn

/-- Line first, then column. -/
def key (p : LineColumn) : Nat ×ₗ Nat := toLex (p.line, p.column)

theorem key_injective : Function.Injective key := by
  rintro ⟨line, column⟩ ⟨line', column'⟩ same
  have pairs : (line, column) = (line', column') := same
  cases pairs
  rfl

/-- Reading order: by line, and within a line by column. -/
instance : LinearOrder LineColumn := LinearOrder.lift' key key_injective

/-- Places are in order by their lines, and in one line by their columns. -/
theorem lt_iff {p q : LineColumn} : p < q ↔ p.line < q.line ∨ p.line = q.line ∧ p.column < q.column :=
  Prod.Lex.toLex_lt_toLex

end LineColumn

/-- Number of bytes that some lines take, each with a line feed after it. -/
def linesSize (ls : List String) : Nat := (ls.map (·.utf8ByteSize + 1)).sum

@[simp] theorem linesSize_cons (l : String) (ls : List String) :
    linesSize (l :: ls) = l.utf8ByteSize + 1 + linesSize ls := by
  simp [linesSize]

/-- The offsets with a line and a column are those of the lines. -/
theorem isSome_locateFrom_iff {number offset : Nat} {ls : List String} :
    (locateFrom number offset ls).isSome ↔ offset < linesSize ls := by
  induction ls generalizing number offset with
  | nil => simp [locateFrom, linesSize]
  | cons l ls ih =>
      rw [locateFrom, linesSize_cons]
      split
      next inLine => simp; omega
      next beyond => rw [ih]; omega

/-- Lines are numbered on from the first. -/
theorem le_line_of_locateFrom {number offset : Nat} {ls : List String} {p : LineColumn}
    (found : locateFrom number offset ls = some p) : number ≤ p.line := by
  induction ls generalizing number offset with
  | nil => simp [locateFrom] at found
  | cons l ls ih =>
      rw [locateFrom] at found
      split at found
      · cases found
        exact Nat.le_refl number
      · exact Nat.le_of_succ_le (ih found)

/-- A later offset has a later line and column. -/
theorem locateFrom_lt {number offset offset' : Nat} {ls : List String} {p q : LineColumn} (before : offset < offset')
    (first : locateFrom number offset ls = some p) (second : locateFrom number offset' ls = some q) : p < q := by
  induction ls generalizing number offset offset' with
  | nil => simp [locateFrom] at first
  | cons l ls ih =>
      rw [locateFrom] at first second
      rw [LineColumn.lt_iff]
      by_cases inLine : offset' < l.utf8ByteSize + 1
      · rw [if_pos (before.trans inLine)] at first
        rw [if_pos inLine] at second
        cases first
        cases second
        exact Or.inr ⟨rfl, by simpa using before⟩
      · rw [if_neg inLine] at second
        by_cases here : offset < l.utf8ByteSize + 1
        · -- The first offset is in this line, the second in a later one.
          rw [if_pos here] at first
          cases first
          exact Or.inl (le_line_of_locateFrom second)
        · rw [if_neg here] at first
          rw [← LineColumn.lt_iff]
          exact ih (by omega) first second

/-- The lines of a text take as many bytes as the text, and one more for the line feed that the last one lacks. -/
theorem linesSize_lines (src : Source) : linesSize src.lines = src.text.utf8ByteSize + 1 := by
  have pieces : ∀ cs : List Char,
      linesSize ((Text.splitOn '\n' cs).map String.ofList) = (String.ofList cs).utf8ByteSize + 1 := by
    intro cs
    induction cs with
    | nil => simp [Text.splitOn, linesSize]
    | cons c cs ih =>
        rw [Text.splitOn, String.ofList_cons, String.utf8ByteSize_append, String.utf8ByteSize_singleton]
        split
        next newline =>
          have size : c.utf8Size = 1 := by rw [newline]; rfl
          rw [List.map_cons, linesSize_cons, ih, size]
          simp
          omega
        next =>
          cases split : Text.splitOn '\n' cs with
          | nil =>
              rw [split] at ih
              simp [linesSize] at ih
          | cons l ls =>
              rw [split, List.map_cons, linesSize_cons] at ih
              rw [Text.consLine, List.map_cons, linesSize_cons, String.ofList_cons, String.utf8ByteSize_append,
                String.utf8ByteSize_singleton]
              omega
  have whole := pieces src.text.toList
  rwa [String.ofList_toList] at whole

/-!
### Spans
-/

/-- A position that does not end before it starts, inside another one. -/
structure Position.Within (outer inner : Position) : Prop where
  starts : outer.start ≤ inner.start
  ordered : inner.start ≤ inner.stop
  stops : inner.stop ≤ outer.stop

namespace Source

variable (src : Source)

/-- Line and column of a byte offset, the first ones for offsets outside the text. -/
def lineColumn (offset : Nat) : LineColumn := (locate offset src.lines).getD {}

/-- Two offsets inside the text have lines and columns, and the later one has the later ones. -/
theorem locate_lt {offset offset' : Nat} (before : offset < offset') (inside : offset' ≤ src.text.utf8ByteSize) :
    ∃ p q, locate offset src.lines = some p ∧ locate offset' src.lines = some q ∧ p < q := by
  have found : ∀ o ≤ src.text.utf8ByteSize, ∃ p, locateFrom 1 o src.lines = some p := by
    intro o inside
    have some : (locateFrom 1 o src.lines).isSome ↔ o < linesSize src.lines := isSome_locateFrom_iff
    rw [linesSize_lines] at some
    exact Option.isSome_iff_exists.1 (some.2 (by omega))
  obtain ⟨p, first⟩ := found offset (by omega)
  obtain ⟨q, second⟩ := found offset' inside
  exact ⟨p, q, by simpa [locate] using first, by simpa [locate] using second, locateFrom_lt before first second⟩

/-- Offsets inside the text keep their order. -/
theorem lineColumn_le {offset offset' : Nat} (before : offset ≤ offset') (inside : offset' ≤ src.text.utf8ByteSize) :
    src.lineColumn offset ≤ src.lineColumn offset' := by
  rcases Nat.eq_or_lt_of_le before with rfl | before
  · exact le_refl _
  · obtain ⟨p, q, first, second, later⟩ := src.locate_lt before inside
    simp only [lineColumn, first, second, Option.getD_some]
    exact le_of_lt later

/-- The position of a node: where it starts and where it stops. -/
theorem position_eq (n : Node) : src.position n = ⟨src.lineColumn n.start, src.lineColumn n.stop⟩ := rfl

variable {src} {n m : Node}

/-- A node inside a well-nested one lies between its ends. -/
theorem position_within (nested : n.Nested) (inText : n.stop ≤ src.text.utf8ByteSize) (inside : n.Inside m) :
    (src.position n).Within (src.position m) := by
  obtain ⟨starts, ordered, stops⟩ := nested.span_inside inside
  rw [position_eq, position_eq]
  constructor
  · exact src.lineColumn_le starts (by omega)
  · exact src.lineColumn_le ordered (by omega)
  · exact src.lineColumn_le stops inText

/-- What stands before a node starts no later than what is inside it. -/
theorem position_start_le {before after : Node} (apart : before.stop ≤ after.start) (nested : before.Nested)
    (nested' : after.Nested) (inText : after.stop ≤ src.text.utf8ByteSize) (inside : before.Inside n)
    (inside' : after.Inside m) : (src.position n).start ≤ (src.position m).start := by
  have left := nested.span_inside inside
  have right := nested'.span_inside inside'
  exact src.lineColumn_le (by omega) (by omega)

end Source

end Outline
