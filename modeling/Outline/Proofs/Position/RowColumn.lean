/-
Module: Outline.Proofs.Position.RowColumn
Layer: Proofs
Purpose: What the line and the column of a byte offset count. The line is one more than the number of line feeds before
  the offset, the column one more than the number of bytes since the last of them, so that outlines and messages place
  a node alike. Different offsets of a text are told apart by this, in their order, and offsets outside it have none.
Main exports: rowColumn, Source.place_eq, locateFrom_rowColumn, Source.locate_of_le, locate_rowColumn
-/
import Mathlib.Data.List.DropRight
import Outline.Proofs.Position.Order
import Outline.Proofs.Text.Bytes
import Outline.Proofs.Text.Split

namespace Outline

/-!
### Rows and columns of bytes
-/

/-- Row and column, from zero, of the place behind some bytes: the number of line feeds among them, and the number of
    bytes since the last line feed. -/
def rowColumn (before : List UInt8) : Nat × Nat := (before.count 10, (before.rtakeWhile (· != 10)).length)

/-- One more byte is one more column, but a line feed begins a row. -/
theorem rowColumn_concat (before : List UInt8) (b : UInt8) :
    rowColumn (before ++ [b]) =
      if b = 10 then ((rowColumn before).1 + 1, 0) else ((rowColumn before).1, (rowColumn before).2 + 1) := by
  by_cases newline : b = 10
  · simp [rowColumn, newline]
  · simp [rowColumn, newline]

/-- Within the first row the column is the number of bytes. -/
theorem rowColumn_of_line {line : List UInt8} (free : 10 ∉ line) : rowColumn line = (0, line.length) := by
  have whole : line.rtakeWhile (· != 10) = line := by
    rw [List.rtakeWhile_eq_self_iff]
    intro b mem
    have other : b ≠ 10 := fun newline => free (newline ▸ mem)
    simpa using other
  simp [rowColumn, whole, List.count_eq_zero_of_not_mem free]

/-- What stands before a line feed only counts by its rows. -/
theorem rowColumn_append (line before : List UInt8) :
    rowColumn (line ++ 10 :: before) = (line.count 10 + 1 + (rowColumn before).1, (rowColumn before).2) := by
  induction before using List.reverseRecOn with
  | nil => simp [rowColumn]
  | append_singleton before b ih =>
      have grouped : line ++ 10 :: (before ++ [b]) = line ++ 10 :: before ++ [b] := by simp
      rw [grouped, rowColumn_concat, rowColumn_concat, ih]
      split <;> rfl

namespace Source

theorem advance_append (place : Nat × Nat) (first second : List UInt8) :
    advance place (first ++ second) = advance (advance place first) second := by
  induction first generalizing place with
  | nil => rfl
  | cons b first ih => exact ih _

/-- Reading the bytes one after the other ends at their row and column. -/
theorem advance_eq (before : List UInt8) : advance (0, 0) before = rowColumn before := by
  induction before using List.reverseRecOn with
  | nil => rfl
  | append_singleton before b ih =>
      rw [advance_append, ih, rowColumn_concat]
      rfl

/-- The place of an offset is reached by advancing over the bytes before it. -/
theorem place_eq (src : Source) (offset : Nat) : src.place offset = rowColumn ((bytesOf src.text).take offset) :=
  advance_eq _

end Source

/-!
### Lines
-/

theorem bytesOf_joinWith_cons (l m : String) (ls : List String) :
    bytesOf (Text.joinWith "\n" (l :: m :: ls)) = bytesOf l ++ 10 :: bytesOf (Text.joinWith "\n" (m :: ls)) := by
  have lineFeed : bytesOf "\n" = [10] := by decide
  rw [Text.joinWith, bytesOf_append, bytesOf_append, lineFeed, List.append_assoc, List.singleton_append]

theorem utf8ByteSize_joinWith_cons (l m : String) (ls : List String) :
    (Text.joinWith "\n" (l :: m :: ls)).utf8ByteSize =
      l.utf8ByteSize + 1 + (Text.joinWith "\n" (m :: ls)).utf8ByteSize := by
  simp only [← length_bytesOf, bytesOf_joinWith_cons, List.length_append, List.length_cons]
  omega

/-- Up to the end of the first line the bytes are those of the line. -/
theorem take_joinWith_of_le {l : String} (ls : List String) {offset : Nat} (fits : offset ≤ l.utf8ByteSize) :
    (bytesOf (Text.joinWith "\n" (l :: ls))).take offset = (bytesOf l).take offset := by
  cases ls with
  | nil => rfl
  | cons m ls => rw [bytesOf_joinWith_cons, List.take_append_of_le_length (by rwa [length_bytesOf])]

/-- Behind the first line and its line feed the bytes go on with the other lines. -/
theorem take_joinWith_add (l m : String) (ls : List String) (further : Nat) :
    (bytesOf (Text.joinWith "\n" (l :: m :: ls))).take (l.utf8ByteSize + 1 + further) =
      bytesOf l ++ 10 :: (bytesOf (Text.joinWith "\n" (m :: ls))).take further := by
  rw [bytesOf_joinWith_cons, Nat.add_assoc, ← length_bytesOf, List.take_length_add_append, Nat.add_comm 1,
    List.take_succ_cons]

/-- An offset in some lines has the row and column that the bytes before it make up. -/
theorem locateFrom_rowColumn {ls : List String} (nonempty : ls ≠ []) (free : ∀ l ∈ ls, '\n' ∉ l.toList)
    (number offset : Nat) (inside : offset ≤ (Text.joinWith "\n" ls).utf8ByteSize) :
    locateFrom number offset ls = some
      ⟨number + (rowColumn ((bytesOf (Text.joinWith "\n" ls)).take offset)).1,
        (rowColumn ((bytesOf (Text.joinWith "\n" ls)).take offset)).2 + 1⟩ := by
  induction ls generalizing number offset with
  | nil => exact absurd rfl nonempty
  | cons l ls ih =>
      have lineFree : 10 ∉ bytesOf l := lineFeed_not_mem_bytesOf (free l List.mem_cons_self)
      rw [locateFrom]
      by_cases inLine : offset < l.utf8ByteSize + 1
      · have fits : offset ≤ l.utf8ByteSize := Nat.le_of_lt_succ inLine
        have counted : rowColumn ((bytesOf l).take offset) = (0, offset) := by
          rw [rowColumn_of_line fun mem => lineFree (List.mem_of_mem_take mem), List.length_take, length_bytesOf,
            Nat.min_eq_left fits]
        simp [inLine, take_joinWith_of_le ls fits, counted]
      · obtain ⟨further, rfl⟩ := Nat.exists_eq_add_of_le (Nat.le_of_not_lt inLine)
        cases ls with
        | nil =>
            rw [Text.joinWith] at inside
            omega
        | cons m ls =>
            -- The first line and its line feed stand before the offset, and the rest is counted from there.
            have reach : further ≤ (Text.joinWith "\n" (m :: ls)).utf8ByteSize := by
              rw [utf8ByteSize_joinWith_cons] at inside
              omega
            have found := ih (List.cons_ne_nil m ls) (fun l' mem => free l' (List.mem_cons_of_mem l mem)) (number + 1)
              further reach
            rw [if_neg inLine, Nat.add_sub_cancel_left, found, take_joinWith_add, rowColumn_append,
              List.count_eq_zero_of_not_mem lineFree]
            simp [Nat.add_assoc]

namespace Source

variable (src : Source)

theorem joinWith_lines : Text.joinWith "\n" src.lines = src.text :=
  Text.joinWith_split rfl src.text

/-- An offset inside the text has the row and column of the bytes before it. -/
theorem locate_of_le {offset : Nat} (inside : offset ≤ src.text.utf8ByteSize) :
    locate offset src.lines = some
      ⟨(rowColumn ((bytesOf src.text).take offset)).1 + 1, (rowColumn ((bytesOf src.text).take offset)).2 + 1⟩ := by
  have pieces : Text.splitOn '\n' src.text.toList ≠ [] := Text.splitOn_ne_nil _
  have nonempty : src.lines ≠ [] := by simpa [lines, Text.split] using pieces
  have free : ∀ l ∈ src.lines, '\n' ∉ l.toList := by
    intro l mem
    obtain ⟨piece, among, rfl⟩ := List.mem_map.1 mem
    simpa using Text.not_mem_of_mem_splitOn among
  have found := locateFrom_rowColumn nonempty free 1 offset
  rw [joinWith_lines, Nat.add_comm 1] at found
  simpa [locate] using found inside

/-- An offset outside the text has neither. -/
theorem locate_of_outside {offset : Int} (outside : offset < 0 ∨ src.text.utf8ByteSize < offset) :
    locate offset src.lines = none := by
  rcases outside with negative | beyond
  · simp [locate, negative]
  · have none : ¬ (locateFrom 1 offset.toNat src.lines).isSome := by
      rw [isSome_locateFrom_iff, linesSize_lines]
      omega
    have notNegative : ¬ offset < 0 := by omega
    simpa [locate, notNegative] using none

end Source

/-- Line and column of a byte offset of a text, its end included, are one more than the number of line feeds before it
    and than the number of bytes since the last of them. For the start of a node they are those that messages name. Of
    two offsets the later one has the later line and column. An offset outside the text has none, and as an end of a
    span it counts as the first line and column. -/
theorem locate_rowColumn (src : Source) :
    (∀ offset : Int, 0 ≤ offset → offset ≤ src.text.utf8ByteSize →
      locate offset src.lines = some
        ⟨((bytesOf src.text).take offset.toNat).count 10 + 1,
          (((bytesOf src.text).take offset.toNat).rtakeWhile (· != 10)).length + 1⟩) ∧
    (∀ n : Node, n.start ≤ src.text.utf8ByteSize → (src.position n).start = ⟨src.line n, src.column n⟩) ∧
    (∀ offset offset' : Int, 0 ≤ offset → offset < offset' → offset' ≤ src.text.utf8ByteSize →
      ∃ p q, locate offset src.lines = some p ∧ locate offset' src.lines = some q ∧ p < q) ∧
    ∀ offset : Int, offset < 0 ∨ src.text.utf8ByteSize < offset →
      locate offset src.lines = none ∧
        ∀ other, (Position.ofSpan offset other src.lines).start = ⟨1, 1⟩ ∧
          (Position.ofSpan other offset src.lines).stop = ⟨1, 1⟩ := by
  have located : ∀ offset : Int, 0 ≤ offset → offset ≤ src.text.utf8ByteSize →
      locate offset src.lines = some
        ⟨((bytesOf src.text).take offset.toNat).count 10 + 1,
          (((bytesOf src.text).take offset.toNat).rtakeWhile (· != 10)).length + 1⟩ := by
    intro offset notNegative inside
    obtain ⟨offset, rfl⟩ := Int.eq_ofNat_of_zero_le notNegative
    exact src.locate_of_le (by omega)
  refine ⟨located, ?_, ?_, ?_⟩
  · intro n inside
    simp [Source.position, Position.ofSpan, src.locate_of_le inside, Source.line, Source.column, Source.place_eq]
  · intro offset offset' notNegative before inside
    obtain ⟨offset, rfl⟩ := Int.eq_ofNat_of_zero_le notNegative
    obtain ⟨offset', rfl⟩ := Int.eq_ofNat_of_zero_le (Int.le_trans notNegative (Int.le_of_lt before))
    exact src.locate_lt (by omega) (by omega)
  · intro offset outside
    have none := src.locate_of_outside outside
    simp [none, Position.ofSpan]

/-- A text of three lines: a letter of two bytes in the first, nothing in the second, and no line feed behind the
    third. -/
def steppedSource : Source := ⟨"aé\n\nx"⟩

/-- The offset of the first line feed is still in the first line, that of the second is all of the second line, and the
    end of the text is behind the last letter. -/
theorem locate_rowColumn_stepped :
    locate 3 steppedSource.lines = some ⟨1, 4⟩ ∧ locate 4 steppedSource.lines = some ⟨2, 1⟩ ∧
      locate 6 steppedSource.lines = some ⟨3, 2⟩ ∧
      (steppedSource.position (.construct "identifier" none 5 6 [])).start = ⟨3, 1⟩ ∧
      (∃ p q, locate 3 steppedSource.lines = some p ∧ locate 4 steppedSource.lines = some q ∧ p < q) ∧
      locate 7 steppedSource.lines = none ∧ (Position.ofSpan (-1) 7 steppedSource.lines).start = ⟨1, 1⟩ := by
  have size : steppedSource.text.utf8ByteSize = 6 := by decide +kernel
  obtain ⟨located, sameAsMessages, ordered, outside⟩ := locate_rowColumn steppedSource
  rw [size] at located sameAsMessages ordered outside
  refine ⟨?_, ?_, ?_, ?_, ordered 3 4 (by decide) (by decide) (by decide), (outside 7 (by decide)).1,
    ((outside (-1) (by decide)).2 7).1⟩
  · exact (located 3 (by decide) (by decide)).trans (by decide +kernel)
  · exact (located 4 (by decide) (by decide)).trans (by decide +kernel)
  · exact (located 6 (by decide) (by decide)).trans (by decide +kernel)
  · exact (sameAsMessages (.construct "identifier" none 5 6 []) (by decide)).trans (by decide +kernel)

end Outline
