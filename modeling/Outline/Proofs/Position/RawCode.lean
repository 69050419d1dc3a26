/-
Module: Outline.Proofs.Position.RawCode
Layer: Proofs
Purpose: The text that a span of bytes is shown as, whatever its ends are. It is read off the lines, but it is a slice
  of the text itself: joined again the lines are the text, byte for byte. Between two characters it is the text that a
  node with that span has, and a span falls into two at any place between two characters, wherever its own ends are.
Main exports: rawCode_lines, Source.exists_between, Source.HasAt.extract, rawCode_of_hasAt, rawCode_append,
  rawCode_slice
-/
import Outline.Proofs.Position.RowColumn
import Outline.Proofs.Signature.Layout
import Outline.Proofs.Text.Utf8

namespace Outline

open Text.Utf8 (Replaced decodeReplacing decodeReplacing_behind decodeReplacing_encoded replaced_iff)

/-!
### Offsets moved into a range
-/

section Clamp

variable {low mid high : Nat} {offset : Int}

theorem clamp_eq (low high : Nat) (offset : Int) :
    (clamp low high offset : Int) = max (low : Int) (min offset high) := by
  simp only [clamp]
  omega

/-- An offset in the range stays. -/
theorem clamp_of_between (above : low ≤ mid) (below : mid ≤ high) : clamp low high mid = mid := by
  simp only [clamp]
  omega

theorem clamp_le (above : low ≤ mid) (below : offset ≤ mid) : clamp low high offset ≤ mid := by
  simp only [clamp]
  omega

/-- The range may begin anywhere before the offset. -/
theorem clamp_of_le (above : low ≤ mid) (behind : mid ≤ offset) (inside : mid ≤ high) :
    clamp low high offset = clamp mid high offset := by
  simp only [clamp]
  omega

end Clamp

/-- What the lines of a text are shown as is a slice of the bytes of the text. -/
theorem rawCode_lines (src : Source) (start stop : Int) :
    rawCode start stop src.lines =
      String.ofList (decodeReplacing ((bytesOf src.text).extract (clamp 0 src.text.utf8ByteSize start)
        (clamp (clamp 0 src.text.utf8ByteSize start) src.text.utf8ByteSize stop))) := by
  have size : src.text.toUTF8.size = src.text.utf8ByteSize := String.size_toByteArray
  simp only [rawCode, src.joinWith_lines, size, ByteArray.data_extract, Array.toList_extract]
  rfl

/-!
### Spans between characters
-/

namespace Source

variable {src : Source} {start stop : Nat}

/-- Between two offsets that cut no character stands a text. -/
theorem exists_between (ordered : start ≤ stop) (validStart : String.Pos.Raw.IsValid src.text ⟨start⟩)
    (validStop : String.Pos.Raw.IsValid src.text ⟨stop⟩) :
    ∃ t, src.HasAt start t ∧ stop = start + t.utf8ByteSize := by
  obtain ⟨before, rest, text, first⟩ := String.Pos.Raw.isValid_iff_exists_append.1 validStart
  obtain ⟨front, after, text', second⟩ := String.Pos.Raw.isValid_iff_exists_append.1 validStop
  obtain rfl : start = before.utf8ByteSize := congrArg String.Pos.Raw.byteIdx first
  obtain rfl : stop = front.utf8ByteSize := congrArg String.Pos.Raw.byteIdx second
  have same : before.toList ++ rest.toList = front.toList ++ after.toList := by
    rw [← String.toList_append, ← String.toList_append, ← text, text']
  rcases List.append_eq_append_iff.1 same with ⟨cs, further, -⟩ | ⟨cs, further, -⟩
  · have whole : front = before ++ String.ofList cs := String.toList_inj.1 (by simpa using further)
    exact ⟨String.ofList cs, ⟨before, after, by rw [text', whole], rfl⟩, by rw [whole, String.utf8ByteSize_append]⟩
  · -- The later offset is no smaller, so that nothing can stand behind it and before the earlier one.
    have whole : before = front ++ String.ofList cs := String.toList_inj.1 (by simpa using further)
    have none : (String.ofList cs).utf8ByteSize = 0 := by
      rw [whole, String.utf8ByteSize_append] at ordered
      omega
    rw [String.utf8ByteSize_eq_zero_iff] at none
    rw [none, String.append_empty] at whole
    exact ⟨"", ⟨before, after, by rw [text', whole, String.append_empty], rfl⟩, by simp [whole]⟩

/-- The bytes of a text where the source has it. -/
theorem HasAt.extract {t : String} (has : src.HasAt start t) :
    (bytesOf src.text).extract start (start + t.utf8ByteSize) = bytesOf t := by
  obtain ⟨before, after, text, rfl⟩ := has
  rw [text, bytesOf_append, bytesOf_append, List.append_assoc, List.extract_eq_take_drop, ← length_bytesOf before,
    List.drop_left, Nat.add_sub_cancel_left, ← length_bytesOf t, List.take_left]

end Source

/-- A text is shown as it is. -/
theorem decodeReplacing_bytesOf (t : String) : decodeReplacing (bytesOf t) = t.toList := by
  rw [bytesOf_eq, decodeReplacing_encoded]

/-- A span between two characters is shown as the text there. -/
theorem rawCode_of_hasAt {src : Source} {start stop : Nat} {t : String} (has : src.HasAt start t)
    (size : stop = start + t.utf8ByteSize) : rawCode start stop src.lines = t := by
  have whole : stop ≤ src.text.utf8ByteSize := by
    obtain ⟨before, after, text, rfl⟩ := has
    rw [text, String.utf8ByteSize_append, String.utf8ByteSize_append]
    omega
  have ordered : start ≤ stop := by omega
  rw [rawCode_lines, clamp_of_between (Nat.zero_le start) (Nat.le_trans ordered whole), clamp_of_between ordered whole,
    size, has.extract, decodeReplacing_bytesOf, String.ofList_toList]

/-- A span falls into two between any two characters. -/
theorem rawCode_append {src : Source} {start stop : Int} {mid : Nat} (first : start ≤ mid) (second : mid ≤ stop)
    (valid : String.Pos.Raw.IsValid src.text ⟨mid⟩) :
    rawCode start stop src.lines = rawCode start mid src.lines ++ rawCode mid stop src.lines := by
  obtain ⟨front, behind, text, place⟩ := String.Pos.Raw.isValid_iff_exists_append.1 valid
  obtain rfl : mid = front.utf8ByteSize := congrArg String.Pos.Raw.byteIdx place
  have inside : front.utf8ByteSize ≤ src.text.utf8ByteSize := by
    rw [text, String.utf8ByteSize_append]
    omega
  have lower : clamp 0 src.text.utf8ByteSize start ≤ front.utf8ByteSize := clamp_le (Nat.zero_le _) first
  have upper : front.utf8ByteSize ≤ clamp front.utf8ByteSize src.text.utf8ByteSize stop := Nat.le_max_left _ _
  have parts := slice_append (l := bytesOf src.text) lower upper
  -- What stands before the middle are characters, of which only the first can be cut.
  have left : ∀ low, ((bytesOf src.text).drop low).take (front.utf8ByteSize - low) =
      (front.toList.flatMap String.utf8EncodeChar).drop low := by
    intro low
    rw [← List.drop_take, text, bytesOf_append, ← length_bytesOf, List.take_left, bytesOf_eq]
  rw [rawCode_lines, rawCode_lines, rawCode_lines, clamp_of_between lower inside,
    clamp_of_between (Nat.zero_le _) inside, clamp_of_le lower second inside]
  simp only [List.extract_eq_take_drop]
  rw [parts, left, decodeReplacing_behind, String.ofList_append]

/-- The text that a span is shown as is how the bytes of the text are shown, from the start of the span moved into the
    text up to its end moved between that start and the end of the text. If no character is cut it is the text of every
    node with that span, and between two characters a span falls into two. -/
theorem rawCode_slice (src : Source) :
    (∀ start stop : Int, ∃ first last : Nat, (first : Int) = max 0 (min start src.text.utf8ByteSize) ∧
      (last : Int) = max (first : Int) (min stop src.text.utf8ByteSize) ∧
      ∀ shown : String, Replaced ((bytesOf src.text).extract first last) shown.toList ↔
        shown = rawCode start stop src.lines) ∧
    (∀ n : Node, n.start ≤ n.stop → String.Pos.Raw.IsValid src.text ⟨n.start⟩ →
      String.Pos.Raw.IsValid src.text ⟨n.stop⟩ → src.textOf n = .ok (rawCode n.start n.stop src.lines)) ∧
    ∀ (start stop : Int) (mid : Nat), start ≤ mid → mid ≤ stop → String.Pos.Raw.IsValid src.text ⟨mid⟩ →
      rawCode start stop src.lines = rawCode start mid src.lines ++ rawCode mid stop src.lines := by
  refine ⟨?_, ?_, ?_⟩
  · intro start stop
    refine ⟨_, _, clamp_eq 0 _ start, clamp_eq _ _ stop, fun shown => ?_⟩
    rw [replaced_iff, rawCode_lines, ← String.toList_inj, String.toList_ofList]
  · intro n ordered validStart validStop
    obtain ⟨t, has, size⟩ := Source.exists_between ordered validStart validStop
    rw [rawCode_of_hasAt has size]
    exact has.textOf size
  · intro start stop mid first second valid
    exact rawCode_append first second valid

/-- A text with characters of two and of three bytes. -/
def wideSource : Source := ⟨"aé€\nx"⟩

/-- A span that begins before the text and cuts a character, a node between two characters, and a span that begins
    inside a character, ends behind the text and is divided behind that character. -/
theorem rawCode_slice_wide :
    Replaced ((bytesOf wideSource.text).extract 0 2) (rawCode (-3) 2 wideSource.lines).toList ∧
      rawCode (-3) 2 wideSource.lines = "a\uFFFD" ∧
      String.Pos.Raw.IsValid wideSource.text ⟨1⟩ ∧ String.Pos.Raw.IsValid wideSource.text ⟨6⟩ ∧
      wideSource.textOf (.construct "identifier" none 1 6 []) = .ok "é€" ∧
      String.Pos.Raw.IsValid wideSource.text ⟨3⟩ ∧ rawCode 2 9 wideSource.lines = "\uFFFD" ++ "€\nx" := by
  have first : String.Pos.Raw.IsValid wideSource.text ⟨1⟩ := by decide +kernel
  have third : String.Pos.Raw.IsValid wideSource.text ⟨3⟩ := by decide +kernel
  have sixth : String.Pos.Raw.IsValid wideSource.text ⟨6⟩ := by decide +kernel
  have size : wideSource.text.utf8ByteSize = 8 := by decide +kernel
  have shown : rawCode (-3) 2 wideSource.lines = "a\uFFFD" ∧ rawCode 1 6 wideSource.lines = "é€" ∧
      rawCode 2 3 wideSource.lines = "\uFFFD" ∧ rawCode 3 9 wideSource.lines = "€\nx" := by
    decide +kernel
  obtain ⟨slices, nodes, divided⟩ := rawCode_slice wideSource
  refine ⟨?_, shown.1, first, sixth, ?_, third, ?_⟩
  · obtain ⟨low, high, start, stop, decoded⟩ := slices (-3) 2
    rw [size] at start stop
    obtain rfl : low = 0 := by omega
    obtain rfl : high = 2 := by omega
    exact (decoded _).2 rfl
  · have read := nodes (.construct "identifier" none 1 6 []) (by decide) first sixth
    exact read.trans (congrArg Except.ok shown.2.1)
  · have parts := divided 2 9 3 (by decide) (by decide) third
    rw [parts]
    exact congrArg₂ (· ++ ·) shown.2.2.1 shown.2.2.2

end Outline
