/-
Module: Outline.Proofs.Text.Bytes
Layer: Proofs
Purpose: The bytes of a text. They are those of its characters, one after the other, so that they tell the characters
  apart; and the bytes of a character outside ASCII are none of those that ASCII has, so that no line feed is hidden in
  another character.
Main exports: bytesOf, bytesOf_eq, bytesOf_append, length_bytesOf, utf8EncodeChar_injective, le_of_mem_utf8EncodeChar,
  lineFeed_not_mem_bytesOf, slice_append
-/

namespace Outline

/-- The bytes of a text. -/
def bytesOf (s : String) : List UInt8 := s.toUTF8.data.toList

theorem bytesOf_eq (s : String) : bytesOf s = s.toList.flatMap String.utf8EncodeChar := by
  have bytes : s.toByteArray = (s.toList.flatMap String.utf8EncodeChar).toByteArray := by
    rw [← String.utf8Encode_toList, List.utf8Encode]
  rw [bytesOf, String.toUTF8, bytes, List.data_toByteArray]

theorem bytesOf_append (s t : String) : bytesOf (s ++ t) = bytesOf s ++ bytesOf t := by
  rw [bytesOf_eq, bytesOf_eq, bytesOf_eq, String.toList_append, List.flatMap_append]

theorem length_bytesOf (s : String) : (bytesOf s).length = s.utf8ByteSize := by
  rw [bytesOf, Array.length_toList]
  exact String.size_toByteArray

theorem flatMap_utf8EncodeChar_injective {cs ds : List Char}
    (same : cs.flatMap String.utf8EncodeChar = ds.flatMap String.utf8EncodeChar) : cs = ds := by
  have encoded : cs.utf8Encode = ds.utf8Encode := congrArg List.toByteArray same
  have decoded := congrArg ByteArray.utf8Decode? encoded
  rw [List.utf8Decode?_utf8Encode, List.utf8Decode?_utf8Encode] at decoded
  simpa using decoded

theorem utf8EncodeChar_injective {c d : Char} (same : String.utf8EncodeChar c = String.utf8EncodeChar d) : c = d := by
  have spelled : [c] = [d] := flatMap_utf8EncodeChar_injective (by simpa using same)
  exact List.singleton_inj.1 spelled

/-- Every byte of a character that takes several is larger than those of ASCII. -/
theorem le_of_mem_utf8EncodeChar {c : Char} (wide : c.utf8Size ≠ 1) {b : UInt8} (mem : b ∈ String.utf8EncodeChar c) :
    128 ≤ b.toNat := by
  have high : ∀ x y : UInt8, 128 ≤ y.toNat → 128 ≤ (x ||| y).toNat := by
    intro x y large
    rw [UInt8.toNat_or]
    exact Nat.le_trans large Nat.right_le_or
  have size := c.utf8Size_pos
  have bound := c.utf8Size_le_four
  have cases : c.utf8Size = 2 ∨ c.utf8Size = 3 ∨ c.utf8Size = 4 := by omega
  rcases cases with two | three | four
  · rw [String.utf8EncodeChar_eq_cons_cons two] at mem
    simp only [List.mem_cons, List.not_mem_nil, or_false] at mem
    rcases mem with rfl | rfl <;> exact high _ _ (by decide)
  · rw [String.utf8EncodeChar_eq_cons_cons_cons three] at mem
    simp only [List.mem_cons, List.not_mem_nil, or_false] at mem
    rcases mem with rfl | rfl | rfl <;> exact high _ _ (by decide)
  · rw [String.utf8EncodeChar_eq_cons_cons_cons_cons four] at mem
    simp only [List.mem_cons, List.not_mem_nil, or_false] at mem
    rcases mem with rfl | rfl | rfl | rfl <;> exact high _ _ (by decide)

/-- A text without line feeds has no byte that is one. -/
theorem lineFeed_not_mem_bytesOf {s : String} (free : '\n' ∉ s.toList) : 10 ∉ bytesOf s := by
  rw [bytesOf_eq, List.mem_flatMap]
  rintro ⟨c, mem, among⟩
  by_cases narrow : c.utf8Size = 1
  · have spelled : String.utf8EncodeChar c = String.utf8EncodeChar '\n' := by
      rw [String.utf8EncodeChar_eq_singleton narrow, List.mem_singleton] at among
      rw [String.utf8EncodeChar_eq_singleton narrow, ← among]
      rfl
    exact free (utf8EncodeChar_injective spelled ▸ mem)
  · exact absurd (le_of_mem_utf8EncodeChar narrow among) (by decide)

/-- A slice falls into two at any place in it. -/
theorem slice_append {α : Type} {l : List α} {a b c : Nat} (first : a ≤ b) (second : b ≤ c) :
    (l.drop a).take (c - a) = (l.drop a).take (b - a) ++ (l.drop b).take (c - b) := by
  have length : c - a = (b - a) + (c - b) := by omega
  rw [length, List.take_add, List.drop_drop, Nat.add_sub_cancel' first]

end Outline
