/-
Module: Outline.Proofs.Dependency.Words
Layer: Proofs
Purpose: The words of a text and those of a part of it. If the part neither begins nor ends inside a word, its words
  are words of the text. Spans count bytes and words are made of characters; as word characters are the bytes that
  stand for them, and no byte of another character looks like one, words can be told from the bytes alone.
Main exports: Spells, runs_flatMap, isWordByte, identifiers_subset, Source.cutsWord, Source.WholeWords,
  Source.identifiers_inside
-/
import Outline.Proofs.Dependency.Runs
import Outline.Proofs.Text.Bytes
import Outline.Proofs.Tree.Nested

namespace Outline

/-!
### Spelling
-/

section Spelling

variable {α β : Type} {p : α → Bool} {q : β → Bool}

/-- A way to write each element as a few others, so that those that satisfy `p` are written as one that satisfies `q`
    and no other satisfies `q` anywhere. -/
structure Spells (p : α → Bool) (q : β → Bool) (spell : α → List β) : Prop where
  word : ∀ a, p a = true → ∃ b, spell a = [b] ∧ q b = true
  other : ∀ a, p a = false → spell a ≠ [] ∧ ∀ b ∈ spell a, q b = false

namespace Spells

variable {spell : α → List β} (spells : Spells p q spell)

include spells

/-- The longest stretch of a spelled list is the spelling of the longest stretch. -/
theorem takeWhile_flatMap (as : List α) : (as.flatMap spell).takeWhile q = (as.takeWhile p).flatMap spell := by
  induction as with
  | nil => rfl
  | cons a as ih =>
      rw [List.flatMap_cons]
      cases holds : p a with
      | true =>
          obtain ⟨b, spelled, isWord⟩ := spells.word a holds
          rw [List.takeWhile_cons_of_pos holds, List.flatMap_cons, spelled, List.singleton_append,
            List.takeWhile_cons_of_pos isWord, ih, List.singleton_append]
      | false =>
          obtain ⟨some, none⟩ := spells.other a holds
          obtain ⟨b, rest, spelled⟩ := List.exists_cons_of_ne_nil some
          have notWord : q b = false := none b (spelled ▸ List.mem_cons_self)
          rw [List.takeWhile_cons_of_neg (by simp [holds]), spelled, List.cons_append,
            List.takeWhile_cons_of_neg (by simp [notWord]), List.flatMap_nil]

/-- What is left of a spelled list is the spelling of what is left. -/
theorem dropWhile_flatMap (as : List α) : (as.flatMap spell).dropWhile q = (as.dropWhile p).flatMap spell := by
  have parts : as.takeWhile p ++ as.dropWhile p = as := List.takeWhile_append_dropWhile
  have spelled := congrArg (List.flatMap spell) parts
  rw [List.flatMap_append, ← spells.takeWhile_flatMap] at spelled
  exact List.append_cancel_left (List.takeWhile_append_dropWhile.trans spelled.symm)

/-- The runs are spelled as the runs. -/
theorem runs_flatMap (as : List α) : runs q (as.flatMap spell) = (runs p as).map (List.flatMap spell) := by
  induction as using runs.induct p with
  | case1 => rw [List.flatMap_nil, runs_nil, runs_nil, List.map_nil]
  | case2 a as holds ih =>
      obtain ⟨b, spelled, isWord⟩ := spells.word a holds
      rw [List.flatMap_cons, runs_cons_of_pos holds, spelled, List.singleton_append, runs_cons_of_pos isWord,
        spells.takeWhile_flatMap, spells.dropWhile_flatMap, ih, List.map_cons, List.flatMap_cons, spelled,
        List.singleton_append]
  | case3 a as fails ih =>
      have fails : p a = false := by simpa using fails
      rw [List.flatMap_cons, runs_cons_of_neg fails, runs_append_of_none (spells.other a fails).2, ih]

end Spells

end Spelling

/-!
### Words in bytes
-/

/-- Is a byte a word character? -/
def isWordByte (b : UInt8) : Bool := decide (b.toNat < 128) && isWordChar (Char.ofNat b.toNat)

theorem toNat_lt_of_isWordChar {c : Char} (word : isWordChar c = true) : c.toNat < 128 := by
  have ranges : (decide ('A'.val ≤ c.val ∧ c.val ≤ 'Z'.val) || decide ('a'.val ≤ c.val) && decide (c.val ≤ 'z'.val) ||
      decide ('0'.val ≤ c.val) && decide (c.val ≤ '9'.val) || c = '_' || c = '$') = true := word
  simp only [Bool.or_eq_true, Bool.and_eq_true, decide_eq_true_eq, UInt32.le_iff_toNat_le] at ranges
  rcases ranges with ((((⟨_, upper⟩ | ⟨_, lower⟩) | ⟨_, digit⟩) | rfl) | rfl)
  · exact Nat.lt_of_le_of_lt upper (by decide)
  · exact Nat.lt_of_le_of_lt lower (by decide)
  · exact Nat.lt_of_le_of_lt digit (by decide)
  · decide
  · decide

/-- A character of one byte is spelled by that byte. -/
theorem utf8EncodeChar_narrow {c : Char} (narrow : c.utf8Size = 1) :
    ∃ b, String.utf8EncodeChar c = [b] ∧ isWordByte b = isWordChar c := by
  refine ⟨_, String.utf8EncodeChar_eq_singleton narrow, ?_⟩
  have small : c.toNat < 128 := Nat.lt_succ_of_le (UInt32.le_iff_toNat_le.1 (Char.utf8Size_eq_one_iff.1 narrow))
  have code : c.val.toUInt8.toNat = c.toNat := by
    rw [UInt32.toNat_toUInt8]
    exact Nat.mod_eq_of_lt (Nat.lt_trans small (by decide))
  rw [isWordByte, code, decide_eq_true small, Bool.true_and, Char.ofNat_toNat]

/-- Word characters are the ones spelled by word bytes. -/
theorem spells_utf8EncodeChar : Spells isWordChar isWordByte String.utf8EncodeChar where
  word c holds := by
    have narrow : c.utf8Size = 1 :=
      Char.utf8Size_eq_one_iff.2 (UInt32.le_iff_toNat_le.2 (Nat.le_of_lt_succ (toNat_lt_of_isWordChar holds)))
    obtain ⟨b, spelled, same⟩ := utf8EncodeChar_narrow narrow
    exact ⟨b, spelled, same.trans holds⟩
  other c fails := by
    refine ⟨String.utf8EncodeChar_ne_nil, ?_⟩
    intro b mem
    by_cases narrow : c.utf8Size = 1
    · obtain ⟨d, spelled, same⟩ := utf8EncodeChar_narrow narrow
      rw [spelled] at mem
      rw [List.mem_singleton.1 mem, same, fails]
    · have large := le_of_mem_utf8EncodeChar narrow mem
      simp [isWordByte, Nat.not_lt.2 large]

/-- The words of a text, as bytes. -/
theorem runs_bytesOf (s : String) :
    runs isWordByte (bytesOf s) = (runs isWordChar s.toList).map (List.flatMap String.utf8EncodeChar) := by
  rw [bytesOf_eq, spells_utf8EncodeChar.runs_flatMap]

/-- The identifiers of a part of a text are identifiers of the text, unless a word is cut where the part begins or
    ends. -/
theorem identifiers_subset {part whole : String} (before after : List UInt8)
    (split : bytesOf whole = before ++ (bytesOf part ++ after))
    (start : ∀ a ∈ before.getLast?, ∀ b ∈ (bytesOf part ++ after).head?, isWordByte a = true → isWordByte b = false)
    (stop : ∀ a ∈ (bytesOf part).getLast?, ∀ b ∈ after.head?, isWordByte a = true → isWordByte b = false) :
    identifiers part ⊆ identifiers whole := by
  intro name mem
  obtain ⟨word, among, rfl⟩ := List.mem_map.1 mem
  obtain ⟨isRun, proper⟩ := List.mem_filter.1 among
  have spelled : word.flatMap String.utf8EncodeChar ∈ runs isWordByte (bytesOf whole) := by
    rw [split, runs_append start, runs_append stop, runs_bytesOf part]
    exact List.mem_append_right _ (List.mem_append_left _ (List.mem_map_of_mem isRun))
  rw [runs_bytesOf] at spelled
  obtain ⟨other, isRunOfWhole, same⟩ := List.mem_map.1 spelled
  rw [flatMap_utf8EncodeChar_injective same] at isRunOfWhole
  exact List.mem_map_of_mem (List.mem_filter.2 ⟨isRunOfWhole, proper⟩)

/-!
### Words in trees
-/

namespace Source

/-- Is a word cut at an offset: are the bytes before and behind it both word characters? -/
def cutsWord (src : Source) (offset : Nat) : Bool :=
  ((bytesOf src.text).take offset).getLast?.any isWordByte && ((bytesOf src.text).drop offset).head?.any isWordByte

/-- No span of the tree begins or ends inside a word. -/
def WholeWords (src : Source) (root : Node) : Prop :=
  ∀ n, root.Inside n → src.cutsWord n.start = false ∧ src.cutsWord n.stop = false

instance (src : Source) (root : Node) : Decidable (src.WholeWords root) :=
  decidable_of_iff (∀ n ∈ root.nodes, src.cutsWord n.start = false ∧ src.cutsWord n.stop = false) <| by
    simp only [WholeWords, Node.inside_iff_mem_nodes]

variable {src : Source} {root n m : Node}

theorem WholeWords.of_inside (whole : src.WholeWords root) (inside : root.Inside n) : src.WholeWords n :=
  fun m deeper => whole m (inside.trans deeper)

theorem not_cut {offset : Nat} (uncut : src.cutsWord offset = false) {a b : UInt8}
    (before : a ∈ ((bytesOf src.text).take offset).getLast?) (behind : b ∈ ((bytesOf src.text).drop offset).head?)
    (isWord : isWordByte a = true) : isWordByte b = false := by
  rw [cutsWord, Option.mem_def.1 before, Option.mem_def.1 behind, Option.any_some, Option.any_some, isWord,
    Bool.true_and] at uncut
  exact uncut

section Slices

variable {α : Type} {l : List α} {a b : Nat} {x : α}

theorem mem_getLast?_of_slice (last : x ∈ ((l.drop a).take (b - a)).getLast?) : x ∈ (l.take b).getLast? := by
  rw [← List.drop_take, List.getLast?_drop] at last
  split at last
  · cases last
  · exact last

theorem mem_head?_of_slice (first : x ∈ ((l.drop a).take b).head?) : x ∈ (l.drop a).head? := by
  rw [List.head?_take] at first
  split at first
  · cases first
  · exact first

end Slices

/-- The bytes of a node's text are those of its span. -/
theorem bytesOf_textOf {text : String} (read : src.textOf n = .ok text) :
    bytesOf text = ((bytesOf src.text).drop n.start).take (n.stop - n.start) := by
  unfold textOf slice? String.fromUTF8? at read
  split at read
  next found =>
    split at found
    next valid =>
      cases found
      cases read
      have span : (src.bytes.extract n.start n.stop).data.toList =
          ((bytesOf src.text).drop n.start).take (n.stop - n.start) := by
        rw [ByteArray.data_extract, Array.toList_extract, List.extract_eq_take_drop]
        rfl
      exact span
    next => cases found
  next => cases read

/-- The identifiers of a node are among those of any node around it. -/
theorem identifiers_inside {outer inner : String} (inside : n.Inside m) (nested : n.Nested)
    (whole : src.WholeWords n) (readOuter : src.textOf n = .ok outer) (readInner : src.textOf m = .ok inner) :
    identifiers inner ⊆ identifiers outer := by
  obtain ⟨starts, ordered, stops⟩ := nested.span_inside inside
  obtain ⟨uncutStart, uncutStop⟩ := whole m inside
  have parts := slice_append (l := bytesOf src.text) starts (Nat.le_trans ordered stops)
  have behind := slice_append (l := bytesOf src.text) ordered stops
  apply identifiers_subset (((bytesOf src.text).drop n.start).take (m.start - n.start))
    (((bytesOf src.text).drop m.stop).take (n.stop - m.stop))
  · rw [bytesOf_textOf readOuter, bytesOf_textOf readInner, parts, behind]
  · intro a last b first isWord
    rw [bytesOf_textOf readInner, ← behind] at first
    exact not_cut uncutStart (mem_getLast?_of_slice last) (mem_head?_of_slice first) isWord
  · intro a last b first isWord
    rw [bytesOf_textOf readInner] at last
    exact not_cut uncutStop (mem_getLast?_of_slice last) (mem_head?_of_slice first) isWord

end Source

end Outline
