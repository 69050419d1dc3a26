/-
Module: Outline.Proofs.Text.Split
Layer: Proofs
Purpose: Texts put together and taken apart. What a text begins or ends with can be cut off again; pieces joined with
  slashes and split again are given back as they were if they hold no slash, so that different lists of them are joined
  to different texts.
Main exports: Text.startsWith_iff_exists, Text.endsWith_iff_exists, Text.dropFirst_append, Text.dropLast_append,
  Text.splitOn_append, Text.split_append, Text.split_joinWith, Text.joinWith_split, Text.joinWith_append,
  Text.joinWith_injective
-/
import Outline.Text.Blank

namespace Outline.Text

/-!
### Beginnings and ends
-/

/-- A text starts with another if it is the other and a rest. -/
theorem startsWith_iff_exists {s beginning : String} :
    startsWith s beginning = true ↔ ∃ rest, s = beginning ++ rest := by
  rw [startsWith, List.isPrefixOf_iff_prefix]
  constructor
  · rintro ⟨rest, text⟩
    refine ⟨String.ofList rest, String.toList_inj.1 ?_⟩
    rw [String.toList_append, String.toList_ofList, text]
  · rintro ⟨rest, rfl⟩
    exact ⟨rest.toList, String.toList_append.symm⟩

/-- A text ends with another if it is a front and the other. -/
theorem endsWith_iff_exists {s ending : String} : endsWith s ending = true ↔ ∃ front, s = front ++ ending := by
  rw [endsWith, List.isSuffixOf_iff_suffix]
  constructor
  · rintro ⟨front, text⟩
    refine ⟨String.ofList front, String.toList_inj.1 ?_⟩
    rw [String.toList_append, String.toList_ofList, text]
  · rintro ⟨front, rfl⟩
    exact ⟨front.toList, String.toList_append.symm⟩

theorem dropFirst_append (beginning rest : String) : dropFirst beginning.toList.length (beginning ++ rest) = rest := by
  rw [dropFirst, String.toList_append, List.drop_left, String.ofList_toList]

theorem dropLast_append (front ending : String) : dropLast ending.toList.length (front ++ ending) = front := by
  rw [dropLast, String.toList_append, List.length_append, Nat.add_sub_cancel, List.take_left, String.ofList_toList]

/-!
### Pieces
-/

variable {sep : Char} {cs : List Char}

/-- A text without separators is one piece. -/
theorem splitOn_eq_singleton (free : sep ∉ cs) : splitOn sep cs = [cs] := by
  induction cs with
  | nil => rfl
  | cons c cs ih =>
      rw [List.mem_cons, not_or] at free
      rw [splitOn, if_neg (Ne.symm free.1), ih free.2]
      rfl

theorem splitOn_ne_nil (cs : List Char) : splitOn sep cs ≠ [] := by
  cases cs with
  | nil => exact List.cons_ne_nil _ _
  | cons c cs =>
      rw [splitOn]
      split
      · exact List.cons_ne_nil _ _
      · cases splitOn sep cs <;> exact List.cons_ne_nil _ _

/-- A character that does not separate goes to the first piece. -/
theorem splitOn_cons {c : Char} (other : c ≠ sep) : ∃ piece pieces, splitOn sep (c :: cs) = (c :: piece) :: pieces := by
  rw [splitOn, if_neg other]
  cases splitOn sep cs with
  | nil => exact ⟨[], [], rfl⟩
  | cons piece pieces => exact ⟨piece, pieces, rfl⟩

/-- Only the empty text has nothing but one empty piece. -/
theorem eq_nil_of_splitOn (empty : splitOn sep cs = [[]]) : cs = [] := by
  cases cs with
  | nil => rfl
  | cons c cs =>
      by_cases same : c = sep
      · rw [splitOn, if_pos same] at empty
        exact absurd (List.cons.inj empty).2 (splitOn_ne_nil cs)
      · obtain ⟨piece, pieces, found⟩ : ∃ piece pieces, splitOn sep (c :: cs) = (c :: piece) :: pieces :=
          splitOn_cons same
        rw [found] at empty
        cases empty

theorem not_mem_of_mem_splitOn {piece : List Char} (mem : piece ∈ splitOn sep cs) : sep ∉ piece := by
  induction cs generalizing piece with
  | nil =>
      rw [List.mem_singleton.1 mem]
      exact List.not_mem_nil
  | cons c cs ih =>
      rw [splitOn] at mem
      split at mem
      next =>
        rcases List.mem_cons.1 mem with rfl | further
        · exact List.not_mem_nil
        · exact ih further
      next other =>
        have some : splitOn sep cs ≠ [] := splitOn_ne_nil cs
        obtain ⟨first, pieces, found⟩ := List.exists_cons_of_ne_nil some
        rw [found] at mem ih
        rcases List.mem_cons.1 mem with rfl | further
        · rw [List.mem_cons, not_or]
          exact ⟨Ne.symm other, ih List.mem_cons_self⟩
        · exact ih (List.mem_cons_of_mem _ further)

/-- A separator divides the pieces before it from those behind it. -/
theorem splitOn_append (cs rest : List Char) : splitOn sep (cs ++ sep :: rest) = splitOn sep cs ++ splitOn sep rest := by
  induction cs with
  | nil => simp [splitOn]
  | cons c cs ih =>
      rw [List.cons_append, splitOn, splitOn, ih]
      split
      · rfl
      · have some : splitOn sep cs ≠ [] := splitOn_ne_nil cs
        obtain ⟨piece, pieces, found⟩ := List.exists_cons_of_ne_nil some
        rw [found]
        rfl

/-- Pieces without a slash. -/
def SlashFree (pieces : List String) : Prop := ∀ s ∈ pieces, '/' ∉ s.toList

instance (pieces : List String) : Decidable (SlashFree pieces) := inferInstanceAs (Decidable (∀ s ∈ pieces, _))

variable {pieces : List String}

/-- A text with a separator in it splits into the pieces of both sides. -/
theorem split_append (s t : String) : split '/' (s ++ "/" ++ t) = split '/' s ++ split '/' t := by
  have text : (s ++ "/" ++ t).toList = s.toList ++ '/' :: t.toList := by
    simp [String.toList_append]
  rw [split, text, splitOn_append, List.map_append]
  rfl

theorem split_ne_nil (s : String) : split '/' s ≠ [] := by
  rw [split, ne_eq, List.map_eq_nil_iff]
  exact splitOn_ne_nil s.toList

theorem slashFree_split (s : String) : SlashFree (split '/' s) := by
  intro piece mem
  obtain ⟨chars, among, rfl⟩ := List.mem_map.1 mem
  rw [String.toList_ofList]
  exact not_mem_of_mem_splitOn among

theorem eq_empty_of_split {s : String} (empty : split '/' s = [""]) : s = "" := by
  obtain ⟨piece, found, same⟩ := List.map_eq_singleton_iff.1 empty
  have none : piece = [] := String.ofList_eq_empty_iff.1 same
  rw [none] at found
  exact String.toList_eq_nil_iff.1 (eq_nil_of_splitOn found)

theorem split_eq_singleton {s : String} (free : '/' ∉ s.toList) : split '/' s = [s] := by
  rw [split, splitOn_eq_singleton free, List.map_singleton, String.ofList_toList]

/-- Pieces without slashes come back when joined by slashes and split. -/
theorem split_joinWith (some : pieces ≠ []) (free : SlashFree pieces) : split '/' (joinWith "/" pieces) = pieces := by
  induction pieces with
  | nil => exact absurd rfl some
  | cons s rest ih =>
      have first : '/' ∉ s.toList := free s List.mem_cons_self
      cases rest with
      | nil => exact split_eq_singleton first
      | cons t rest =>
          have others := ih (List.cons_ne_nil t rest) fun u mem => free u (List.mem_cons_of_mem s mem)
          rw [joinWith, split_append, split_eq_singleton first, others, List.singleton_append]

/-- The pieces of a text, joined again by what it was split at, are the text. -/
theorem joinWith_split {mark : String} (single : mark.toList = [sep]) (s : String) : joinWith mark (split sep s) = s := by
  have joined : ∀ cs : List Char, joinWith mark ((splitOn sep cs).map String.ofList) = String.ofList cs := by
    intro cs
    induction cs with
    | nil => rfl
    | cons c cs ih =>
        have some : splitOn sep cs ≠ [] := splitOn_ne_nil cs
        obtain ⟨piece, pieces, found⟩ := List.exists_cons_of_ne_nil some
        rw [found, List.map_cons] at ih
        apply String.toList_inj.1
        have text := congrArg String.toList ih
        rw [splitOn, found, String.toList_ofList]
        rw [String.toList_ofList] at text
        split
        next same =>
          rw [List.map_cons, List.map_cons, joinWith, String.toList_append, String.toList_append, text, single, same]
          rfl
        next =>
          rw [consLine, List.map_cons]
          cases pieces with
          | nil => simpa [joinWith] using text
          | cons next pieces => simpa [joinWith] using text
  rw [split, joined, String.ofList_toList]

/-- Joining what was joined. -/
theorem joinWith_append (mark : String) {xs ys : List String} (left : xs ≠ []) (right : ys ≠ []) :
    joinWith mark (xs ++ ys) = joinWith mark xs ++ mark ++ joinWith mark ys := by
  induction xs with
  | nil => exact absurd rfl left
  | cons x xs ih =>
      cases xs with
      | nil =>
          obtain ⟨y, ys, rfl⟩ := List.exists_cons_of_ne_nil right
          rfl
      | cons x' xs =>
          have inner := ih (List.cons_ne_nil _ _)
          simp only [List.cons_append] at inner ⊢
          rw [joinWith, joinWith, inner]
          simp only [String.append_assoc]

/-- Joined texts are equal only if the pieces are. -/
theorem joinWith_injective {others : List String} (some : pieces ≠ []) (free : SlashFree pieces) (someOther : others ≠ [])
    (freeOther : SlashFree others) (same : joinWith "/" pieces = joinWith "/" others) : pieces = others := by
  rw [← split_joinWith some free, ← split_joinWith someOther freeOther, same]

end Outline.Text
