/-
Module: Outline.Proofs.Entries.Distinct
Layer: Proofs
Purpose: Lists without their repetitions. Each element is there once, and each has in the list with repetitions a place
  before all places of those behind it, which leaves no choice in how the elements are arranged.
Main exports: mem_distinct, nodup_distinctFrom, pairwise_distinctFrom, distinct_eq_eraseDups, FirstOccurrences,
  firstOccurrences_distinct
-/
import Mathlib.Data.List.Basic
import Outline.Entries

namespace Outline

theorem mem_distinctFrom {α : Type} [DecidableEq α] {a : α} {seen as : List α} :
    a ∈ distinctFrom seen as ↔ a ∈ as ∧ a ∉ seen := by
  induction as generalizing seen with
  | nil => simp [distinctFrom]
  | cons b bs ih =>
      rw [distinctFrom]
      split
      · rename_i old
        rw [ih, List.mem_cons]
        constructor
        · rintro ⟨mem, fresh⟩
          exact ⟨Or.inr mem, fresh⟩
        · rintro ⟨rfl | mem, fresh⟩
          · exact absurd old fresh
          · exact ⟨mem, fresh⟩
      · rename_i new
        rw [List.mem_cons, ih, List.mem_cons, List.mem_cons]
        by_cases same : a = b
        · subst same
          simp [new]
        · simp [same]

/-- Leaving out repetitions loses no element. -/
theorem mem_distinct {α : Type} [DecidableEq α] {a : α} {as : List α} : a ∈ distinct as ↔ a ∈ as := by
  simp [distinct, mem_distinctFrom]

theorem nodup_distinctFrom {α : Type} [DecidableEq α] (seen as : List α) : (distinctFrom seen as).Nodup := by
  induction as generalizing seen with
  | nil => exact List.nodup_nil
  | cons a as ih =>
      rw [distinctFrom]
      split
      · exact ih seen
      · apply List.nodup_cons.2
        exact ⟨by simp [mem_distinctFrom], ih (a :: seen)⟩

/-- Without its repetitions a list keeps the order of first occurrences: each element has a place before all places of
    those behind it. -/
theorem pairwise_distinctFrom {α : Type} [DecidableEq α] {placed : List (Nat × α)}
    (increasing : placed.Pairwise fun x y => x.1 < y.1) (seen : List α) :
    (distinctFrom seen (placed.map Prod.snd)).Pairwise fun first later =>
      ∃ i, (i, first) ∈ placed ∧ ∀ j, (j, later) ∈ placed → i < j := by
  induction placed generalizing seen with
  | nil => exact .nil
  | cons x placed ih =>
      obtain ⟨i, a⟩ := x
      obtain ⟨before, increasing⟩ := List.pairwise_cons.1 increasing
      -- the first pair is no place of an element that comes up further on
      have further : ∀ seen', a ∈ seen' → (distinctFrom seen' (placed.map Prod.snd)).Pairwise fun first later =>
          ∃ k, (k, first) ∈ (i, a) :: placed ∧ ∀ j, (j, later) ∈ (i, a) :: placed → k < j := by
        intro seen' old
        refine (ih increasing seen').imp_of_mem ?_
        rintro first later _ mem ⟨k, stands, least⟩
        refine ⟨k, List.mem_cons_of_mem _ stands, ?_⟩
        intro j at_
        rcases List.mem_cons.1 at_ with same | among
        · cases same
          exact absurd old (mem_distinctFrom.1 mem).2
        · exact least j among
      rw [List.map_cons, distinctFrom]
      split
      next old => exact further seen old
      next new =>
        refine .cons ?_ (further (a :: seen) List.mem_cons_self)
        intro later mem
        refine ⟨i, List.mem_cons_self, ?_⟩
        intro j at_
        rcases List.mem_cons.1 at_ with same | among
        · cases same
          exact absurd List.mem_cons_self (mem_distinctFrom.1 mem).2
        · exact before _ among

/-- Leaving out repetitions one after the other is what the library calls erasing duplicates. -/
theorem distinctFrom_eq_eraseDups {α : Type} [DecidableEq α] (seen as : List α) :
    distinctFrom seen as = (as.filter fun a => a ∉ seen).eraseDups := by
  induction as generalizing seen with
  | nil => rfl
  | cons a as ih =>
      rw [distinctFrom]
      split
      next old => rw [ih, List.filter_cons_of_neg (by simpa using old)]
      next new =>
        rw [ih, List.filter_cons_of_pos (by simpa using new), List.eraseDups_cons, List.filter_filter]
        congr 3
        funext b
        simp only [List.mem_cons, not_or, Bool.decide_and, decide_not]
        rfl

/-- Keeping first occurrences is what the core library calls erasing duplicates. -/
theorem distinct_eq_eraseDups {α : Type} [DecidableEq α] (as : List α) : distinct as = as.eraseDups := by
  rw [distinct, distinctFrom_eq_eraseDups, List.filter_eq_self.2 fun _ _ => by simp]

/-- The places of a list come in increasing order. -/
theorem pairwise_zipIdx {α : Type} (as : List α) : as.zipIdx.Pairwise fun x y => x.2 < y.2 := by
  have places : (as.zipIdx.map Prod.snd).Pairwise (· < ·) := by
    rw [List.zipIdx_map_snd]
    exact List.pairwise_lt_range'
  exact List.pairwise_map.1 places

theorem mem_of_mem_zipIdx {α : Type} {as : List α} {a : α} {i : Nat} (mem : (a, i) ∈ as.zipIdx) : a ∈ as :=
  List.mem_of_getElem? (List.mem_zipIdx_iff_getElem?.1 mem)

/-- `firsts` are the elements of `as` without repetition, in the order in which they first occur. -/
structure FirstOccurrences {α : Type} (as firsts : List α) : Prop where
  mem : ∀ a, a ∈ firsts ↔ a ∈ as
  /-- Each element occurs somewhere before all occurrences of those behind it. -/
  order : firsts.Pairwise fun first later =>
    ∃ i : Nat, as[i]? = some first ∧ ∀ j : Nat, as[j]? = some later → i < j

/-- Leaving out repetitions leaves the first occurrences. -/
theorem firstOccurrences_distinct {α : Type} [DecidableEq α] (as : List α) : FirstOccurrences as (distinct as) := by
  refine ⟨fun a => mem_distinct, ?_⟩
  have placed : ∀ i a, (i, a) ∈ as.zipIdx.map Prod.swap ↔ as[i]? = some a := by
    intro i a
    have known : (a, i) ∈ as.zipIdx ↔ as[i]? = some a := List.mem_zipIdx_iff_getElem?
    rw [← known]
    simp
  have increasing : (as.zipIdx.map Prod.swap).Pairwise fun x y => x.1 < y.1 :=
    List.pairwise_map.2 (pairwise_zipIdx as)
  have elements : (as.zipIdx.map Prod.swap).map Prod.snd = as := by
    rw [List.map_map]
    exact List.zipIdx_map_fst 0 as
  have order := pairwise_distinctFrom increasing []
  simp only [placed, elements] at order
  exact order

end Outline
