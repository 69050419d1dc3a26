/-
Module: Outline.Proofs.Text.Lower
Layer: Proofs
Purpose: The lower case of a text is its own lower case. No run of capitals leads to a capital, which is checked for each
  two runs by the ends of the one and their distance from the other.
Main exports: Text.Uncased, Text.uncased_of_mem_lower, Text.lower_of_uncased, Text.lower_lower
-/
import Mathlib.Data.List.Basic
import Outline.Text.Lower

namespace Outline.Text

/-- A character without a lower case other than itself. -/
def Uncased (c : Char) : Prop := c.toNat ≠ 0x130 ∧ ∀ r ∈ caseRuns, r.covers c.toNat = false

/-!
### Images of runs
-/

namespace CaseRun

variable {r r' : CaseRun} {n : Nat}

/-- The lower case of a code point of a run. -/
def image (r : CaseRun) (n : Nat) : Nat := ((n : Int) + r.shift).toNat

/-- A run covers the code points between its ends at its stride. -/
theorem covers_iff : r.covers n = true ↔ r.first ≤ n ∧ n ≤ r.last ∧ (n - r.first) % r.stride = 0 := by
  simp only [covers, Bool.and_eq_true, decide_eq_true_eq, beq_iff_eq, and_assoc]

/-- The stride of a run; that of a single code point does not matter. -/
def step (r : CaseRun) : Nat := if r.first = r.last then 2 else r.stride

/-- By its ends and its stride, a run leads nowhere into another one. -/
def misses (r r' : CaseRun) : Bool :=
  Nat.blt (r.image r.last) r'.first || Nat.blt r'.last (r.image r.first) ||
    (Nat.beq r'.stride 2 && Nat.beq r.step 2 && Nat.beq ((r.image r.first + r'.first) % 2) 1)

/-- A run leads to characters only. -/
def isSound (r : CaseRun) : Bool :=
  decide (0 ≤ (r.first : Int) + r.shift) &&
    (Nat.blt (r.image r.last) 0xD800 || Nat.blt 0xDFFF (r.image r.first) && Nat.blt (r.image r.last) 0x110000)

/-- The images of a sound run lie between those of its ends. -/
theorem image_bounds (sound : r.isSound = true) (covered : r.covers n = true) :
    r.image r.first ≤ r.image n ∧ r.image n ≤ r.image r.last ∧ r.image n = r.image r.first + (n - r.first) := by
  obtain ⟨first, last, -⟩ := covers_iff.1 covered
  simp only [isSound, Bool.and_eq_true, decide_eq_true_eq] at sound
  unfold image
  omega

/-- A run that misses another covers none of the code points it maps to. -/
theorem covers_image_of_misses (sound : r.isSound = true) (misses : r.misses r' = true) (covered : r.covers n = true) :
    r'.covers (r.image n) = false := by
  obtain ⟨low, high, distance⟩ := image_bounds sound covered
  obtain ⟨first, last, strides⟩ := covers_iff.1 covered
  rw [← Bool.not_eq_true, covers_iff]
  rintro ⟨first', last', strides'⟩
  simp only [CaseRun.misses, Bool.or_eq_true, Nat.blt_eq, Bool.and_eq_true, Nat.beq_eq] at misses
  rcases misses with (below | above) | ⟨⟨two', two⟩, odd⟩
  · omega
  · omega
  · -- both runs skip every second code point, and not the same
    rw [two'] at strides'
    unfold step at two
    split at two
    next single => omega
    next => rw [two] at strides; omega

theorem isValidChar_image (sound : r.isSound = true) (covered : r.covers n = true) : (r.image n).isValidChar := by
  obtain ⟨low, high, -⟩ := image_bounds sound covered
  simp only [isSound, Bool.and_eq_true, Bool.or_eq_true, Nat.blt_eq] at sound
  unfold Nat.isValidChar
  omega

end CaseRun

/-- The capital that has a lower case of two characters, as a run. -/
def dottedRun : CaseRun := ⟨0x130, 0x130, 1, 0⟩

theorem sound_caseRuns : ∀ r ∈ caseRuns, r.isSound = true := List.all_eq_true.1 (by decide +kernel)

theorem misses_caseRuns : ∀ r ∈ caseRuns, ∀ r' ∈ dottedRun :: caseRuns, r.misses r' = true := by
  have all : (caseRuns.all fun r => (dottedRun :: caseRuns).all r.misses) = true := by decide +kernel
  exact fun r mem => List.all_eq_true.1 (List.all_eq_true.1 all r mem)

/-!
### Lower case
-/

variable {c d : Char} {cs : List Char}

theorem toLower_of_outside (outside : ¬(0x41 ≤ c.toNat ∧ c.toNat ≤ 0x5A)) : c.toLower = c := by
  unfold Char.toLower
  rw [dif_neg]
  rintro ⟨first, last⟩
  exact outside ⟨first, last⟩

theorem lowerChar_of_uncased (uncased : Uncased c) : lowerChar c = [c] := by
  obtain ⟨notDotted, outside⟩ := uncased
  unfold lowerChar
  simp only []
  split
  next =>
    have notCapital := outside ⟨0x41, 0x5A, 1, 32⟩ List.mem_cons_self
    rw [← Bool.not_eq_true, CaseRun.covers_iff] at notCapital
    rw [toLower_of_outside fun within => notCapital ⟨within.1, within.2, Nat.mod_one _⟩]
  next =>
    have none : caseRuns.find? (·.covers c.toNat) = none := List.find?_eq_none.2 fun r mem => by simp [outside r mem]
    rw [none]

theorem ne_sigma_of_uncased (uncased : Uncased c) : c.toNat ≠ 0x3A3 := by
  intro sigma
  have covered : caseRuns.any (·.covers 0x3A3) = true := by decide +kernel
  obtain ⟨r, mem, covers⟩ := List.any_eq_true.1 covered
  rw [← sigma, uncased.2 r mem] at covers
  exact Bool.false_ne_true covers

theorem uncased_of_forall (outside : ∀ r ∈ dottedRun :: caseRuns, r.covers c.toNat = false) : Uncased c := by
  refine ⟨?_, fun r mem => outside r (List.mem_cons_of_mem _ mem)⟩
  intro dotted
  have missed := outside dottedRun List.mem_cons_self
  rw [dotted] at missed
  exact absurd missed (by decide)

/-- ASCII characters other than capitals are uncased. -/
theorem uncased_of_ascii (ascii : c.toNat < 0x80) (notCapital : ¬(0x41 ≤ c.toNat ∧ c.toNat ≤ 0x5A)) : Uncased c := by
  refine ⟨by omega, fun r mem => ?_⟩
  have others : ∀ r ∈ caseRuns.tail, 0x80 ≤ r.first := by decide +kernel
  rw [← Bool.not_eq_true, CaseRun.covers_iff]
  rintro ⟨first, last, -⟩
  rcases List.mem_cons.1 mem with rfl | among
  · exact notCapital ⟨first, last⟩
  · have beyond := others r among
    omega

theorem uncased_toLower (ascii : c.toNat < 0x80) : Uncased c.toLower := by
  by_cases capital : 0x41 ≤ c.toNat ∧ c.toNat ≤ 0x5A
  · have shifted : c.toLower.toNat = c.toNat + 32 := by
      have small : c.toNat + 32 < 4294967296 := by omega
      unfold Char.toLower
      rw [dif_pos (by exact capital)]
      simpa using small
    exact uncased_of_ascii (by omega) (by omega)
  · rw [toLower_of_outside capital]
    exact uncased_of_ascii ascii capital

/-- The lower case of a character has no capitals. -/
theorem uncased_of_mem_lowerChar (mem : d ∈ lowerChar c) : Uncased d := by
  unfold lowerChar at mem
  simp only [] at mem
  split at mem
  next ascii =>
    obtain rfl := List.mem_singleton.1 mem
    exact uncased_toLower ascii
  next beyond =>
    split at mem
    next =>
      rcases List.mem_pair.1 mem with rfl | rfl
      · exact uncased_of_ascii (by decide) (by decide)
      · exact uncased_of_forall (List.forall_mem_cons.2 ⟨by decide, by decide +kernel⟩)
    next notDotted =>
      split at mem
      next r found =>
        obtain rfl := List.mem_singleton.1 mem
        have isRun := List.mem_of_find?_eq_some found
        have covered := List.find?_some found
        have valid := CaseRun.isValidChar_image (sound_caseRuns r isRun) covered
        have code : (Char.ofNat (r.image c.toNat)).toNat = r.image c.toNat := by
          rw [Char.ofNat, dif_pos valid]
          rfl
        apply uncased_of_forall
        intro r' mem'
        change r'.covers (Char.ofNat (r.image c.toNat)).toNat = false
        rw [code]
        exact CaseRun.covers_image_of_misses (sound_caseRuns r isRun) (misses_caseRuns r isRun r' mem') covered
      next none =>
        obtain rfl := List.mem_singleton.1 mem
        exact ⟨notDotted, fun r isRun => by simpa using List.find?_eq_none.1 none r isRun⟩

theorem uncased_of_mem_lowerFrom {before : List Char} (mem : d ∈ lowerFrom before cs) : Uncased d := by
  induction cs generalizing before with
  | nil => cases mem
  | cons c rest ih =>
      rcases List.mem_append.1 mem with first | further
      · split at first
        next =>
          obtain rfl := List.mem_singleton.1 first
          split
          · exact uncased_of_forall (List.forall_mem_cons.2 ⟨by decide, by decide +kernel⟩)
          · exact uncased_of_forall (List.forall_mem_cons.2 ⟨by decide, by decide +kernel⟩)
        next => exact uncased_of_mem_lowerChar first
      · exact ih further

/-- What was put in lower case has uncased characters only. -/
theorem uncased_of_mem_lower {s : String} (mem : d ∈ (lower s).toList) : Uncased d := by
  rw [lower, String.toList_ofList] at mem
  exact uncased_of_mem_lowerFrom mem

/-- Uncased text stays as it is, whatever stands before it. -/
theorem lowerFrom_of_uncased (uncased : ∀ c ∈ cs, Uncased c) (before : List Char) : lowerFrom before cs = cs := by
  induction cs generalizing before with
  | nil => rfl
  | cons c rest ih =>
      obtain ⟨first, others⟩ := List.forall_mem_cons.1 uncased
      rw [lowerFrom, if_neg (ne_sigma_of_uncased first), lowerChar_of_uncased first, ih others, List.singleton_append]

/-- A text without capitals is its own lower case. -/
theorem lower_of_uncased {s : String} (uncased : ∀ c ∈ s.toList, Uncased c) : lower s = s := by
  rw [lower, lowerFrom_of_uncased uncased, String.ofList_toList]

/-- Lower case is put in lower case once. -/
theorem lower_lower (s : String) : lower (lower s) = lower s := lower_of_uncased fun _ => uncased_of_mem_lower

end Outline.Text
