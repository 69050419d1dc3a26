/-
Module: Outline.Proofs.Dependency.Letters
Layer: Proofs
Purpose: Names with letters beyond ASCII. Code is searched for runs of word characters, while a name may hold other
  letters as well. So a name with such a letter is never found, and a name without one is found in every longer name
  in which it stands between such letters. For each imported name this is the whole difference: the theorem says
  exactly when its search gives what stands in the code as a whole name.
Main exports: isNameChar, StandsWhole, IsPlainName, Unmixed, ReadsName, mem_names_iff, readsName_iff
-/
import Mathlib.Data.List.Chain
import Outline.Proofs.Dependency.FirstUse

namespace Outline

open Specifier (Resolved)

/-- A character of a name: a word character, or one of some further letters. -/
def isNameChar (letter : Char → Bool) (c : Char) : Bool := isWordChar c || letter c

/-- A name stands in a piece of code as a maximal run of characters that satisfy `p`. -/
def StandsWhole (p : Char → Bool) (code name : String) : Prop := ∃ place, RunAt p code.toList place name.toList

instance (p : Char → Bool) (code name : String) : Decidable (StandsWhole p code name) :=
  decidable_of_iff (name.toList ∈ runs p code.toList) mem_runs

/-- A plain name: word characters alone, and no digit in front. -/
def IsPlainName (name : String) : Prop :=
  (∀ c ∈ name.toList, isWordChar c = true) ∧ name.toList.head?.any Char.isDigit = false

instance (name : String) : Decidable (IsPlainName name) :=
  decidable_of_iff ((name.toList.all isWordChar && !name.toList.head?.any Char.isDigit) = true) (by simp [IsPlainName])

/-- Nowhere in a piece of code a word character and one of the further letters stand side by side. -/
def Unmixed (letter : Char → Bool) (code : String) : Prop :=
  code.toList.IsChain fun a b => isNameChar letter a = true → isNameChar letter b = true → isWordChar a = isWordChar b

instance (letter : Char → Bool) (code : String) : Decidable (Unmixed letter code) :=
  inferInstanceAs (Decidable (List.IsChain _ _))

/-- A name is among the dependencies exactly if it stands in the code as a whole name. -/
def ReadsName (letter : Char → Bool) (imports : Entries Resolved) (code name : String) : Prop :=
  name ∈ nameSet (findDependencies imports code) ↔ StandsWhole (isNameChar letter) code name

variable {letter : Char → Bool} {imports : Entries Resolved} {code name : String}

/-- Word characters are among those of names, whichever letters names may have. -/
theorem isNameChar_of_isWordChar {c : Char} (word : isWordChar c = true) : isNameChar letter c = true := by
  rw [isNameChar, word, Bool.true_or]

theorem isWordChar_of_not_isNameChar {c : Char} (none : isNameChar letter c = false) : isWordChar c = false :=
  (Bool.or_eq_false_iff.1 none).1

/-- The search finds the plain names that stand in the code as whole words. -/
theorem mem_names_iff (imported : (Entries.get? imports name).isSome) :
    name ∈ nameSet (findDependencies imports code) ↔ IsPlainName name ∧ StandsWhole isWordChar code name := by
  rw [mem_nameSet_findDependencies, mem_identifiers]
  constructor
  · rintro ⟨⟨place, stands, proper⟩, _⟩
    obtain ⟨before, after, _, _, isRun⟩ := id stands
    exact ⟨⟨isRun.holds, proper⟩, place, stands⟩
  · rintro ⟨⟨_, proper⟩, place, stands⟩
    exact ⟨⟨place, stands, proper⟩, imported⟩

/-- A plain name that stands as a whole name stands as a whole word too. -/
theorem StandsWhole.asWord (plain : IsPlainName name) (stands : StandsWhole (isNameChar letter) code name) :
    StandsWhole isWordChar code name := by
  obtain ⟨place, before, after, parts, length, isRun⟩ := stands
  refine ⟨place, before, after, parts, length, isRun.nonempty, plain.1, ?_, ?_⟩
  · exact fun c isLast => isWordChar_of_not_isNameChar (isRun.starts c isLast)
  · exact fun c isHead => isWordChar_of_not_isNameChar (isRun.stops c isHead)

/-- Where word characters and further letters never stand side by side, a whole word is a whole name. -/
theorem StandsWhole.asName (unmixed : Unmixed letter code) (stands : StandsWhole isWordChar code name) :
    StandsWhole (isNameChar letter) code name := by
  obtain ⟨place, before, after, parts, length, isRun⟩ := stands
  rw [Unmixed, parts, List.isChain_append, List.isChain_append] at unmixed
  obtain ⟨_, ⟨_, _, atEnd⟩, atStart⟩ := unmixed
  -- a further letter beside the word would stand beside a word character
  have apart : ∀ {c d : Char}, isWordChar c = false → isWordChar d = true → isWordChar c ≠ isWordChar d := by
    intro c d other word same
    rw [other, word] at same
    cases same
  refine ⟨place, before, after, parts, length, isRun.nonempty,
    fun c mem => isNameChar_of_isWordChar (isRun.holds c mem), ?_, ?_⟩
  · intro c isLast
    obtain ⟨first, rest, same⟩ := List.exists_cons_of_ne_nil isRun.nonempty
    have word : isWordChar first = true := isRun.holds first (same ▸ List.mem_cons_self)
    have isHead : first ∈ (name.toList ++ after).head? := by rw [same]; rfl
    by_contra joins
    exact apart (isRun.starts c isLast) word
      (atStart c isLast first isHead (by simpa using joins) (isNameChar_of_isWordChar word))
  · intro c isHead
    have isLast := List.getLast?_eq_some_getLast isRun.nonempty
    have word : isWordChar (name.toList.getLast isRun.nonempty) = true := isRun.holds _ (List.getLast_mem _)
    by_contra joins
    exact apart (isRun.stops c isHead) word
      (atEnd _ isLast c isHead (isNameChar_of_isWordChar word) (by simpa using joins)).symm

/-- An imported name is found if it is plain and stands in the code as a whole word. So it is found just where it stands
    as a whole name, if it is plain and stands somewhere as a whole name, should it stand anywhere as a whole word, or
    is not plain and stands nowhere as a whole name; and in particular if it is plain and no further letter stands
    beside a word character. -/
theorem readsName_iff (letter : Char → Bool) (code : String) (imported : (Entries.get? imports name).isSome) :
    (name ∈ nameSet (findDependencies imports code) ↔ IsPlainName name ∧ StandsWhole isWordChar code name) ∧
      (ReadsName letter imports code name ↔
        (IsPlainName name → StandsWhole isWordChar code name → StandsWhole (isNameChar letter) code name) ∧
          (¬IsPlainName name → ¬StandsWhole (isNameChar letter) code name)) ∧
      (IsPlainName name → Unmixed letter code → ReadsName letter imports code name) := by
  have found : name ∈ nameSet (findDependencies imports code) ↔ IsPlainName name ∧ StandsWhole isWordChar code name :=
    mem_names_iff imported
  have exactly : ReadsName letter imports code name ↔
      (IsPlainName name → StandsWhole isWordChar code name → StandsWhole (isNameChar letter) code name) ∧
        (¬IsPlainName name → ¬StandsWhole (isNameChar letter) code name) := by
    rw [ReadsName, found]
    constructor
    · rintro ⟨whole, back⟩
      exact ⟨fun plain stands => whole ⟨plain, stands⟩, fun notPlain stands => notPlain (back stands).1⟩
    · rintro ⟨whole, none⟩
      refine ⟨fun ⟨plain, stands⟩ => whole plain stands, ?_⟩
      intro stands
      have plain : IsPlainName name := by
        by_contra notPlain
        exact none notPlain stands
      exact ⟨plain, stands.asWord plain⟩
  refine ⟨found, exactly, ?_⟩
  intro plain unmixed
  exact exactly.2 ⟨fun _ stands => stands.asName unmixed, fun notPlain => absurd plain notPlain⟩

/-- An accent in a name of its own does not disturb the search for a plain one. -/
theorem readsName_beside_accent :
    let imports : Entries Resolved := [("a", ⟨"./x", "x", false⟩)]
    (Entries.get? imports "a").isSome ∧ IsPlainName "a" ∧ Unmixed (· == 'é') "é(a)" ∧
      "a" ∈ nameSet (findDependencies imports "é(a)") ∧ ReadsName (· == 'é') imports "é(a)" "a" := by
  intro imports
  have imported : (Entries.get? imports "a").isSome := by decide
  have plain : IsPlainName "a" := by decide +kernel
  have unmixed : Unmixed (· == 'é') "é(a)" := by decide +kernel
  obtain ⟨found, _, apart⟩ := readsName_iff (· == 'é') "é(a)" imported
  exact ⟨imported, plain, unmixed, found.2 ⟨plain, by decide +kernel⟩, apart plain unmixed⟩

/-- Whatever else counts as a letter: an imported name `é` is missed where it stands, and an imported name `na` is found
    in `naïve`. -/
theorem misread_accents :
    (¬∃ letter : Char → Bool, letter 'é' = true ∧ ReadsName letter [("é", ⟨"./x", "x", false⟩)] "é" "é") ∧
      ¬∃ letter : Char → Bool, letter 'ï' = true ∧ ReadsName letter [("na", ⟨"./x", "x", false⟩)] "naïve" "na" := by
  constructor
  · rintro ⟨letter, accent, reads⟩
    have whole : StandsWhole (isNameChar letter) "é" "é" := by
      refine ⟨0, [], [], rfl, rfl, by decide, ?_, nofun, nofun⟩
      simp [isNameChar, accent]
    exact absurd (reads.2 whole) (by decide +kernel)
  · rintro ⟨letter, accent, reads⟩
    have all : ∀ c ∈ "naïve".toList, isNameChar letter c = true := by
      simp [isNameChar, isWordChar, accent]
    obtain ⟨place, stands⟩ := reads.1 (by decide +kernel)
    have among : (0 + place, "na".toList) ∈ placedRuns (isNameChar letter) 0 "naïve".toList :=
      mem_placedRuns.2 ⟨place, rfl, stands⟩
    rw [placedRuns_of_all 0 (by decide) all, List.mem_singleton] at among
    have same : "na".toList = "naïve".toList := congrArg Prod.snd among
    exact absurd same (by decide)

end Outline
