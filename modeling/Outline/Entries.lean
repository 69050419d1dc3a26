/-
Module: Outline.Entries
Layer: Data
Purpose: Maps that remember the order in which their keys came, as lists of pairs. Writing a key that is
  already there keeps its place and takes the new value.
Main exports: Entries, Entries.get?, Entries.put, Entries.ofPairs, Entries.merge, distinct
-/

namespace Outline

/-- An insertion-ordered map from strings, as the list of its pairs. -/
abbrev Entries (α : Type) := List (String × α)

namespace Entries

variable {α : Type}

/-- The keys, in order. -/
def keys (m : Entries α) : List String := m.map (·.1)

/-- The value stored under a key. -/
def get? : Entries α → String → Option α
  | [], _ => none
  | (k, v) :: rest, key => if k = key then some v else get? rest key

/-- Store a value under a key: in the place the key has, or at the end. -/
def put : Entries α → String → α → Entries α
  | [], key, value => [(key, value)]
  | (k, v) :: rest, key, value =>
    if k = key then (k, value) :: rest else (k, v) :: put rest key value

/-- The map that arises from storing pairs one after the other. -/
def ofPairs (pairs : List (String × α)) : Entries α :=
  pairs.foldl (fun m p => put m p.1 p.2) []

/-- Store all pairs of `upper` into `lower`. -/
def merge (lower upper : Entries α) : Entries α :=
  upper.foldl (fun m p => put m p.1 p.2) lower

/-- The value just stored is found. -/
theorem get?_put_self (m : Entries α) (key : String) (value : α) :
    get? (put m key value) key = some value := by
  induction m with
  | nil => simp [put, get?]
  | cons p rest ih =>
    obtain ⟨k, v⟩ := p
    by_cases h : k = key <;> simp [put, get?, h, ih]

/-- Storing under one key leaves the others alone. -/
theorem get?_put_of_ne (m : Entries α) {key other : String} (value : α) (h : other ≠ key) :
    get? (put m key value) other = get? m other := by
  induction m with
  | nil => simp [put, get?, Ne.symm h]
  | cons p rest ih =>
    obtain ⟨k, v⟩ := p
    by_cases hk : k = key
    · subst hk; simp [put, get?, Ne.symm h]
    · by_cases ho : k = other
      · subst ho; simp [put, get?, h]
      · simp [put, get?, hk, ho, ih]

end Entries

/-- The elements of a list without repetition, in the order of their first occurrence. `seen` holds those
    already given. -/
def distinctFrom {α : Type} [DecidableEq α] (seen : List α) : List α → List α
  | [] => []
  | a :: rest => if a ∈ seen then distinctFrom seen rest else a :: distinctFrom (a :: seen) rest

/-- The elements of a list without repetition, in the order of their first occurrence. -/
def distinct {α : Type} [DecidableEq α] (as : List α) : List α := distinctFrom [] as

end Outline
