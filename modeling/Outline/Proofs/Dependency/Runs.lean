/-
Module: Outline.Proofs.Dependency.Runs
Layer: Proofs
Purpose: The maximal runs of a list and the places where they begin. What is cut off as a run while going through the
  list is just what stands in it between two places where the run cannot go on, so the runs come in the order of their
  places, and two lists put together have their runs together unless a run goes on from one into the other.
Main exports: IsRun, RunAt, placedRuns, placedRuns_append, runs_append, mem_placedRuns, pairwise_placedRuns, mem_runs
-/
import Mathlib.Data.List.TakeWhile
import Outline.Dependency

namespace Outline

variable {α : Type} {p : α → Bool} {a : α} {as bs run : List α} {start place : Nat}

@[simp] theorem runs_nil : runs p [] = [] := by rw [runs]

/-- A character that fits starts a run, which goes on as long as characters fit. -/
theorem runs_cons_of_pos (holds : p a = true) :
    runs p (a :: as) = (a :: as.takeWhile p) :: runs p (as.dropWhile p) := by
  rw [runs, if_pos holds]

theorem runs_cons_of_neg (fails : p a = false) : runs p (a :: as) = runs p as := by
  rw [runs, if_neg (by simp [fails])]

/-- What satisfies `p` nowhere has no runs, and none of those behind it is changed by it. -/
theorem runs_append_of_none (none : ∀ a ∈ as, p a = false) : runs p (as ++ bs) = runs p bs := by
  induction as with
  | nil => rfl
  | cons a as ih =>
      rw [List.forall_mem_cons] at none
      rw [List.cons_append, runs_cons_of_neg none.1, ih none.2]

/-!
### Places
-/

/-- The maximal runs, each with the place where it begins; the places of the list itself count from `start`. -/
def placedRuns (p : α → Bool) (start : Nat) : List α → List (Nat × List α)
  | [] => []
  | a :: as =>
    if p a then
      (start, a :: as.takeWhile p) :: placedRuns p (start + (a :: as.takeWhile p).length) (as.dropWhile p)
    else placedRuns p (start + 1) as
termination_by as => as.length
decreasing_by
  · exact Nat.lt_succ_of_le (as.dropWhile_sublist p).length_le
  · exact Nat.lt_succ_self _

@[simp] theorem placedRuns_nil : placedRuns p start [] = [] := by rw [placedRuns]

theorem placedRuns_cons_of_pos (holds : p a = true) :
    placedRuns p start (a :: as) =
      (start, a :: as.takeWhile p) :: placedRuns p (start + (a :: as.takeWhile p).length) (as.dropWhile p) := by
  rw [placedRuns, if_pos holds]

theorem placedRuns_cons_of_neg (fails : p a = false) : placedRuns p start (a :: as) = placedRuns p (start + 1) as := by
  rw [placedRuns, if_neg (by simp [fails])]

/-- Without their places these are the runs. -/
theorem map_snd_placedRuns (start : Nat) (as : List α) : (placedRuns p start as).map Prod.snd = runs p as := by
  induction as using runs.induct p generalizing start with
  | case1 => rw [placedRuns_nil, runs_nil, List.map_nil]
  | case2 a as holds ih => rw [placedRuns_cons_of_pos holds, runs_cons_of_pos holds, List.map_cons, ih]
  | case3 a as fails ih =>
      have fails : p a = false := by simpa using fails
      rw [placedRuns_cons_of_neg fails, runs_cons_of_neg fails, ih]

/-- What satisfies `p` throughout is one run. -/
theorem placedRuns_of_all (start : Nat) (some : as ≠ []) (all : ∀ a ∈ as, p a = true) :
    placedRuns p start as = [(start, as)] := by
  obtain ⟨a, rest, rfl⟩ := List.exists_cons_of_ne_nil some
  obtain ⟨first, others⟩ := List.forall_mem_cons.1 all
  rw [placedRuns_cons_of_pos first, List.takeWhile_eq_self_iff.2 others, List.dropWhile_eq_nil_iff.2 others,
    placedRuns_nil]

/-- The runs of two lists are those of their concatenation, at the same places, unless a run goes on from one into the
    other. -/
theorem placedRuns_append (start : Nat) (apart : ∀ a ∈ as.getLast?, ∀ b ∈ bs.head?, p a = true → p b = false) :
    placedRuns p start (as ++ bs) = placedRuns p start as ++ placedRuns p (start + as.length) bs := by
  induction as using runs.induct p generalizing start with
  | case1 => rw [placedRuns_nil, List.nil_append, List.nil_append, List.length_nil, Nat.add_zero]
  | case2 a as holds ih =>
      rw [List.cons_append, placedRuns_cons_of_pos holds, placedRuns_cons_of_pos holds, List.cons_append]
      by_cases whole : as.dropWhile p = []
      · -- the run reaches the end of the first list, and the second one does not go on with it
        have every : ∀ c ∈ a :: as, p c = true := List.forall_mem_cons.2 ⟨holds, List.dropWhile_eq_nil_iff.1 whole⟩
        have stops : ∀ b ∈ bs.head?, p b = false := by
          intro b isHead
          have last := List.getLast?_eq_some_getLast (List.cons_ne_nil a as)
          exact apart _ last b isHead (every _ (List.getLast_mem _))
        have kept : bs.takeWhile p = [] ∧ bs.dropWhile p = bs := by
          cases bs with
          | nil => exact ⟨rfl, rfl⟩
          | cons b bs => simp [stops b rfl]
        have all : as.takeWhile p = as := List.takeWhile_eq_self_iff.2 fun c mem => every c (List.mem_cons_of_mem a mem)
        rw [List.takeWhile_append, List.dropWhile_append, all, if_pos rfl, whole, if_pos List.isEmpty_nil,
          kept.1, kept.2, List.append_nil, placedRuns_nil, List.nil_append]
      · have parts := List.takeWhile_append_dropWhile (p := p) (l := as)
        have lengths : as.length = (as.takeWhile p).length + (as.dropWhile p).length := by
          rw [← List.length_append, parts]
        have shorter : (as.takeWhile p).length ≠ as.length := by
          intro same
          exact whole (List.eq_nil_of_length_eq_zero (by omega))
        have place : start + (a :: as.takeWhile p).length + (as.dropWhile p).length = start + (a :: as).length := by
          simp only [List.length_cons]
          omega
        rw [List.takeWhile_append, List.dropWhile_append, if_neg shorter, if_neg (by simpa using whole), ih, place]
        intro c isLast
        apply apart
        have suffix : a :: as = (a :: as.takeWhile p) ++ as.dropWhile p := by rw [List.cons_append, parts]
        rw [suffix, List.getLast?_append, Option.mem_def.1 isLast]
        rfl
  | case3 a as fails ih =>
      have fails : p a = false := by simpa using fails
      have place : start + 1 + as.length = start + (a :: as).length := by
        rw [List.length_cons]
        omega
      rw [List.cons_append, placedRuns_cons_of_neg fails, placedRuns_cons_of_neg fails, ih, place]
      intro c isLast
      apply apart
      rw [List.getLast?_cons, Option.mem_def.1 isLast]
      rfl

/-- The runs of two lists are those of their concatenation, unless a run goes on from one into the other. -/
theorem runs_append (apart : ∀ a ∈ as.getLast?, ∀ b ∈ bs.head?, p a = true → p b = false) :
    runs p (as ++ bs) = runs p as ++ runs p bs := by
  have placed := congrArg (List.map Prod.snd) (placedRuns_append 0 apart)
  rwa [List.map_append, map_snd_placedRuns, map_snd_placedRuns, map_snd_placedRuns] at placed

/-!
### Runs where they stand
-/

/-- A maximal run: elements that satisfy `p`, at least one, between a part that does not end with such an element and
    one that does not begin with one. -/
structure IsRun (p : α → Bool) (before run after : List α) : Prop where
  nonempty : run ≠ []
  holds : ∀ a ∈ run, p a = true
  starts : ∀ a ∈ before.getLast?, p a = false
  stops : ∀ a ∈ after.head?, p a = false

/-- A maximal run stands in a list, from a place on. -/
def RunAt (p : α → Bool) (as : List α) (place : Nat) (run : List α) : Prop :=
  ∃ before after, as = before ++ (run ++ after) ∧ before.length = place ∧ IsRun p before run after

/-- A run stands as well in a longer list, if what is put in front does not go on with it. -/
theorem RunAt.behind {front : List α} (stands : RunAt p as place run)
    (apart : ∀ a ∈ front.getLast?, ∀ b ∈ as.head?, p a = true → p b = false) :
    RunAt p (front ++ as) (front.length + place) run := by
  obtain ⟨before, after, rfl, rfl, isRun⟩ := stands
  refine ⟨front ++ before, after, (List.append_assoc ..).symm, List.length_append, isRun.nonempty, isRun.holds, ?_,
    isRun.stops⟩
  intro c isLast
  rw [List.getLast?_append] at isLast
  cases ending : before.getLast? with
  | some d =>
      rw [ending] at isLast
      exact isRun.starts c (ending.trans isLast)
  | none =>
      -- the run begins where the longer list goes on, and its first element satisfies `p`
      rw [ending, Option.none_or] at isLast
      rw [List.getLast?_eq_none_iff.1 ending, List.nil_append] at apart
      obtain ⟨b, rest, rfl⟩ := List.exists_cons_of_ne_nil isRun.nonempty
      have first : p b = true := isRun.holds b List.mem_cons_self
      by_contra goesOn
      have stopped := apart c isLast b rfl (by simpa using goesOn)
      rw [first] at stopped
      cases stopped

/-- What is cut off while going through a list are the runs that stand in it. -/
theorem mem_placedRuns : (place, run) ∈ placedRuns p start as ↔ ∃ k, place = start + k ∧ RunAt p as k run := by
  constructor
  · intro mem
    induction as using runs.induct p generalizing start with
    | case1 => simp at mem
    | case2 a as holds ih =>
        have parts : (a :: as.takeWhile p) ++ as.dropWhile p = a :: as := by
          rw [List.cons_append, List.takeWhile_append_dropWhile]
        have ends : ∀ b ∈ (as.dropWhile p).head?, p b = false := by
          intro b isHead
          have stopped := List.head?_dropWhile_not p as
          rw [Option.mem_def.1 isHead] at stopped
          simpa using stopped
        rw [placedRuns_cons_of_pos holds, List.mem_cons] at mem
        rcases mem with here | further
        · cases here
          refine ⟨0, rfl, [], as.dropWhile p, parts.symm, rfl, List.cons_ne_nil _ _, ?_, nofun, ends⟩
          exact List.forall_mem_cons.2 ⟨holds, fun c mem => List.mem_takeWhile_imp mem⟩
        · obtain ⟨k, rfl, stands⟩ := ih further
          refine ⟨_, Nat.add_assoc .., ?_⟩
          rw [← parts]
          exact stands.behind fun c _ b isHead _ => ends b isHead
    | case3 a as fails ih =>
        have fails : p a = false := by simpa using fails
        rw [placedRuns_cons_of_neg fails] at mem
        obtain ⟨k, rfl, stands⟩ := ih mem
        have apart : ∀ c ∈ [a].getLast?, ∀ b ∈ as.head?, p c = true → p b = false := by
          intro c isLast b _ holds
          have same : a = c := Option.some.inj isLast
          rw [← same, fails] at holds
          cases holds
        exact ⟨1 + k, Nat.add_assoc .., stands.behind apart⟩
  · rintro ⟨_, rfl, before, after, rfl, rfl, isRun⟩
    have apart : ∀ a ∈ run.getLast?, ∀ b ∈ after.head?, p a = true → p b = false := fun _ _ b isHead _ =>
      isRun.stops b isHead
    rw [placedRuns_append start, placedRuns_append _ apart, placedRuns_of_all _ isRun.nonempty isRun.holds]
    · exact List.mem_append_right _ List.mem_cons_self
    · intro c isLast _ _ holds
      rw [isRun.starts c isLast] at holds
      cases holds

/-- The runs come in the order of their places. -/
theorem pairwise_placedRuns : (placedRuns p start as).Pairwise fun x y => x.1 < y.1 := by
  induction as using runs.induct p generalizing start with
  | case1 => rw [placedRuns_nil]; exact .nil
  | case2 a as holds ih =>
      rw [placedRuns_cons_of_pos holds]
      refine .cons ?_ ih
      rintro ⟨place, run⟩ further
      obtain ⟨k, rfl, _⟩ := mem_placedRuns.1 further
      simp only [List.length_cons]
      omega
  | case3 a as fails ih =>
      rw [placedRuns_cons_of_neg (by simpa using fails)]
      exact ih

/-- The runs are those that stand somewhere in the list. -/
theorem mem_runs : run ∈ runs p as ↔ ∃ place, RunAt p as place run := by
  rw [← map_snd_placedRuns 0, List.mem_map]
  constructor
  · rintro ⟨⟨place, _⟩, mem, rfl⟩
    obtain ⟨k, _, stands⟩ := mem_placedRuns.1 mem
    exact ⟨k, stands⟩
  · rintro ⟨place, stands⟩
    exact ⟨(0 + place, run), mem_placedRuns.2 ⟨place, rfl, stands⟩, rfl⟩

end Outline
