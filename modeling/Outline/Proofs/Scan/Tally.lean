/-
Module: Outline.Proofs.Scan.Tally
Layer: Proofs
Purpose: What a scan has gathered does not depend on the order in which the results came, as long as they are about
  different paths: sorting erases the order of the outlines, and the map of reports, which is sorted as well, holds
  each of them since no path comes twice.
Main exports: sortedBy_eq_of_perm, FileResult.Consistent, FileResult.paths_perm, Tally.foldl_add, Tally.ofResults,
  Tally.gather_ok, Tally.exists_foldlM_take_error, Tally.mem_of_foldlM_take_error, Tally.result_ofResults,
  Tally.result_ofResults_of_perm, Tally.progress_ofResults
-/
import Outline.Proofs.Specifier.Tables
import Outline.Scan.Directory

namespace Outline

open Specifier (Interruption)

/-!
### Sorting by keys
-/

section Sorting

variable {α : Type} (key : α → String) {as bs : List α}

theorem sortedBy_perm (as : List α) : (sortedBy key as).Perm as := List.mergeSort_perm _ _

/-- With different keys, the keys increase. -/
theorem sortedBy_increasing (distinct : (as.map key).Nodup) : (sortedBy key as).Pairwise (key · < key ·) := by
  have ordered : (sortedBy key as).Pairwise fun a b => decide (key a ≤ key b) = true := by
    apply List.pairwise_mergeSort
    · intro a b c first second
      exact decide_eq_true (String.le_trans (of_decide_eq_true first) (of_decide_eq_true second))
    · intro a b
      rcases String.le_total (key a) (key b) with le | le
      · simp [le]
      · simp [le]
  have apart : (sortedBy key as).Pairwise fun a b => key a ≠ key b :=
    List.pairwise_map.1 (((sortedBy_perm key as).map key).nodup_iff.2 distinct)
  apply (ordered.and apart).imp
  rintro a b ⟨le, differ⟩
  apply Classical.byContradiction
  intro notLess
  exact differ (String.le_antisymm (of_decide_eq_true le) (String.not_lt.1 notLess))

/-- With different keys, the order before sorting does not matter. -/
theorem sortedBy_eq_of_perm (perm : as.Perm bs) (distinct : (as.map key).Nodup) : sortedBy key as = sortedBy key bs := by
  have same : (sortedBy key as).Perm (sortedBy key bs) :=
    ((sortedBy_perm key as).trans perm).trans (sortedBy_perm key bs).symm
  apply List.Perm.eq_of_pairwise _ (sortedBy_increasing key distinct)
    (sortedBy_increasing key ((perm.map key).nodup_iff.1 distinct)) same
  intro a b _ _ less greater
  exact absurd greater (String.lt_asymm less)

end Sorting

/-- Storing pairs with different keys that are not there yet puts them at the end. -/
theorem Entries.merge_eq_append {α : Type} {m ps : Entries α} (distinct : (ps.map (·.1)).Nodup)
    (fresh : ∀ p ∈ ps, Entries.get? m p.1 = none) : Entries.merge m ps = m ++ ps := by
  induction ps generalizing m with
  | nil => rw [List.append_nil]; rfl
  | cons p ps ih =>
      rw [List.map_cons, List.nodup_cons] at distinct
      have absent := fresh p List.mem_cons_self
      have stored : Entries.merge m (p :: ps) = Entries.merge (m ++ [p]) ps :=
        congrArg (Entries.merge · ps) (Entries.put_of_get?_eq_none p.2 absent)
      rw [stored, ih distinct.2]
      · rw [List.append_assoc, List.singleton_append]
      · intro q mem
        have differ : p.1 ≠ q.1 := fun same => distinct.1 (same ▸ List.mem_map_of_mem mem)
        rw [Entries.get?_append, fresh q (List.mem_cons_of_mem p mem)]
        simp [Entries.get?, differ]

/-!
### Results
-/

namespace FileResult

/-- The outline of a file that has one. -/
def outline? (r : FileResult) : Option FileOutline := r.outcome.toOption

/-- Path and report of a file that failed. -/
def error? (r : FileResult) : Option (String × String) :=
  match r.outcome with
  | .ok _ => none
  | .error report => some (r.path, report)

/-- The outline is told under the path of the file. -/
def Consistent (r : FileResult) : Prop := ∀ o, r.outcome = .ok o → o.path = r.path

/-- Each result is either an outline or a report, under its path. -/
theorem paths_perm {rs : List FileResult} (consistent : ∀ r ∈ rs, r.Consistent) :
    ((rs.filterMap outline?).map (·.path) ++ (rs.filterMap error?).map (·.1)).Perm (rs.map (·.path)) := by
  induction rs with
  | nil => exact .nil
  | cons r rs ih =>
      rw [List.forall_mem_cons] at consistent
      have others := ih consistent.2
      cases outcome : r.outcome with
      | ok o =>
          have asOutline : r.outline? = some o := by rw [outline?, outcome]; rfl
          have noError : r.error? = none := by simp only [error?, outcome]
          rw [List.filterMap_cons_some asOutline, List.filterMap_cons_none noError, List.map_cons, List.map_cons,
            consistent.1 o outcome]
          exact others.cons r.path
      | error report =>
          have noOutline : r.outline? = none := by rw [outline?, outcome]; rfl
          have asError : r.error? = some (r.path, report) := by simp only [error?, outcome]
          rw [List.filterMap_cons_none noOutline, List.filterMap_cons_some asError, List.map_cons, List.map_cons]
          exact List.perm_middle.trans (others.cons r.path)

end FileResult

open FileResult (outline? error?)

namespace Tally

variable {rs rs' : List FileResult}

/-- One result after another: outlines are added at the end, reports are stored under their paths, and the number of
    results is reported each time. -/
theorem foldl_add (total : Nat) (t : Tally) (rs : List FileResult) :
    rs.foldl (add total) t =
      { processed := t.processed + rs.length
        files := t.files ++ rs.filterMap outline?
        errors := Entries.merge t.errors (rs.filterMap error?)
        progress := t.progress ++ (List.range rs.length).map fun k => (t.processed + k + 1, total) } := by
  induction rs generalizing t with
  | nil => simp [Entries.merge]
  | cons r rs ih =>
      have reports : (t.processed + 1, total) ::
          (List.range rs.length).map (fun k => (t.processed + 1 + k + 1, total)) =
            (List.range (r :: rs).length).map fun k => (t.processed + k + 1, total) := by
        rw [List.length_cons, List.range_succ_eq_map, List.map_cons, List.map_map]
        simp [Function.comp_def, Nat.add_assoc, Nat.add_comm 1]
      rw [List.foldl_cons, ih]
      cases outcome : r.outcome with
      | ok o =>
          have asOutline : r.outline? = some o := by rw [outline?, outcome]; rfl
          have noError : r.error? = none := by simp only [error?, outcome]
          simp only [add, outcome, List.filterMap_cons_some asOutline, List.filterMap_cons_none noError,
            List.append_assoc, List.singleton_append, reports]
          rw [List.length_cons, Nat.add_assoc, Nat.add_comm 1]
      | error report =>
          have noOutline : r.outline? = none := by rw [outline?, outcome]; rfl
          have asError : r.error? = some (r.path, report) := by simp only [error?, outcome]
          simp only [add, outcome, List.filterMap_cons_none noOutline, List.filterMap_cons_some asError,
            List.append_assoc, List.singleton_append, reports]
          rw [List.length_cons, Nat.add_assoc, Nat.add_comm 1]
          rfl

/-- What is known after some results, when nothing was interrupted. -/
def ofResults (rs : List FileResult) : Tally := rs.foldl (add rs.length) {}

/-- Results none of which is an interruption are gathered. -/
theorem gather_ok (rs : List FileResult) : gather (rs.map .ok) = .ok (ofResults rs) := by
  have each : ∀ (total : Nat) (t : Tally), (rs.map .ok).foldlM (take total) t = .ok (rs.foldl (add total) t) := by
    intro total t
    induction rs generalizing t with
    | nil => rfl
    | cons r rs ih => exact ih _
  rw [gather, List.length_map]
  exact each rs.length {}

/-- With an interruption among the results, the scan ends with one of them. -/
theorem exists_foldlM_take_error {results : List (Except Interruption FileResult)} {why : Interruption}
    (interrupted : .error why ∈ results) (total : Nat) (t : Tally) :
    ∃ why', .error why' ∈ results ∧ results.foldlM (take total) t = .error why' := by
  induction results generalizing t with
  | nil => cases interrupted
  | cons r results ih =>
      cases r with
      | error why' => exact ⟨why', List.mem_cons_self, rfl⟩
      | ok r =>
          obtain ⟨why', mem, ended⟩ := ih ((List.mem_cons.1 interrupted).resolve_left nofun) (t.add total r)
          exact ⟨why', List.mem_cons_of_mem _ mem, ended⟩

/-- The interruption that ends a scan is one of the results. -/
theorem mem_of_foldlM_take_error {results : List (Except Interruption FileResult)} {total : Nat} {t : Tally}
    {why : Interruption} (ended : results.foldlM (take total) t = .error why) : .error why ∈ results := by
  induction results generalizing t with
  | nil => cases ended
  | cons r results ih =>
      cases r with
      | error why' =>
          cases ended
          exact List.mem_cons_self
      | ok r => exact List.mem_cons_of_mem _ (ih ended)

/-- The reports on the progress of a whole scan: one of `total` is done, two of them, and so on to the last. -/
def allReports (total : Nat) : List (Nat × Nat) := (List.range total).map fun k => (k + 1, total)

/-- The reports on the progress are the same for any results. -/
theorem progress_ofResults (rs : List FileResult) : (ofResults rs).progress = allReports rs.length := by
  rw [ofResults, foldl_add]
  simp [allReports]

/-- What is gathered from results about different paths. -/
theorem result_ofResults (consistent : ∀ r ∈ rs, r.Consistent) (distinct : (rs.map (·.path)).Nodup) :
    (ofResults rs).result = ⟨sortedBy (·.path) (rs.filterMap outline?), sortedBy (·.1) (rs.filterMap error?)⟩ := by
  have apart := (FileResult.paths_perm consistent).nodup_iff.2 distinct
  have errors : Entries.merge [] (rs.filterMap error?) = rs.filterMap error? :=
    Entries.merge_eq_append (List.nodup_append.1 apart).2.1 fun _ _ => rfl
  rw [ofResults, foldl_add, result, errors, List.nil_append]

/-- The order in which the results came does not matter. -/
theorem result_ofResults_of_perm (perm : rs'.Perm rs) (consistent : ∀ r ∈ rs, r.Consistent)
    (distinct : (rs.map (·.path)).Nodup) : (ofResults rs').result = (ofResults rs).result := by
  have consistent' : ∀ r ∈ rs', r.Consistent := fun r mem => consistent r (perm.mem_iff.1 mem)
  have distinct' : (rs'.map (·.path)).Nodup := (perm.map _).nodup_iff.2 distinct
  have apart := List.nodup_append.1 ((FileResult.paths_perm consistent').nodup_iff.2 distinct')
  rw [result_ofResults consistent distinct, result_ofResults consistent' distinct',
    sortedBy_eq_of_perm _ (perm.filterMap outline?) apart.1, sortedBy_eq_of_perm _ (perm.filterMap error?) apart.2.1]

end Tally

end Outline
