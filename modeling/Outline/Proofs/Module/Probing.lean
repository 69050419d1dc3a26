/-
Module: Outline.Proofs.Module.Probing
Layer: Proofs
Purpose: A probe that confirms none of the paths it is asked for changes nothing: the outline made with it is the
  outline made by text alone. Its table of resolutions is then the one made by text alone, and specifiers that the
  table lacks are resolved by text on both sides, so that the two walks go step by step with equal tables.
Main exports: firstConfirmed_eq_none, Resolver.tableProbing_eq_table, Comparison.resolvers,
  extractProbing_eq_extract
-/
import Outline.Module.Extract
import Outline.Proofs.Declaration.Relabel
import Outline.Proofs.Module.Comparison
import Outline.Proofs.Specifier.Tables

namespace Outline

open Specifier (Aliases Probe Resolved Resolver SearchOptions)

namespace Specifier

/-- The search ends without a find if the probe confirms none of the paths asked for. -/
theorem firstConfirmed_eq_none {probe : Probe} (paths : List String)
    (misses : ∀ path ∈ (firstConfirmed probe paths).asked, probe path = .absent ∨ probe path = .failed) :
    (firstConfirmed probe paths).result = .ok none := by
  induction paths with
  | nil => rfl
  | cons path rest ih =>
      have asked : path ∈ (firstConfirmed probe (path :: rest)).asked := by
        simp only [firstConfirmed, ask, bind, Inquiry.bind]
        split <;> simp
      have unconfirmed : (probe path).confirms = .ok false := by
        rcases misses path asked with absent | failed
        · rw [absent]; rfl
        · rw [failed]; rfl
      have further : firstConfirmed probe (path :: rest) =
          ⟨path :: (firstConfirmed probe rest).asked, (firstConfirmed probe rest).result⟩ := by
        simp [firstConfirmed, ask, bind, Inquiry.bind, unconfirmed]
      rw [further] at misses ⊢
      exact ih fun p mem => misses p (List.mem_cons_of_mem path mem)

namespace Resolver

/-- Nothing confirmed, the best guess stays. -/
theorem resolveProbing_eq_resolve (r : Resolver) {probe : Probe} (file spec : String)
    (misses : ∀ path ∈ (r.resolveProbing (some probe) file spec).asked, probe path = .absent ∨ probe path = .failed) :
    (r.resolveProbing (some probe) file spec).result = .ok (r.resolve file spec) := by
  unfold resolveProbing resolve at *
  split
  · rename_i external
    simp [external, pure, Inquiry.pure]
  · rename_i internal
    rw [if_neg internal] at misses
    have none : (searchFile r.options probe (resolveInternal r.aliases file spec)).result = .ok none := by
      refine firstConfirmed_eq_none _ fun path mem => misses path ?_
      simp only [bind, Inquiry.bind]
      split
      · exact mem
      · exact List.mem_append_left _ mem
    simp [none, internal, bind, Inquiry.bind, pure, Inquiry.pure]

/-- A probe that misses every path it is asked about leaves the table as it is without one. -/
theorem tableProbing_eq_table (r : Resolver) {probe : Probe} (file : String) (specs : List String)
    (misses : ∀ path ∈ (r.tableProbing (some probe) file specs).asked, probe path = .absent ∨ probe path = .failed) :
    (r.tableProbing (some probe) file specs).result = .ok (r.table file specs) := by
  have tells : ∀ path ∈ (r.tableProbing (some probe) file specs).asked, Tells probe path := by
    intro path mem why broken
    rcases misses path mem with absent | failed
    · cases broken.symm.trans absent
    · cases broken.symm.trans failed
  obtain ⟨table, ended⟩ := (r.tableProbing_follows probe file specs).ok_iff.2 tells
  obtain ⟨value, each, rfl⟩ := r.tableProbing_ok (some probe) file specs ended
  rw [r.tableProbing_eq (some probe) file specs each] at misses
  rw [ended, table]
  refine congrArg Except.ok (List.map_congr_left fun spec mem => ?_)
  have resolved := r.resolveProbing_eq_resolve file spec fun path asked =>
    misses path (List.mem_flatMap.2 ⟨spec, mem, asked⟩)
  rw [each spec (mem_distinct.1 mem)] at resolved
  rw [Except.ok.inj resolved]

end Resolver

end Specifier

/-!
### Resolvers that resolve alike
-/

theorem Likeness.exact_unifies (path : String) : (Likeness.exact path).Unifies .keep .keep where
  heads := by
    rintro h h' ⟨name, uri, dependencies, rest⟩
    rw [rest, ← name, ← Likeness.uris_sameNames uri, ← dependencies]
  methods := by
    rintro m m' ⟨uri, dependencies, rest⟩
    rw [rest, ← Likeness.uris_sameNames uri, ← dependencies]
  properties := by
    rintro p p' ⟨uri, dependencies, rest⟩
    rw [rest, ← Likeness.uris_sameNames uri, ← dependencies]
  origins := by
    rintro source _ rfl
    rfl

/-- Declarations that are exactly alike are the same. -/
theorem Declaration.Alike.eq {path : String} {d d' : Declaration}
    (alike : Declaration.Alike (.exact path) d d') : d = d' := by
  have same := alike.relabel_eq (Likeness.exact_unifies path)
  rwa [Declaration.relabel_keep, Declaration.relabel_keep] at same

/-- Two walks with resolvers that resolve the specifiers of the file alike, from equal tables. -/
def Comparison.resolvers {r r' : Resolver} (path : String)
    (same : ∀ spec, r.resolve path spec = r'.resolve path spec) : Comparison r r' :=
  .equalTables (.exact path) (Likeness.exact_dependencies path) (Likeness.exact_origin path) same (· = ·)
    (fun _ => True) @qualifiedBy_congr @qualifiedBy_enter

/-- What a walk over a scope leaves behind depends on the resolver only through how it resolves specifiers. -/
theorem processScope_congr_resolver {r r' : Resolver} (source : Source) (path qualifier : String)
    (same : ∀ spec, r.resolve path spec = r'.resolve path spec) (body : Node) (links : Links) :
    processScope ⟨source, path, r, qualifier⟩ body links = processScope ⟨source, path, r', qualifier⟩ body links := by
  have alike : Surroundings.Alike (.resolvers path same) ⟨source, path, r, qualifier⟩
      ⟨source, path, r', qualifier⟩ :=
    .intro source rfl
  have agree := alike.processScope body (Source.namespaceNames_of_forall fun _ => trivial) links links rfl
  refine agree.eq (fun _ _ => Declaration.Alike.eq) fun ds ds' same => ?_
  exact List.forall₂_eq_eq_eq ▸ same.imp fun _ _ => Declaration.Alike.eq

/-!
### Outlines
-/

/-- With a probe that confirms none of the paths it is asked for, whether it says that they are absent or fails to
    tell, the outline of a file is the one made by text alone, whatever endings are tried: the same declarations
    or the same failure, and the same events. -/
theorem extractProbing_eq_extract (src : Source) (path : String) (root : Node) (aliases : Aliases)
    (options : SearchOptions) (probe : Probe)
    (misses : ∀ p ∈ (extractProbing src path root aliases options probe).2, probe p = .absent ∨ probe p = .failed) :
    (extractProbing src path root aliases options probe).1 = extract src path root aliases := by
  unfold extractProbing extract at *
  cases accepted : acceptedSpecifiers src root with
  | error e => rfl
  | ok specs =>
      have table := Resolver.tableProbing_eq_table { aliases, options } path specs fun p asked => misses p (by
        rw [accepted]
        dsimp only
        split <;> exact asked)
      -- The endings tried play no part in resolution by text.
      have same : ∀ spec, Resolver.resolve { aliases, options } path spec = Resolver.resolve { aliases } path spec :=
        fun _ => rfl
      have walk := processScope_congr_resolver src path "" same root
      simp only [extractFrom, outlineTree, table, walk]
      rfl

/-- A file that imports a name and exports it again. -/
def passedOnSource : Source := ⟨"import{A}from'./m';export{A}"⟩

/-- The tree of `passedOnSource`. -/
def passedOnTree : Node :=
  .construct "program" none 0 28
    [.construct "import_statement" none 0 19
      [.construct "import_clause" none 6 9
        [.construct "named_imports" none 6 9
          [.construct "import_specifier" none 7 8 [.construct "identifier" (some "name") 7 8 []]]],
       .construct "string" (some "source") 13 18 []],
     .construct "export_statement" none 19 28
      [.construct "export_clause" none 25 28
        [.construct "export_specifier" none 26 27 [.construct "identifier" (some "name") 26 27 []]]]]

/-- A probe that finds nothing and cannot tell of one path. -/
def blindProbe : Probe := fun path => if path = "m.ts" then .failed else .absent

theorem blindProbe_denies (path : String) : blindProbe path = .absent ∨ blindProbe path = .failed := by
  unfold blindProbe
  split <;> simp

/-- The probe is asked for two paths, fails on one and denies the other, and the outline stays the same. -/
theorem extractProbing_blindProbe :
    (extractProbing passedOnSource "a.ts" passedOnTree [] ⟨[".ts"], ["/x.ts"]⟩ blindProbe).2 = ["m.ts", "m/x.ts"] ∧
      (extractProbing passedOnSource "a.ts" passedOnTree [] ⟨[".ts"], ["/x.ts"]⟩ blindProbe).1 =
        extract passedOnSource "a.ts" passedOnTree [] :=
  ⟨by decide +kernel, extractProbing_eq_extract _ _ _ _ _ _ fun path _ => blindProbe_denies path⟩

end Outline
