/-
Module: Outline.Proofs.Module.Attribution
Layer: Proofs
Purpose: How specifiers are resolved decides to which module a name is attributed, and nothing else. Two outlines of
  one file, made with any two alias tables, probes and endings, fail alike or list the same declarations up to
  attribution, and each declaration and class member uses the same imported names in both, as long as no probe breaks
  off. The two walks make their imports under the same names, and no step looks at what a name is bound to.
Main exports: Relabelling.unattributed, Declaration.nameSets, SameUpToAttribution, Comparison.attribution,
  extractProbing_sameUpToAttribution
-/
import Outline.Disk.Probe
import Outline.Module.Extract
import Outline.Proofs.Declaration.Relabel
import Outline.Proofs.Dependency.Names
import Outline.Proofs.Module.Comparison
import Outline.Proofs.Module.Interruptions

namespace Outline

open Specifier (Aliases Probe Resolved Resolver SearchOptions firstInterruption)

/-- Forget to which modules names are attributed, of declarations and class members. -/
def Relabelling.unattributed : Relabelling where
  head h := { h with dependencies := [] }
  method m := { m with dependencies := [] }
  property p := { p with dependencies := [] }
  origin _ := ""

/-- The imported names that each member of a class uses, in order. -/
def ClassMembers.nameSets (ms : ClassMembers) : List (Finset String) :=
  ms.properties.map (nameSet ·.dependencies) ++ ms.methods.map (nameSet ·.dependencies) ++
    ms.constructor.toList.map (nameSet ·.dependencies)

namespace Declaration

mutual

/-- The imported names that a declaration uses, then those that each of its members uses. -/
def nameSetsOfOne : Declaration → List (Finset String)
  | classDecl head _ _ members _ => nameSet head.dependencies :: members.nameSets
  | namespaceDecl head members => nameSet head.dependencies :: nameSets members
  | d => [nameSet d.head.dependencies]

/-- The imported names that each declaration of a list and each of their members uses, in order. -/
def nameSets : List Declaration → List (Finset String)
  | [] => []
  | d :: ds => nameSetsOfOne d ++ nameSets ds

end

end Declaration

/-- Two lists of declarations that differ only in the modules to which names are attributed. -/
structure SameUpToAttribution (ds ds' : List Declaration) : Prop where
  /-- All else is the same. -/
  declared : ds.map (Declaration.relabel .unattributed) = ds'.map (Declaration.relabel .unattributed)
  /-- The names used are the same, declaration by declaration and member by member. -/
  used : Declaration.nameSets ds = Declaration.nameSets ds'

/-!
### Declarations that differ in attribution
-/

/-- Only attribution differs: the dependencies hold the same names, and re-exports may come from anywhere. -/
def Likeness.attribution (path : String) : Likeness :=
  .sameNames path (fun ds ds' => nameSet ds = nameSet ds') (fun _ _ => True) rfl

variable {path : String}

/-- Being alike up to attribution gives the same declaration once the attribution is taken off. -/
theorem Likeness.attribution_unifies (path : String) :
    (Likeness.attribution path).Unifies .unattributed .unattributed where
  heads := by
    rintro h h' ⟨name, uri, _, rest⟩
    rw [rest, ← name, ← Likeness.uris_sameNames uri]
    rfl
  methods := by
    rintro m m' ⟨uri, _, rest⟩
    rw [rest, ← Likeness.uris_sameNames uri]
    rfl
  properties := by
    rintro p p' ⟨uri, _, rest⟩
    rw [rest, ← Likeness.uris_sameNames uri]
    rfl
  origins _ := rfl

/-- Members that are alike up to attribution use the same names. -/
theorem Likeness.attribution_nameSets {ms ms' : ClassMembers} (members : (Likeness.attribution path).Members ms ms') :
    ms.nameSets = ms'.nameSets := by
  obtain ⟨properties, methods, builder⟩ := ms
  obtain ⟨properties', methods', builder'⟩ := ms'
  obtain ⟨sameProperties, sameMethods, sameBuilder⟩ := members
  have builders : builder.toList.map (nameSet ·.dependencies) = builder'.toList.map (nameSet ·.dependencies) := by
    cases sameBuilder with
    | none => rfl
    | some related => exact congrArg (fun names => [names]) related.dependencies
  simp only [ClassMembers.nameSets, builders]
  rw [map_eq_map_of_forall₂ sameProperties fun _ _ related => related.dependencies,
    map_eq_map_of_forall₂ sameMethods fun _ _ related => related.dependencies]

mutual

/-- Declarations that are alike up to attribution use the same names. -/
theorem Declaration.Alike.nameSetsOfOne_eq {d d' : Declaration}
    (alike : Declaration.Alike (.attribution path) d d') : d.nameSetsOfOne = d'.nameSetsOfOne := by
  have own : nameSet d.head.dependencies = nameSet d'.head.dependencies := alike.heads.dependencies
  cases alike with
  | functionDecl | interfaceDecl | typeAlias | enumDecl | variableDecl | reExport =>
      exact congrArg (fun names => [names]) own
  | classDecl _ members =>
      exact congrArg₂ List.cons own (Likeness.attribution_nameSets members)
  | namespaceDecl _ members =>
      exact congrArg₂ List.cons own (Declaration.AllAlike.nameSets_eq members)

/-- Lists of declarations that are alike up to attribution use the same names, one by one. -/
theorem Declaration.AllAlike.nameSets_eq {ds ds' : List Declaration}
    (alike : Declaration.AllAlike (.attribution path) ds ds') : nameSets ds = nameSets ds' := by
  cases alike with
  | nil => rfl
  | cons head tail =>
      exact congrArg₂ (· ++ ·) (Declaration.Alike.nameSetsOfOne_eq head) (Declaration.AllAlike.nameSets_eq tail)

end

/-- Declarations that are alike one by one are the same up to attribution as a list. -/
theorem sameUpToAttribution_of_forall₂ {ds ds' : List Declaration}
    (alike : List.Forall₂ (Declaration.Alike (.attribution path)) ds ds') : SameUpToAttribution ds ds' where
  declared := map_eq_map_of_forall₂ alike fun _ _ related => related.relabel_eq (Likeness.attribution_unifies path)
  used := (Declaration.allAlike_of_forall₂ alike).nameSets_eq

/-!
### Walks that differ in attribution
-/

/-- The same names are imported. -/
def SameImportedNames (l l' : Links) : Prop :=
  ∀ name, (Entries.get? l.imports name).isSome = (Entries.get? l'.imports name).isSome

/-- With the same imported names, the same names are found in a piece of code. -/
theorem SameImportedNames.nameSet_eq {l l' : Links} (same : SameImportedNames l l') (code : String) :
    nameSet (findDependencies l.imports code) = nameSet (findDependencies l'.imports code) := by
  ext name
  rw [mem_nameSet_findDependencies, mem_nameSet_findDependencies, same name]

/-- The imported names stay the same if one name is imported on both sides, from whichever modules. -/
theorem SameImportedNames.put {l l' : Links} (same : SameImportedNames l l') (name : String) (x x' : Resolved) :
    SameImportedNames { l with imports := Entries.put l.imports name x }
      { l' with imports := Entries.put l'.imports name x' } := by
  intro other
  rw [Entries.isSome_get?_put, Entries.isSome_get?_put, same other]

/-- A re-export depends on the one name that it passes on. -/
theorem names_reExportDependency (x : Resolved) (name : String) : (reExportDependency x name).names = [name] := by
  unfold reExportDependency
  split <;> rfl

/-- Two walks with any two resolvers, from tables that import the same names. Whatever specifiers are resolved, and
    wherever they lead, the walks go on alike. -/
def Comparison.attribution (r r' : Resolver) (path : String) : Comparison r r' where
  toLikeness := .attribution path
  qualifier := (· = ·)
  entered _ := True
  links := SameImportedNames
  resolved _ _ := True
  specifier _ _ := True
  specifier_refl _ := trivial
  name_qualifiedBy := @qualifiedBy_congr
  qualifier_enter := @qualifiedBy_enter
  dependencies_find code same := same.nameSet_eq code
  dependencies_reExport n _ := by
    change nameSet _ = nameSet _
    simp only [nameSet, List.flatMap_cons, List.flatMap_nil, names_reExportDependency]
  origin_source _ := trivial
  imported := by
    intro l l' n same
    have isSome := same n
    cases bound : Entries.get? l.imports n with
    | none =>
        cases bound' : Entries.get? l'.imports n with
        | none => exact .none
        | some b' => simp [bound, bound'] at isSome
    | some b =>
        cases bound' : Entries.get? l'.imports n with
        | none => simp [bound, bound'] at isSome
        | some b' => exact .some trivial
  links_bind n same _ := same.put n _ _
  resolve := by
    intro spec spec' _ l l' same
    unfold Walk.resolve
    -- Either side may find its specifier in the table or not; imports stay as they are.
    split <;> split <;> exact ⟨same, .nil, rfl, rfl, .ok trivial⟩

/-!
### Outlines
-/

/-- Outlines that agree broke off alike. -/
theorem Extraction.interruption?_congr {R : List Declaration → List Declaration → Prop} {x x' : Extraction}
    (agree : ResultsAgree R x.result x'.result) : x.interruption? = x'.interruption? := by
  obtain ⟨events, result⟩ := x
  obtain ⟨events', result'⟩ := x'
  cases agree with
  | ok | error => rfl

/-- An outline is what the walk over the file comes to. -/
theorem extractFrom_result (r : Resolver) (src : Source) (path : String) (root : Node) (table : Entries Resolved) :
    (extractFrom r src path root table).result =
      (processScope ⟨src, path, r, ""⟩ root { resolved := table }).result.mapError .undecodable := by
  unfold extractFrom outlineTree
  dsimp only
  cases (processScope ⟨src, path, r, ""⟩ root { resolved := table }).result with
  | ok ds => rfl
  | error span => rfl

/-- Outlines of a file from any two resolvers and tables of resolutions. -/
theorem extractFrom_sameUpToAttribution (r r' : Resolver) (src : Source) (path : String) (root : Node)
    (table table' : Entries Resolved) :
    ResultsAgree SameUpToAttribution (extractFrom r src path root table).result
      (extractFrom r' src path root table').result := by
  have alike : Surroundings.Alike (.attribution r r' path) ⟨src, path, r, ""⟩ ⟨src, path, r', ""⟩ := .intro src rfl
  have agree := alike.processScope root (Source.namespaceNames_of_forall fun _ => trivial)
    { resolved := table } { resolved := table' } fun _ => rfl
  rw [extractFrom_result, extractFrom_result]
  exact (agree.result.mono fun _ _ => sameUpToAttribution_of_forall₂).mapError _

/-- Two ways of resolving specifiers give outlines of a file that are the same up to attribution, exactly if nothing
    breaks off in either of them, or both break off for one reason. Then both fail alike, or both list the same
    declarations, which use the same imported names and may differ only in the modules to which these are attributed.
    What breaks off is the probe, over a path for which it has no answer. -/
theorem extractProbing_sameUpToAttribution (src : Source) (path : String) (root : Node) (aliases aliases' : Aliases)
    (options options' : SearchOptions) (probe probe' : Probe) :
    ResultsAgree SameUpToAttribution (extractProbing src path root aliases options probe).1.result
        (extractProbing src path root aliases' options' probe').1.result ↔
      firstInterruption probe (extractProbing src path root aliases options probe).2 =
        firstInterruption probe' (extractProbing src path root aliases' options' probe').2 := by
  rw [← extractProbing_interruption, ← extractProbing_interruption]
  constructor
  · exact Extraction.interruption?_congr
  · unfold extractProbing
    cases acceptedSpecifiers src root with
    | error e => exact fun _ => .error e
    | ok specs =>
        dsimp only
        split
        next why _ =>
          split
          next why' _ =>
            intro same
            cases Option.some.inj same
            exact .error _
          next table _ =>
            intro same
            rw [Extraction.answered_iff.1 (extractFrom_answered src path root _ table)] at same
            cases same
        next table _ =>
          split
          next why _ =>
            intro same
            rw [Extraction.answered_iff.1 (extractFrom_answered src path root _ table)] at same
            cases same
          next table' _ => exact fun _ => extractFrom_sameUpToAttribution _ _ src path root table table'

/-- A file that imports a name and uses it. -/
def importingSource : Source := ⟨"import{b}from\"@/x\";export const a=b;"⟩

/-- The tree of `importingSource`. -/
def importingTree : Node :=
  .construct "program" none 0 36
    [.construct "import_statement" none 0 19
      [.construct "import_clause" none 6 9
        [.construct "named_imports" none 6 9
          [.construct "import_specifier" none 7 8 [.construct "identifier" (some "name") 7 8 []]]],
       .construct "string" (some "source") 13 18 []],
     .construct "export_statement" none 19 36
      [.construct "lexical_declaration" (some "declaration") 26 36
        [{ Node.construct "const" (some "kind") 26 31 [] with isNamed := false },
         .construct "variable_declarator" none 32 35
          [.construct "identifier" (some "name") 32 33 [], .construct "identifier" (some "value") 34 35 []]]]]

/-- An alias that leads to a directory with a zero character in its name. -/
def zeroAliases : Aliases := [("@/*", "a\x00/*")]

/-- A disk with nothing on it. -/
def bareDisk : Disk := { root := .directory [] }

/-- Without a probe the file has an outline, and with the command there is none: no word of a command can hold the
    character, and nothing that knows of the failure is between the command and the outline. -/
theorem broken_attribution :
    (extractProbing importingSource "a.ts" importingTree zeroAliases {} (makeProbe bareDisk .none none)).1.result.toOption.map
        (fun ds => ds.map fun d => (d.head.name, d.head.dependencies)) =
      some [("a", [.internal "a\x00/x" ["b"]])] ∧
    ¬ ResultsAgree SameUpToAttribution
        (extractProbing importingSource "a.ts" importingTree zeroAliases {} (makeProbe bareDisk .none none)).1.result
        (extractProbing importingSource "a.ts" importingTree zeroAliases {} (makeProbe bareDisk .command none)).1.result := by
  have outlined : (extractProbing importingSource "a.ts" importingTree zeroAliases {}
      (makeProbe bareDisk .none none)).1.interruption? = none := by decide +kernel
  have broken : (extractProbing importingSource "a.ts" importingTree zeroAliases {}
      (makeProbe bareDisk .command none)).1.interruption? = some .zeroCharacter := by decide +kernel
  refine ⟨by decide +kernel, fun agree => ?_⟩
  have same := Extraction.interruption?_congr agree
  rw [outlined, broken] at same
  cases same

end Outline
