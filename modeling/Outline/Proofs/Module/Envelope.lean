/-
Module: Outline.Proofs.Module.Envelope
Layer: Proofs
Purpose: What holds of every declaration of an outline, at any depth and whatever statement it came from: identifier
  and flags fit its name and the file, a re-export depends on the one name it passes on, every other declaration
  depends on imported names arranged by module, and the members of a class are identified under the class. The walk
  keeps this up from statement to statement; marks for export, applied when a scope ends, do not break it.
Main exports: Envelope, Upkeep.envelope, extractFrom_envelope, envelope_of_extract
-/
import Outline.Declaration.Wire
import Outline.Proofs.Dependency.Grouping
import Outline.Proofs.Module.Attribution
import Outline.Proofs.Module.Interruptions
import Outline.Proofs.Module.Upkeep

namespace Outline

open Specifier (Aliases Probe Resolved Resolver SearchOptions)

/-- The head of a re-export from `source`: it is exported under its own name and depends on one name of that
    module. -/
structure PassesOn (source : String) (h : Head) : Prop where
  isExported : h.isExported = true
  isDefault : h.isDefault = false
  dependency : ∃ d name, h.dependencies = [d] ∧ d.names = [name] ∧ d.origin.2 = source

/-- What holds of a declaration of the file at `path`, if `imports` are the names imported there. -/
structure Envelope (path : String) (imports : Entries Resolved) (d : Declaration) : Prop where
  uri : d.head.uri = declarationUri path d.head.name
  exportedIfDefault : d.head.isDefault → d.head.isExported
  /-- It is written as a re-export exactly if it has a source, which is then written too. -/
  flag : d.toJson.field? "isReExport" = some (.bool d.reExportSource?.isSome)
  source : d.toJson.field? "reExportSource" = d.reExportSource?.map .text
  reExport : ∀ source, d.reExportSource? = some source → PassesOn source d.head
  own : d.reExportSource? = none → Arranged imports d.head.dependencies
  memberUris : ∀ m ∈ d.memberUris, m.2 = declarationUri path (d.head.name ++ "." ++ m.1)

/-!
### How re-exports are written
-/

/-- An optional text is written under its own key and no other, and only if it is there. -/
theorem get?_optionalText (key other : String) (value : Option String) :
    Entries.get? (optionalText key value) other = if key = other then value.map .text else none := by
  cases value <;> simp [optionalText, Entries.get?]

/-- A list of texts is not written under another key. -/
theorem get?_optionalTexts_of_ne {key other : String} (values : List String) (differs : key ≠ other) :
    Entries.get? (optionalTexts key values) other = none := by
  unfold optionalTexts
  split <;> simp [Entries.get?, differs]

/-- The written form of a declaration says whether it is a re-export. -/
theorem Declaration.isReExport_toJson (d : Declaration) :
    d.toJson.field? "isReExport" = some (.bool d.reExportSource?.isSome) := by
  cases d <;> simp [toJson, Json.field?, headFields, Entries.get?]

/-- No other key of a declaration is taken for its source. -/
theorem Declaration.reExportSource_toJson (d : Declaration) :
    d.toJson.field? "reExportSource" = d.reExportSource?.map .text := by
  cases d <;> simp [toJson, Json.field?, headFields, Entries.get?, Entries.get?_append, get?_optionalText,
    get?_optionalTexts_of_ne, reExportSource?]

/-!
### Single declarations
-/

variable {path : String} {imports : Entries Resolved} {d : Declaration}

theorem Envelope.mono {l l' : Links} (envelope : Envelope path l.imports d) (grown : l.Extends l') :
    Envelope path l'.imports d :=
  { envelope with own := fun declaredHere => (envelope.own declaredHere).mono grown }

/-- A declaration of the file, with arranged dependencies. -/
theorem Envelope.of_proper (proper : d.Proper path) (arranged : Arranged imports d.head.dependencies) :
    Envelope path imports d where
  uri := proper.uri
  exportedIfDefault := proper.exportedIfDefault
  flag := d.isReExport_toJson
  source := d.reExportSource_toJson
  reExport source found := by
    rw [proper.declaredHere] at found
    cases found
  own _ := arranged
  memberUris := proper.memberUris

/-- A declaration that is no re-export is a proper one of its file. -/
theorem Envelope.proper (envelope : Envelope path imports d) (declaredHere : d.reExportSource? = none) :
    d.Proper path :=
  ⟨envelope.uri, envelope.exportedIfDefault, declaredHere, envelope.memberUris⟩

/-- The dependency of a re-export comes from the source of its module. -/
theorem origin_reExportDependency {x : Resolved} (coherent : x.Coherent) (name : String) :
    (reExportDependency x name).origin.2 = x.source := by
  unfold reExportDependency
  split
  next package => exact (coherent package).symm
  next => rfl

/-- A re-export of a module whose source and kind fit together has its envelope. -/
theorem Envelope.of_reExport {x : Resolved} (coherent : x.Coherent) (name passedOn signature : String)
    (position : Position) :
    Envelope path imports (.reExport {
      name
      isExported := true
      position
      uri := declarationUri path name
      signature
      dependencies := [reExportDependency x passedOn] } x.source) where
  uri := rfl
  exportedIfDefault _ := rfl
  flag := Declaration.isReExport_toJson _
  source := Declaration.reExportSource_toJson _
  reExport source found := by
    cases found
    exact ⟨rfl, rfl, _, passedOn, rfl, names_reExportDependency x passedOn, origin_reExportDependency coherent passedOn⟩
  own declaredHere := by cases declaredHere
  memberUris := by simp [Declaration.memberUris]

/-- A declaration that is marked as the default is marked as exported at once. -/
theorem Envelope.applyExportsTo (envelope : Envelope path imports d) (qualify : String → String)
    (es : List LocalExport) : Envelope path imports (applyExportsTo qualify es d) := by
  unfold Outline.applyExportsTo
  split
  next => exact envelope
  next here =>
    have declaredHere : d.reExportSource? = none := by simpa using here
    apply Envelope.of_proper
    · apply (envelope.proper declaredHere).mapHead rfl rfl
      have flags := envelope.exportedIfDefault
      intro isDefault
      rcases Bool.or_eq_true_iff.1 isDefault with before | marked
      · simp [flags before]
      · obtain ⟨e, among, _⟩ := List.any_eq_true.1 marked
        simp [List.ne_nil_of_mem among]
    · rw [Declaration.head_mapHead]
      exact envelope.own declaredHere

/-- Marking a declaration leaves its members as they are. -/
theorem members_applyExportsTo (qualify : String → String) (es : List LocalExport) (d : Declaration) :
    (applyExportsTo qualify es d).members = d.members := by
  unfold applyExportsTo
  split
  · rfl
  · exact Declaration.members_mapHead _ d

/-!
### The walk
-/

/-- The tables hold coherent resolutions. -/
structure Links.Coherent (l : Links) : Prop where
  imports : ∀ name x, Entries.get? l.imports name = some x → x.Coherent
  resolved : ∀ spec x, Entries.get? l.resolved spec = some x → x.Coherent

/-- Importing a name from a module whose source and kind fit keeps the tables coherent. -/
theorem Links.Coherent.bind {l : Links} {x : Resolved} (coherent : l.Coherent) (name : String) (fits : x.Coherent) :
    Links.Coherent { l with imports := Entries.put l.imports name x } :=
  ⟨Entries.forall_get?_put coherent.imports fits, coherent.resolved⟩

/-- Storing an answer whose source and kind fit keeps the tables coherent. -/
theorem Links.Coherent.store {l : Links} {x : Resolved} (coherent : l.Coherent) (spec : String) (fits : x.Coherent) :
    Links.Coherent { l with resolved := Entries.put l.resolved spec x } :=
  ⟨coherent.imports, Entries.forall_get?_put coherent.resolved fits⟩

/-- Every walk keeps resolutions coherent, and every declaration, with all that is inside it, in shape. Any
    specifier may be asked for. -/
def Upkeep.envelope (r : Resolver) (path : String) : Upkeep r path where
  links := Links.Coherent
  declaration l d := ∀ e ∈ d.flattenOne, Envelope path l.imports e
  lasting grown each e mem := (each e mem).mono grown
  asked _ := True
  resolution := Resolved.Coherent
  resolve {spec} _ :=
    .resolve (fun _ x coherent => coherent.resolved spec x)
      (fun _ coherent _ => coherent.store spec (r.resolve_coherent path spec)) (r.resolve_coherent path spec)
  links_bind name coherent fits := coherent.bind name fits
  imported _ _ := trivial
  own {l d} code coherent proper members := by
    rw [Declaration.flattenOne_eq, Declaration.members_mapHead, List.forall_mem_cons]
    constructor
    · apply Envelope.of_proper (proper.mapHead rfl rfl proper.exportedIfDefault)
      rw [Declaration.head_mapHead]
      exact findDependencies_arranged code coherent.imports
    · intro e mem
      obtain ⟨m, among, inside⟩ := Declaration.mem_flatten.1 mem
      exact members m among e inside
  reExport name passedOn signature position _ fits := by
    rw [Declaration.flattenOne_eq, List.forall_mem_cons]
    exact ⟨.of_reExport fits name passedOn signature position, by simp [Declaration.members, Declaration.flatten]⟩
  marked {l d} qualify es each := by
    rw [Declaration.flattenOne_eq, List.forall_mem_cons] at each ⊢
    rw [members_applyExportsTo]
    exact ⟨each.1.applyExportsTo qualify es, each.2⟩

/-!
### Outlines
-/

/-- From a table of coherent resolutions. -/
theorem extractFrom_envelope {r : Resolver} {src : Source} {root : Node} {table : Entries Resolved}
    {ds : List Declaration} (coherent : ∀ spec x, Entries.get? table spec = some x → x.Coherent)
    (done : (extractFrom r src path root table).result = .ok ds) :
    ∀ d ∈ Declaration.flatten ds,
      Envelope path (outlineTree r src path root { resolved := table }).links.imports d := by
  have start : Links.Coherent { resolved := table } := ⟨nofun, coherent⟩
  have walk := Upkeep.processScope_meets (s := ⟨src, path, r, ""⟩) (.envelope r path) root
    (fun _ _ _ _ => trivial) _ start
  rw [extractFrom_result] at done
  intro d mem
  obtain ⟨e, among, inside⟩ := Declaration.mem_flatten.1 mem
  cases ended : (processScope ⟨src, path, r, ""⟩ root { resolved := table }).result with
  | error span =>
      rw [ended] at done
      cases done
  | ok given =>
      rw [ended] at done
      cases done
      exact walk.value ds ended e among d inside

/-- Every declaration of an outline, at any depth, is in shape, whether specifiers are resolved by text alone or
    through any probe; `imports` are the names imported when the walk over the file ends. -/
theorem envelope_of_extract (src : Source) (path : String) (root : Node) (aliases : Aliases) (options : SearchOptions)
    (probe : Probe) (ds : List Declaration) :
    let r : Resolver := { aliases, options }
    ((extractProbing src path root aliases options probe).1.result = .ok ds →
      ∃ specs table, acceptedSpecifiers src root = .ok specs ∧
        (r.tableProbing (some probe) path specs).result = .ok table ∧ ∀ d ∈ Declaration.flatten ds,
          Envelope path (outlineTree r src path root { resolved := table }).links.imports d) ∧
    ((extract src path root aliases).result = .ok ds →
      ∃ specs, acceptedSpecifiers src root = .ok specs ∧ ∀ d ∈ Declaration.flatten ds,
        Envelope path (outlineTree { aliases } src path root
          { resolved := Resolver.table { aliases } path specs }).links.imports d) := by
  intro r
  constructor
  · intro done
    obtain ⟨specs, table, accepted, ended, outlined⟩ := extractProbing_ok done
    refine ⟨specs, table, accepted, ended, extractFrom_envelope (fun spec x found => ?_) outlined⟩
    exact Resolver.coherent_of_resolveProbing (r.resolveProbing_of_get? _ path specs spec ended found)
  · intro done
    obtain ⟨specs, accepted, outlined⟩ := extract_ok done
    refine ⟨specs, accepted, extractFrom_envelope (fun spec x found => ?_) outlined⟩
    rw [Resolver.get?_table] at found
    split at found <;> cases found
    exact Resolver.resolve_coherent _ path spec

/-- A file that imports a name from a package, passes it on, and uses it in a class inside a namespace. -/
def shelfSource : Source := ⟨"import{A}from'm';export{A};namespace N{class C{p:A}}"⟩

/-- The tree of `shelfSource`. -/
def shelfTree : Node :=
  .construct "program" none 0 52
    [.construct "import_statement" none 0 17
      [.construct "import_clause" none 6 9
        [.construct "named_imports" none 6 9
          [.construct "import_specifier" none 7 8 [.construct "identifier" (some "name") 7 8 []]]],
       .construct "string" (some "source") 13 16 []],
     .construct "export_statement" none 17 27
      [.construct "export_clause" none 23 26
        [.construct "export_specifier" none 24 25 [.construct "identifier" (some "name") 24 25 []]]],
     .construct "expression_statement" none 27 52
      [.construct "internal_module" none 27 52
        [.construct "identifier" (some "name") 37 38 [],
         .construct "statement_block" (some "body") 38 52
          [.construct "class_declaration" none 39 51
            [.construct "type_identifier" (some "name") 45 46 [],
             .construct "class_body" (some "body") 46 51
              [.construct "public_field_definition" none 47 50
                [.construct "property_identifier" (some "name") 47 48 [],
                 .construct "type_annotation" (some "type") 48 50
                  [.construct "type_identifier" none 49 50 []]]]]]]]]

/-- The re-export, the namespace and the class in it are in shape, with `A` imported. -/
theorem envelope_of_extract_shelf :
    ∃ ds, (extractProbing shelfSource "a.ts" shelfTree [] {} fun _ => .absent).1.result = .ok ds ∧
      (Declaration.flatten ds).map (fun d => (d.head.name, d.reExportSource?, d.head.dependencies)) =
        [("A", some "m", [.external "m" "m" ["A"]]), ("N", none, [.external "m" "m" ["A"]]),
          ("N.C", none, [.external "m" "m" ["A"]])] ∧
      ∀ d ∈ Declaration.flatten ds, Envelope "a.ts" [("A", ⟨"m", "m", true⟩)] d := by
  have outlined : (extractProbing shelfSource "a.ts" shelfTree [] {} fun _ => .absent).1.result.toOption.map
      (fun ds => (Declaration.flatten ds).map fun d => (d.head.name, d.reExportSource?, d.head.dependencies)) =
      some [("A", some "m", [.external "m" "m" ["A"]]), ("N", none, [.external "m" "m" ["A"]]),
        ("N.C", none, [.external "m" "m" ["A"]])] := by
    decide +kernel
  cases ended : (extractProbing shelfSource "a.ts" shelfTree [] {} fun _ => .absent).1.result with
  | error e =>
      rw [ended] at outlined
      cases outlined
  | ok ds =>
      rw [ended] at outlined
      obtain ⟨specs, table, accepted, resolved, each⟩ :=
        (envelope_of_extract shelfSource "a.ts" shelfTree [] {} _ ds).1 ended
      have mentioned : (acceptedSpecifiers shelfSource shelfTree).toOption = some ["m"] := by decide +kernel
      rw [accepted] at mentioned
      cases mentioned
      have known : (Resolver.tableProbing { aliases := [], options := {} } (some fun _ => .absent) "a.ts" ["m"]).result =
          .ok [("m", ⟨"m", "m", true⟩)] := by
        decide +kernel
      cases resolved.symm.trans known
      have imports : (outlineTree { aliases := [], options := {} } shelfSource "a.ts" shelfTree
          { resolved := [("m", ⟨"m", "m", true⟩)] }).links.imports = [("A", ⟨"m", "m", true⟩)] := by
        decide +kernel
      rw [imports] at each
      exact ⟨ds, rfl, Option.some.inj outlined, each⟩

end Outline
