/-
Module: Outline.Proofs.Module.Qualification
Layer: Proofs
Purpose: The statements of a scope say the same wherever the scope stands. Walked behind a qualifier, they give out
  the declarations they give out at the top of the file, with the qualifier put in front of every name and of the
  name in every identifier, at any depth of namespaces, and with nothing else changed; imports and resolutions are
  the same.
Main exports: Relabelling.behind, Comparison.behind, processScope_behind
-/
import Outline.Proofs.Declaration.Relabel
import Outline.Proofs.Module.Comparison

namespace Outline

open Specifier (Resolver)

/-- The identifier of a file for a name, with a qualifier put in front of the name. -/
def uriBehind (path qualifier uri : String) : String :=
  declarationUri path (qualifier ++ "." ++ Text.dropFirst (declarationUri path "").toList.length uri)

/-- Put a qualifier in front of the names of declarations, and in front of the names in the identifiers of
    declarations and class members. -/
def Relabelling.behind (path qualifier : String) : Relabelling where
  head h := { h with name := qualifier ++ "." ++ h.name, uri := uriBehind path qualifier h.uri }
  method m := { m with uri := uriBehind path qualifier m.uri }
  property p := { p with uri := uriBehind path qualifier p.uri }

/-- The identifier of a declaration behind a qualifier is that of the qualified name. -/
theorem uriBehind_declarationUri (path qualifier name : String) :
    uriBehind path qualifier (declarationUri path name) = declarationUri path (qualifier ++ "." ++ name) := by
  have split : (declarationUri path name).toList = (declarationUri path "").toList ++ name.toList := by
    simp [declarationUri]
  rw [uriBehind, Text.dropFirst, split, List.drop_left, String.ofList_toList]

/-- A name behind a nonempty qualifier. -/
theorem qualifiedBy_of_ne {qualifier : String} (nonempty : qualifier ≠ "") (name : String) :
    qualifiedBy qualifier name = qualifier ++ "." ++ name :=
  if_neg nonempty

theorem append_dot_append_ne_empty (a b : String) : a ++ "." ++ b ≠ "" := by
  simp

theorem qualifiedBy_ne_empty {name : String} (nonempty : name ≠ "") (qualifier : String) :
    qualifiedBy qualifier name ≠ "" := by
  unfold qualifiedBy
  split
  · exact nonempty
  · exact append_dot_append_ne_empty _ _

/-- Names of which the second is the first behind a qualifier. -/
def Likeness.behind (path qualifier : String) : Likeness :=
  { Likeness.exact path with
    name n n' := n' = qualifier ++ "." ++ n
    name_eq_iff := by
      rintro a _ b _ rfl rfl
      exact (String.append_right_inj _).symm
    name_member := by
      rintro a _ m rfl
      simp only [String.append_assoc] }

/-- Two identifiers are alike behind a qualifier if the second is the first moved behind it. -/
theorem Likeness.behind_uris {path qualifier u u' : String} (uris : (Likeness.behind path qualifier).Uris u u') :
    uriBehind path qualifier u = u' := by
  obtain ⟨n, _, rfl, rfl, rfl⟩ := uris
  exact uriBehind_declarationUri path qualifier n

/-- Being alike behind a qualifier fixes the second declaration by the first. -/
theorem Likeness.behind_unifies (path qualifier : String) :
    (Likeness.behind path qualifier).Unifies (.behind path qualifier) .keep where
  heads := by
    rintro h h' ⟨name, uri, dependencies, rest⟩
    rw [rest, ← Likeness.behind_uris uri, ← dependencies, name]
    rfl
  methods := by
    rintro m m' ⟨uri, dependencies, rest⟩
    rw [rest, ← Likeness.behind_uris uri, ← dependencies]
    rfl
  properties := by
    rintro p p' ⟨uri, dependencies, rest⟩
    rw [rest, ← Likeness.behind_uris uri, ← dependencies]
    rfl
  origins := by
    rintro source _ rfl
    rfl

/-- A declaration that is like another behind a qualifier is the other, relabelled. -/
theorem Declaration.Alike.eq_relabel_behind {path qualifier : String} {d d' : Declaration}
    (alike : Declaration.Alike (.behind path qualifier) d d') : d.relabel (.behind path qualifier) = d' := by
  have same := alike.relabel_eq (Likeness.behind_unifies path qualifier)
  rwa [Declaration.relabel_keep] at same

/-- A qualifier that reads like another one behind `qualifier`. That is all that can be asked: inside a namespace
    the first is no longer empty. -/
def ReadsBehind (qualifier q q' : String) : Prop :=
  ∀ n, qualifiedBy q' n = qualifier ++ "." ++ qualifiedBy q n

/-- Entering a namespace keeps the two walks behind each other. -/
theorem ReadsBehind.enter {qualifier q q' name : String} (behind : ReadsBehind qualifier q q')
    (nonempty : name ≠ "") : ReadsBehind qualifier (qualifiedBy q name) (qualifiedBy q' name) := by
  intro n
  rw [behind name, qualifiedBy_of_ne (append_dot_append_ne_empty _ _),
    qualifiedBy_of_ne (qualifiedBy_ne_empty nonempty q)]
  simp only [String.append_assoc]

/-- A walk at the top of the file and one behind a qualifier. -/
def Comparison.behind (r : Resolver) (path qualifier : String) : Comparison r r :=
  .equalTables (.behind path qualifier) (Likeness.exact_dependencies path) (Likeness.exact_origin path)
    (fun _ => rfl) (ReadsBehind qualifier) (· ≠ "") (fun n behind => behind n) ReadsBehind.enter

/-- Behind a qualifier, the statements of a scope give out the declarations they give out without one, with the
    qualifier in front of their names and of the names in their identifiers. They fail alike, log the same events
    and leave the same imports and resolutions. -/
theorem processScope_behind (source : Source) (path : String) (resolver : Resolver) (qualifier : String)
    (body : Node) (links : Links) (nonempty : qualifier ≠ "") (names : source.NamespaceNames (· ≠ "") body) :
    let plain := processScope ⟨source, path, resolver, ""⟩ body links
    let behind := processScope ⟨source, path, resolver, qualifier⟩ body links
    behind.links = plain.links ∧ behind.events = plain.events ∧
      behind.result = plain.result.map (·.map (Declaration.relabel (.behind path qualifier))) := by
  intro plain behind
  have qualifiers : ReadsBehind qualifier "" qualifier := fun n => qualifiedBy_of_ne nonempty n
  have alike : Surroundings.Alike (.behind resolver path qualifier) ⟨source, path, resolver, ""⟩
      ⟨source, path, resolver, qualifier⟩ :=
    .intro source qualifiers
  have agree := alike.processScope body names links links rfl
  refine ⟨agree.links.symm, agree.events.symm, ?_⟩
  refine (agree.result.map_eq fun ds ds' members => ?_).symm
  rw [← List.map_id ds']
  exact map_eq_map_of_forall₂ members fun _ _ => Declaration.Alike.eq_relabel_behind

/-- A namespace with a class in it, which the namespace exports by a clause. -/
def nestedSource : Source := ⟨"namespace N{class C{m(){}}export{C}}"⟩

/-- The tree of `nestedSource`. -/
def nestedTree : Node :=
  .construct "program" none 0 36
    [.construct "expression_statement" none 0 36
      [.construct "internal_module" none 0 36
        [.construct "identifier" (some "name") 10 11 [],
         .construct "statement_block" (some "body") 11 36
          [.construct "class_declaration" none 12 26
            [.construct "type_identifier" (some "name") 18 19 [],
             .construct "class_body" (some "body") 19 26
              [.construct "method_definition" none 20 25
                [.construct "property_identifier" (some "name") 20 21 [],
                 .construct "formal_parameters" (some "parameters") 21 23 [],
                 .construct "statement_block" (some "body") 23 25 []]]],
           .construct "export_statement" none 26 35
            [.construct "export_clause" none 32 35
              [.construct "export_specifier" none 33 34 [.construct "identifier" (some "name") 33 34 []]]]]]]]

/-- The namespace and the class in it, which the clause still finds, are both moved behind the qualifier. -/
theorem processScope_behind_nested :
    (((processScope ⟨nestedSource, "a.ts", {}, "P"⟩ nestedTree {}).result.toOption.map fun ds =>
        (Declaration.flatten ds).map fun d => (d.head.name, d.head.uri, d.head.isExported)) =
      some [("P.N", "a.ts#P.N", false), ("P.N.C", "a.ts#P.N.C", true)]) ∧
    (processScope ⟨nestedSource, "a.ts", {}, "P"⟩ nestedTree {}).result =
      (processScope ⟨nestedSource, "a.ts", {}, ""⟩ nestedTree {}).result.map
        (·.map (Declaration.relabel (.behind "a.ts" "P"))) :=
  ⟨by decide +kernel,
    (processScope_behind nestedSource "a.ts" {} "P" nestedTree {} (by decide) (by decide +kernel)).2.2⟩

end Outline
