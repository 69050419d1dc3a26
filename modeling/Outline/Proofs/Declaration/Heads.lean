/-
Module: Outline.Proofs.Declaration.Heads
Layer: Proofs
Purpose: What every reader of declarations puts into the head of what it reads: the name that the node declares,
  behind the namespaces around, the identifier made of it, and the flags it was called with. None of them reads a
  re-export.
Main exports: Site.Heads, functionOf_heads, classOf_heads, interfaceOf_heads, typeAliasOf_heads, enumOf_heads,
  variablesOf_heads
-/
import Outline.Declaration.Extract
import Outline.Proofs.Reading.Ensures

namespace Outline

open Signature (orElse)

namespace Declaration

@[simp] theorem head_mapHead (f : Head → Head) (d : Declaration) : (d.mapHead f).head = f d.head := by
  cases d <;> rfl

/-- Changing the head leaves the source of a re-export as it is. -/
@[simp] theorem reExportSource?_mapHead (f : Head → Head) (d : Declaration) :
    (d.mapHead f).reExportSource? = d.reExportSource? := by
  cases d <;> rfl

end Declaration

/-- The declaration is one of this place, under the name `short`, with the given flags. -/
structure Site.Heads (site : Site) (short : String) (isExported isDefault : Bool) (d : Declaration) : Prop where
  name : d.head.name = site.qualify short
  uri : d.head.uri = site.uri (site.qualify short)
  isExported : d.head.isExported = isExported
  isDefault : d.head.isDefault = isDefault
  declaredHere : d.reExportSource? = none

/-- Dependencies are no matter of names and flags. -/
theorem Site.Heads.withDependencies {site : Site} {short : String} {isExported isDefault : Bool} {d : Declaration}
    (heads : site.Heads short isExported isDefault d) (dependencies : List Dependency) :
    site.Heads short isExported isDefault (d.mapHead fun h => { h with dependencies }) := by
  constructor
  · rw [Declaration.head_mapHead]
    exact heads.name
  · rw [Declaration.head_mapHead]
    exact heads.uri
  · rw [Declaration.head_mapHead]
    exact heads.isExported
  · rw [Declaration.head_mapHead]
    exact heads.isDefault
  · rw [Declaration.reExportSource?_mapHead]
    exact heads.declaredHere

variable (site : Site) (isExported isDefault : Bool) (n : Node)

/-- The name that a node declares is what `declaredName` says. -/
theorem Site.declaredName_ensures :
    (site.declaredName n).Ensures fun short => (site.declaredName n).result = .ok short :=
  fun _ ended => ended

/-- A nameless declaration is called `default`; any other has its own name. -/
theorem nameOrDefault_ensures :
    (nameOrDefault site n).Ensures fun name =>
      ∃ short, (site.declaredName n).result = .ok short ∧ name = orElse short "default" := by
  refine .bind (site.declaredName_ensures n) fun short declared => ?_
  exact .pure ⟨short, declared, rfl⟩

/-- A function is headed by its own name or `default`, marked as the statement says. -/
theorem functionOf_heads :
    (functionOf site isExported isDefault n).Ensures fun d =>
      ∃ short, (site.declaredName n).result = .ok short ∧
        site.Heads (orElse short "default") isExported isDefault d := by
  unfold functionOf
  refine .bind (nameOrDefault_ensures site n) fun name named => ?_
  obtain ⟨short, declared, rfl⟩ := named
  refine .after _ fun typeParameters => ?_
  refine .after _ fun ps => ?_
  refine .after _ fun result => ?_
  exact .pure ⟨short, declared, rfl, rfl, rfl, rfl, rfl⟩

theorem classOf_heads :
    (classOf site isExported isDefault n).Ensures fun d =>
      ∃ short, (site.declaredName n).result = .ok short ∧
        site.Heads (orElse short "default") isExported isDefault d := by
  unfold classOf
  refine .bind (nameOrDefault_ensures site n) fun name named => ?_
  obtain ⟨short, declared, rfl⟩ := named
  refine .after _ fun typeParameters => ?_
  refine .after _ fun superclass => ?_
  refine .after _ fun interfaces => ?_
  refine .after _ fun members => ?_
  exact .pure ⟨short, declared, rfl, rfl, rfl, rfl, rfl⟩

/-- An interface is headed by its own name, marked as the statement says. -/
theorem interfaceOf_heads :
    (interfaceOf site isExported isDefault n).Ensures fun d =>
      ∃ short, (site.declaredName n).result = .ok short ∧ site.Heads short isExported isDefault d := by
  unfold interfaceOf
  refine .bind (site.declaredName_ensures n) fun short declared => ?_
  refine .after _ fun typeParameters => ?_
  refine .after _ fun supertypes => ?_
  exact .pure ⟨short, declared, rfl, rfl, rfl, rfl, rfl⟩

theorem typeAliasOf_heads :
    (typeAliasOf site isExported isDefault n).Ensures fun d =>
      ∃ short, (site.declaredName n).result = .ok short ∧ site.Heads short isExported isDefault d := by
  unfold typeAliasOf
  refine .bind (site.declaredName_ensures n) fun short declared => ?_
  refine .after _ fun typeParameters => ?_
  refine .after _ fun type => ?_
  exact .pure ⟨short, declared, rfl, rfl, rfl, rfl, rfl⟩

theorem enumOf_heads :
    (enumOf site isExported isDefault n).Ensures fun d =>
      ∃ short, (site.declaredName n).result = .ok short ∧ site.Heads short isExported isDefault d := by
  unfold enumOf
  refine .bind (site.declaredName_ensures n) fun short declared => ?_
  refine .after _ fun members => ?_
  exact .pure ⟨short, declared, rfl, rfl, rfl, rfl, rfl⟩

/-- Only a declarator whose target is a plain name declares a variable, and never a default one. -/
theorem variableOf_heads (keyword : VariableKeyword) (statement : Node) :
    (variableOf site isExported keyword statement n).Ensures fun found =>
      ∀ d, found = some d → ∃ target short, n.field? "name" = some target ∧ target.kind = "identifier" ∧
        site.source.textOf target = .ok short ∧ site.Heads short isExported false d := by
  unfold variableOf
  split
  next => exact .pure fun d impossible => by cases impossible
  next target named =>
    split
    next => exact .pure fun d impossible => by cases impossible
    next plain =>
      refine .bind (Reading.Ensures.read site.source target) fun short text => ?_
      refine .after _ fun type => ?_
      refine .pure fun d found => ?_
      cases found
      exact ⟨target, short, named, Decidable.not_not.1 plain, text, rfl, rfl, rfl, rfl, rfl⟩

/-- Each variable is headed by the identifier that its declarator binds; none is a default export. -/
theorem variablesOf_heads :
    (variablesOf site isExported n).Ensures fun ds =>
      ∀ d ∈ ds, ∃ c ∈ n.namedOf ["variable_declarator"], ∃ target short,
        c.field? "name" = some target ∧ target.kind = "identifier" ∧ site.source.textOf target = .ok short ∧
          site.Heads short isExported false d := by
  unfold variablesOf
  refine .after _ fun keyword => ?_
  refine .bind (.collect fun c _ => variableOf_heads site isExported c keyword n) fun found each => ?_
  refine .pure fun d mem => ?_
  obtain ⟨some?, among, same⟩ := List.mem_filterMap.1 mem
  obtain ⟨c, declarator, heads⟩ := each some? among
  exact ⟨c, declarator, heads d same⟩

end Outline
