/-
Module: Outline.Proofs.Module.Collected
Layer: Proofs
Purpose: The specifiers collected from a file before it is walked are all that the walk asks for. The collection and
  the walk look through exports, `declare`s, expressions and namespaces by different rules; on trees that the grammar
  can give, every specifier that a statement mentions is found by both. A table made from the collected specifiers
  therefore answers every question, and the walk leaves it as it was.
Main exports: Node.Wraps, Node.Grammatical, Mentions.own_or_inside, mem_collectSpecifiers, Upkeep.collected,
  resolved_outlineTree
-/
import Outline.Module.Extract
import Outline.Proofs.Module.Prescan
import Outline.Proofs.Module.Upkeep
import Outline.Proofs.Specifier.Tables

namespace Outline

open Specifier (Probe Resolved Resolver)

/-!
### Trees that the grammar can give
-/

namespace Node

/-- The tokens before the first child that is a construct of the grammar. -/
def leading (n : Node) : List Node := n.children.takeWhile fun c => !c.isNamed

/-- What the grammar says of a node that wraps a statement. -/
structure Wraps (n : Node) : Prop where
  /-- An export of a declaration has no source, and the declaration is neither an import nor an export. -/
  exported : n.kind = "export_statement" → ∀ inner ∈ n.field? "declaration",
    n.field? "source" = none ∧ inner.kind ∉ ["import_statement", "export_statement"]
  /-- What a `declare` is put before is none of the statements that it cannot be put before. -/
  declared : n.kind = "ambient_declaration" → ∀ inner ∈ n.named.head?,
    inner.kind ∉ ["import_statement", "export_statement", "expression_statement", "ambient_declaration"]
  /-- If that is a namespace, no token before it goes by the kind of one. -/
  declaredFirst : n.kind = "ambient_declaration" → ∀ inner ∈ n.named.head?, inner.kind ∈ namespaceKinds →
    ∀ c ∈ n.leading, c.kind ∉ namespaceKinds

/-- Every node of the tree wraps statements as the grammar says. -/
def Grammatical (root : Node) : Prop := ∀ n, root.Inside n → n.Wraps

instance (n : Node) : Decidable n.Wraps :=
  decidable_of_iff
    ((n.kind = "export_statement" → ∀ inner ∈ n.field? "declaration",
        (n.field? "source").isNone ∧ inner.kind ∉ ["import_statement", "export_statement"]) ∧
      (n.kind = "ambient_declaration" → ∀ inner ∈ n.named.head?,
        inner.kind ∉ ["import_statement", "export_statement", "expression_statement", "ambient_declaration"]) ∧
      (n.kind = "ambient_declaration" → ∀ inner ∈ n.named.head?, inner.kind ∈ namespaceKinds →
        ∀ c ∈ n.leading, c.kind ∉ namespaceKinds)) <| by
    simp only [Option.isNone_iff_eq_none]
    exact ⟨fun ⟨exported, declared, first⟩ => ⟨exported, declared, first⟩,
      fun ⟨exported, declared, first⟩ => ⟨exported, declared, first⟩⟩

instance (root : Node) : Decidable root.Grammatical :=
  decidable_of_iff (∀ n ∈ root.nodes, n.Wraps) <| by
    simp only [Grammatical, inside_iff_mem_nodes]

theorem Grammatical.inside {root n : Node} (grammatical : root.Grammatical) (inside : root.Inside n) :
    n.Grammatical :=
  fun m deeper => grammatical m (inside.trans deeper)

/-- The first named child is found by its kind, if nothing before it is of such a kind. -/
theorem child?_of_head? {n inner : Node} {kinds : List String} (first : n.named.head? = some inner)
    (kind : inner.kind ∈ kinds) (before : ∀ c ∈ n.leading, c.kind ∉ kinds) :
    n.child? kinds = some inner := by
  unfold leading at before
  unfold named at first
  unfold child?
  generalize n.children = cs at first before
  induction cs with
  | nil => simp at first
  | cons c rest ih =>
      cases isNamed : c.isNamed with
      | true =>
          simp only [List.filter_cons, isNamed, if_true, List.head?_cons, Option.some.injEq] at first
          simp [first, kind]
      | false =>
          simp only [List.filter_cons, isNamed, Bool.false_eq_true, if_false] at first
          simp only [List.takeWhile_cons, isNamed, Bool.not_false, if_true, List.forall_mem_cons] at before
          simpa [before.1] using ih first before.2

end Node

/-!
### What statements mention
-/

variable {src : Source} {n : Node} {spec : String}

/-- A namespace mentions what the statements in its body mention. -/
theorem Mentions.of_nameSpace (mentions : Mentions src n spec) (form : StatementForm.ofKind? n.kind = some .nameSpace) :
    ∃ body statement, n.field? "body" = some body ∧ statement ∈ body.named ∧ Mentions src statement spec := by
  cases mentions with
  | nameSpace _ holds among mentions => exact ⟨_, _, holds, among, mentions⟩
  | importing other | source other | exported other | ambient other | expression other =>
      rw [form] at other
      cases other

/-- The specifier of an export statement is the text of its source. -/
theorem statementSpecifier_of_exporting (form : StatementForm.ofKind? n.kind = some .exporting) :
    statementSpecifier src n = specifierText? src (n.field? "source") := by
  have kind : n.kind = "export_statement" := List.mem_singleton.1 (StatementForm.ofKind?_eq_some_iff.1 form)
  simp [statementSpecifier, kind]

/-- Only imports and exports have a specifier of their own. -/
theorem statementSpecifier_of_other (importing : StatementForm.ofKind? n.kind ≠ some .importing)
    (exporting : StatementForm.ofKind? n.kind ≠ some .exporting) : statementSpecifier src n = .ok none := by
  unfold statementSpecifier
  split
  next kind => exact absurd (StatementForm.ofKind?_eq_some_iff.2 (List.mem_singleton.2 kind)) importing
  next =>
    split
    next kind => exact absurd (StatementForm.ofKind?_eq_some_iff.2 (List.mem_singleton.2 kind)) exporting
    next => rfl

/-- Something below is mentioned in the body of the namespace that the statement declares. -/
def MentionedInside (src : Source) (n : Node) (spec : String) : Prop :=
  ∃ body statement, n.namespaceBody? = some body ∧ statement ∈ body.named ∧ Mentions src statement spec

/-- What a namespace mentions is mentioned inside the statement that wraps it. -/
theorem Mentions.inside_of_namespaceOf? {ns : Node} (mentions : Mentions src ns spec)
    (kind : ns.kind ∈ Node.namespaceKinds) (found : n.namespaceOf? = some ns) : MentionedInside src n spec := by
  obtain ⟨body, statement, holds, among, mentions⟩ :=
    mentions.of_nameSpace (StatementForm.ofKind?_eq_some_iff.2 kind)
  exact ⟨body, statement, by simp [Node.namespaceBody?, found, holds], among, mentions⟩

/-- What is neither an import nor an export mentions something only through the namespace it declares. A `declare`
    finds its namespace as the first named child, the collection as the first child of that kind. -/
theorem Mentions.inside (wraps : n.Wraps) (mentions : Mentions src n spec)
    (importing : StatementForm.ofKind? n.kind ≠ some .importing)
    (exporting : StatementForm.ofKind? n.kind ≠ some .exporting) : MentionedInside src n spec := by
  have namespaceOf := n.namespaceOf?_eq
  cases mentions with
  | importing form => exact absurd form importing
  | source form => exact absurd form exporting
  | exported form => exact absurd form exporting
  | nameSpace form holds among mentions =>
      rw [form] at namespaceOf
      exact Mentions.inside_of_namespaceOf? (.nameSpace form holds among mentions)
        (StatementForm.ofKind?_eq_some_iff.1 form) namespaceOf
  | @expression _ ns _ form found mentions =>
      rw [form] at namespaceOf
      exact mentions.inside_of_namespaceOf? (Node.kind_mem_of_child? found) (namespaceOf.trans found)
  | @ambient _ inner _ form first mentions =>
      rw [form] at namespaceOf
      have kind : n.kind = "ambient_declaration" := List.mem_singleton.1 (StatementForm.ofKind?_eq_some_iff.1 form)
      have excluded := wraps.declared kind inner first
      have nameSpace : inner.kind ∈ Node.namespaceKinds := by
        cases mentions with
        | nameSpace form => exact StatementForm.ofKind?_eq_some_iff.1 form
        | importing form | source form | exported form | ambient form | expression form =>
            have kind := List.mem_singleton.1 (StatementForm.ofKind?_eq_some_iff.1 form)
            simp [kind] at excluded
      have found := Node.child?_of_head? first nameSpace (wraps.declaredFirst kind inner first nameSpace)
      exact mentions.inside_of_namespaceOf? nameSpace (namespaceOf.trans found)

/-- An export mentions the specifier that it has, or what is inside the namespace that it wraps. -/
theorem Mentions.of_exporting (grammatical : n.Grammatical) (mentions : Mentions src n spec)
    (exporting : StatementForm.ofKind? n.kind = some .exporting) :
    statementSpecifier src n = .ok (some spec) ∨
      statementSpecifier src n = .ok none ∧ MentionedInside src n spec := by
  rw [statementSpecifier_of_exporting exporting]
  cases mentions with
  | source _ _ holds read =>
      left
      simp [holds, specifierText?, specifierText, read, Except.map]
  | @exported _ inner _ _ holds mentions =>
      right
      have kind : n.kind = "export_statement" := List.mem_singleton.1 (StatementForm.ofKind?_eq_some_iff.1 exporting)
      obtain ⟨noSource, excluded⟩ := (grammatical n .here).exported kind inner holds
      have wraps := grammatical inner (.deeper .here (Node.mem_children_of_field? holds))
      have inside : MentionedInside src inner spec := by
        apply mentions.inside wraps
        · intro form
          simp [List.mem_singleton.1 (StatementForm.ofKind?_eq_some_iff.1 form)] at excluded
        · intro form
          simp [List.mem_singleton.1 (StatementForm.ofKind?_eq_some_iff.1 form)] at excluded
      have same : n.namespaceOf? = inner.namespaceOf? := by
        rw [Node.namespaceOf?_eq n, exporting, holds]
        rfl
      constructor
      · rw [noSource]
        rfl
      · simpa only [MentionedInside, Node.namespaceBody?, same] using inside
  | importing form | ambient form | expression form | nameSpace form =>
      rw [exporting] at form
      cases form

/-- A statement mentions a specifier as its own, or else inside the namespace that it declares. -/
theorem Mentions.own_or_inside (grammatical : n.Grammatical) (mentions : Mentions src n spec) :
    statementSpecifier src n = .ok (some spec) ∨
      statementSpecifier src n = .ok none ∧ MentionedInside src n spec := by
  by_cases exporting : StatementForm.ofKind? n.kind = some .exporting
  · exact mentions.of_exporting grammatical exporting
  · by_cases importing : StatementForm.ofKind? n.kind = some .importing
    · cases mentions with
      | importing _ found => exact .inl found
      | source form | exported form | ambient form | expression form | nameSpace form =>
          rw [importing] at form
          cases form
    · right
      exact ⟨statementSpecifier_of_other importing exporting, mentions.inside (grammatical n .here) importing exporting⟩

/-!
### What is collected
-/

/-- What a statement of the scope has is collected, and what is in the namespace it declares is collected too. -/
theorem collectSpecifiers_ok {scope : Node} {specs : List String} (collected : collectSpecifiers src scope = .ok specs)
    (statement : n ∈ scope.named) :
    (∀ spec, statementSpecifier src n = .ok (some spec) → spec ∈ specs) ∧
      (statementSpecifier src n = .ok none → ∀ body, n.namespaceBody? = some body →
        ∃ inner, collectSpecifiers src body = .ok inner ∧ inner ⊆ specs) := by
  rw [collectSpecifiers] at collected
  obtain ⟨found, scanned, collected⟩ := exists_of_bind_eq_ok collected
  obtain ⟨nested, searched, collected⟩ := exists_of_bind_eq_ok collected
  cases collected
  have below : (⟨n, Node.weight_lt_of_mem_named statement⟩ : scope.Below) ∈ scope.namedBelow := by
    simpa [Node.namedBelow] using statement
  obtain ⟨p, among, read⟩ := exists_mem_of_mapM_eq_ok scanned below
  constructor
  · intro spec own
    simp only [own] at read
    cases read
    exact List.mem_append_left _ (List.mem_filterMap.2 ⟨_, among, rfl⟩)
  · intro none body holds
    simp only [none] at read
    cases read
    obtain ⟨inner, kept, search⟩ := exists_mem_of_mapM_eq_ok searched among
    have bodyBelow : n.namespaceBodyBelow? = some ⟨body, Node.weight_lt_of_namespaceBody? holds⟩ := by
      simp [Node.namespaceBodyBelow?, holds]
    simp only [bodyBelow] at search
    refine ⟨inner, search, fun spec mem => ?_⟩
    exact List.mem_append_right _ (List.mem_flatten.2 ⟨inner, kept, mem⟩)

/-- Every specifier that a statement of the scope mentions is collected. The recursion is that of the collection:
    down to the bodies of the namespaces in the scope. -/
theorem mem_collectSpecifiers {scope n : Node} {specs : List String} (grammatical : scope.Grammatical)
    (collected : collectSpecifiers src scope = .ok specs) (statement : n ∈ scope.named)
    (mentions : Mentions src n spec) : spec ∈ specs := by
  have inside : scope.Inside n := .deeper .here (Node.mem_children_of_mem_named statement)
  obtain ⟨own, nested⟩ := collectSpecifiers_ok collected statement
  rcases mentions.own_or_inside (grammatical.inside inside) with found | ⟨none, body, inner, holds, among, mentions⟩
  · exact own spec found
  · obtain ⟨specs', collected', subset⟩ := nested none body holds
    have lighter : body.weight < scope.weight :=
      Nat.lt_trans (Node.weight_lt_of_namespaceBody? holds) (Node.weight_lt_of_mem_named statement)
    obtain ⟨ns, found, field⟩ := Option.bind_eq_some_iff.1 holds
    have deep : n.Inside body := .deeper (Node.inside_of_namespaceOf? found) (Node.mem_children_of_field? field)
    exact subset (mem_collectSpecifiers (grammatical.inside (inside.trans deep)) collected' among mentions)
termination_by scope.weight

/-!
### What is asked for
-/

/-- Tables in the course of a walk that started with `table`: names are bound to collected specifiers, and `table` has
    grown at most by resolutions of collected specifiers that it lacked. -/
structure Links.Collected (r : Resolver) (path : String) (table : Entries Resolved) (specs : List String)
    (l : Links) : Prop where
  imports : ∀ name x, Entries.get? l.imports name = some x → x.specifier ∈ specs
  resolved : ∃ asked : List String, (∀ spec ∈ asked, spec ∈ specs ∧ Entries.get? table spec = none) ∧
    l.resolved = table ++ asked.map fun spec => (spec, r.resolve path spec)

variable {r : Resolver} {path : String} {table : Entries Resolved} {specs : List String} {l : Links}

/-- Importing a name from a module that was asked for keeps the tables collected. -/
theorem Links.Collected.bind {x : Resolved} (collected : l.Collected r path table specs) (name : String)
    (known : x.specifier ∈ specs) :
    Links.Collected r path table specs { l with imports := Entries.put l.imports name x } :=
  ⟨Entries.forall_get?_put collected.imports known, collected.resolved⟩

/-- What a collected specifier is resolved to keeps that specifier. -/
theorem Links.Collected.specifier_mem (collected : l.Collected r path table specs)
    (kept : ∀ spec x, Entries.get? table spec = some x → x.specifier = spec) (known : spec ∈ specs) {x : Resolved}
    (found : Entries.get? l.resolved spec = some x) : x.specifier ∈ specs := by
  obtain ⟨asked, _, same⟩ := collected.resolved
  rw [same, Entries.get?_append, Entries.get?_map_key] at found
  rcases Option.or_eq_some_iff.1 found with before | ⟨_, later⟩
  · rw [kept spec x before]
    exact known
  · split at later <;> cases later
    exact known

/-- Storing an answer for a specifier that was asked for, and was not answered yet, keeps the tables collected. -/
theorem Links.Collected.store (collected : l.Collected r path table specs) (known : spec ∈ specs)
    (absent : Entries.get? l.resolved spec = none) :
    Links.Collected r path table specs
      { l with resolved := Entries.put l.resolved spec (r.resolve path spec) } := by
  obtain ⟨asked, each, same⟩ := collected.resolved
  refine ⟨collected.imports, asked ++ [spec], ?_, ?_⟩
  · rw [List.forall_mem_append]
    rw [same, Entries.get?_append, Option.or_eq_none_iff] at absent
    exact ⟨each, by simpa using ⟨known, absent.1⟩⟩
  · rw [Entries.put_of_get?_eq_none _ absent]
    simp [same]

/-- Only collected specifiers are asked for, and nothing is asked of declarations. -/
def Upkeep.collected (r : Resolver) (path : String) (specs : List String)
    (kept : ∀ spec x, Entries.get? table spec = some x → x.specifier = spec) : Upkeep r path where
  links := Links.Collected r path table specs
  declaration _ _ := True
  lasting _ _ := trivial
  asked spec := spec ∈ specs
  resolution x := x.specifier ∈ specs
  resolve known :=
    .resolve (fun _ _ collected found => collected.specifier_mem kept known found)
      (fun _ collected absent => collected.store known absent) known
  links_bind name collected known := collected.bind name known
  imported {_ name b} collected bound := collected.imports name b bound
  own _ _ _ _ := trivial
  reExport _ _ _ _ _ _ := trivial
  marked _ _ _ := trivial

/-- On a tree that the grammar can give, the walk asks only for specifiers that were collected: what it adds to a
    table, and so whatever it looks up in an empty one, is among them. With the table made from the collected
    specifiers, through any probe, nothing is looked up in vain, and the table stays as it was. -/
theorem resolved_outlineTree (src : Source) (root : Node) (specs : List String) (grammatical : root.Grammatical)
    (collected : collectSpecifiers src root = .ok specs) :
    (∀ (r : Resolver) (path : String) (table : Entries Resolved),
      (∀ spec x, Entries.get? table spec = some x → x.specifier = spec) →
      ∃ asked : List String, (∀ spec ∈ asked, spec ∈ specs ∧ Entries.get? table spec = none) ∧
        (outlineTree r src path root { resolved := table }).links.resolved =
          table ++ asked.map fun spec => (spec, r.resolve path spec)) ∧
    ∀ (r fallback : Resolver) (probe : Option Probe) (path : String) (table : Entries Resolved),
      (r.tableProbing probe path specs).result = .ok table →
        (outlineTree fallback src path root { resolved := table }).links.resolved = table := by
  have asks : ∀ (r : Resolver) (path : String) (table : Entries Resolved),
      (∀ spec x, Entries.get? table spec = some x → x.specifier = spec) →
      ((outlineTree r src path root { resolved := table }).links).Collected r path table specs := by
    intro r path table kept
    have start : Links.Collected r path table specs { resolved := table } :=
      ⟨nofun, [], by simp, by simp⟩
    have walk := Upkeep.processScope_meets (s := ⟨src, path, r, ""⟩) (.collected r path specs kept) root
      (fun n statement spec mentions => mem_collectSpecifiers grammatical collected statement mentions) _ start
    exact walk.links
  constructor
  · exact fun r path table kept => (asks r path table kept).resolved
  · intro r fallback probe path table ended
    have kept : ∀ spec x, Entries.get? table spec = some x → x.specifier = spec := fun spec x found =>
      Resolver.specifier_of_resolveProbing (r.resolveProbing_of_get? probe path specs spec ended found)
    obtain ⟨asked, each, same⟩ := (asks fallback path table kept).resolved
    have none : asked = [] := by
      refine List.eq_nil_iff_forall_not_mem.2 fun spec mem => ?_
      obtain ⟨known, absent⟩ := each spec mem
      obtain ⟨x, _, found⟩ := r.get?_tableProbing_of_mem probe path specs spec ended known
      cases found.symm.trans absent
    rw [same, none]
    simp

/-- A file that passes on an imported name, and everything of a package inside an exported `declare` of a
    namespace. -/
def ambientSource : Source := ⟨"import{A}from'./m';export{A};export declare namespace N\x7bexport*from'n'\x7d"⟩

/-- The tree of `ambientSource`. -/
def ambientTree : Node :=
  .construct "program" none 0 71
    [.construct "import_statement" none 0 19
      [.construct "import_clause" none 6 9
        [.construct "named_imports" none 6 9
          [.construct "import_specifier" none 7 8 [.construct "identifier" (some "name") 7 8 []]]],
       .construct "string" (some "source") 13 18 []],
     .construct "export_statement" none 19 29
      [.construct "export_clause" none 25 28
        [.construct "export_specifier" none 26 27 [.construct "identifier" (some "name") 26 27 []]]],
     .construct "export_statement" none 29 71
      [.construct "ambient_declaration" (some "declaration") 36 71
        [{ Node.construct "declare" none 36 43 [] with isNamed := false },
         .construct "internal_module" none 44 71
          [.construct "identifier" (some "name") 54 55 [],
           .construct "statement_block" (some "body") 55 71
            [.construct "export_statement" none 56 70 [.construct "string" (some "source") 67 70 []]]]]]]

/-- From no table, the walk asks for both of the specifiers that are collected; in a table made from them, here with
    a probe that confirms one path, it finds both. -/
theorem resolved_outlineTree_ambient :
    ambientTree.Grammatical ∧ collectSpecifiers ambientSource ambientTree = .ok ["./m", "n"] ∧
      (outlineTree {} ambientSource "a.ts" ambientTree {}).links.resolved.map (·.1) = ["./m", "n"] ∧
      (outlineTree {} ambientSource "a.ts" ambientTree
        { resolved := [("./m", ⟨"./m", "m.ts", false⟩), ("n", ⟨"n", "n", true⟩)] }).links.resolved =
          [("./m", ⟨"./m", "m.ts", false⟩), ("n", ⟨"n", "n", true⟩)] := by
  have grammatical : ambientTree.Grammatical := by decide +kernel
  have collected : collectSpecifiers ambientSource ambientTree = .ok ["./m", "n"] := by
    have found : (collectSpecifiers ambientSource ambientTree).toOption = some ["./m", "n"] := by decide +kernel
    cases ended : collectSpecifiers ambientSource ambientTree <;> rw [ended] at found <;> cases found
    rfl
  let probe : Probe := fun path => if path = "m.ts" then .found else .absent
  have ended : (Resolver.tableProbing {} (some probe) "a.ts" ["./m", "n"]).result =
      .ok [("./m", ⟨"./m", "m.ts", false⟩), ("n", ⟨"n", "n", true⟩)] := by
    decide +kernel
  have unchanged := (resolved_outlineTree ambientSource ambientTree _ grammatical collected).2 {} {} (some probe) "a.ts" _
    ended
  exact ⟨grammatical, collected, by decide +kernel, unchanged⟩

end Outline
