/-
Module: Outline.Proofs.Module.SpecifierOrder
Layer: Proofs
Purpose: The order in which specifiers are collected from a file. Every statement with a specifier is come to once, in
  the file itself or in the body of a namespace. But a scope is gone through to its end before the namespaces in it,
  so that the order is that of the text exactly if in no scope such a statement stands behind a namespace that holds
  one.
Main exports: ownSpecifier?, ScopeOf, specifierStatements, collectedStatements, Timely, collectSpecifiers_order,
  collectSpecifiers_disordered
-/
import Outline.Proofs.Module.Collected
import Outline.Proofs.Module.Unfailing
import Outline.Proofs.Tree.Nested

namespace Outline

variable {src : Source} {root scope n : Node}

/-!
### Statements with a specifier
-/

/-- The specifier that a statement has of its own, if it can be read. -/
def ownSpecifier? (src : Source) (n : Node) : Option String := (statementSpecifier src n).toOption.join

/-- The body of the namespace that a statement declares; a statement with a specifier is not looked into. -/
def searchedBody? (src : Source) (n : Node) : Option Node :=
  if (ownSpecifier? src n).isSome then none else n.namespaceBody?

/-- A statement that names a module itself has no body to search. -/
theorem searchedBody?_of_own (own : (ownSpecifier? src n).isSome) : searchedBody? src n = none := if_pos own

theorem namespaceBody?_of_searchedBody? {body : Node} (searched : searchedBody? src n = some body) :
    n.namespaceBody? = some body := by
  unfold searchedBody? at searched
  split at searched
  · cases searched
  · exact searched

/-- The body that is searched is lighter than the statement; this is what the recursion descends on. -/
theorem weight_lt_of_searchedBody? {body : Node} (searched : searchedBody? src n = some body) :
    body.weight < n.weight :=
  Node.weight_lt_of_namespaceBody? (namespaceBody?_of_searchedBody? searched)

/-- The searched body of a statement of a scope weighs less than the scope. -/
theorem weight_lt_of_searched {body : Node} (statement : n ∈ scope.named)
    (searched : searchedBody? src n = some body) : body.weight < scope.weight :=
  Nat.lt_trans (weight_lt_of_searchedBody? searched) (Node.weight_lt_of_mem_named statement)

/-- The searched body, with the fact that it weighs less. -/
def searchedBodyBelow? (src : Source) (n : Node) : Option n.Below :=
  (searchedBody? src n).attachWith _ fun _ searched => weight_lt_of_searchedBody? searched

@[simp] theorem map_val_searchedBodyBelow? : (searchedBodyBelow? src n).map (·.1) = searchedBody? src n := by
  simp [searchedBodyBelow?]

/-- The body that is searched stands inside the statement. -/
theorem inside_of_searchedBody? {body : Node} (searched : searchedBody? src n = some body) : n.Inside body := by
  obtain ⟨ns, declares, holds⟩ := Option.bind_eq_some_iff.1 (namespaceBody?_of_searchedBody? searched)
  exact .deeper (Node.inside_of_namespaceOf? declares) (Node.mem_children_of_field? holds)

/-- The scopes of a file: the file itself, and over and over the bodies of the namespaces in them. -/
inductive ScopeOf (src : Source) (root : Node) : Node → Prop where
  | file : ScopeOf src root root
  | body {scope statement body : Node} (outer : ScopeOf src root scope) (among : statement ∈ scope.named)
      (searched : searchedBody? src statement = some body) : ScopeOf src root body

/-- The scopes of a namespace in a file are scopes of the file. -/
theorem ScopeOf.of_searched {statement body : Node} (among : statement ∈ root.named)
    (searched : searchedBody? src statement = some body) (inner : ScopeOf src body scope) :
    ScopeOf src root scope := by
  induction inner with
  | file => exact .body .file among searched
  | body _ among searched ih => exact .body ih among searched

/-- A scope of a root is the root itself, or a scope of the body of one of its statements. -/
theorem scopeOf_iff : ScopeOf src root scope ↔
    scope = root ∨ ∃ n ∈ root.named, ∃ body, searchedBody? src n = some body ∧ ScopeOf src body scope := by
  constructor
  · intro within
    induction within with
    | file => exact .inl rfl
    | body _ among searched ih =>
        rcases ih with rfl | ⟨n, statement, body, found, inner⟩
        · exact .inr ⟨_, among, _, searched, .file⟩
        · exact .inr ⟨n, statement, body, found, .body inner among searched⟩
  · rintro (rfl | ⟨n, statement, body, found, inner⟩)
    · exact .file
    · exact inner.of_searched statement found

/-!
### Two orders
-/

/-- What a list of the statements of a body gives for a statement with such a body. -/
def statementsInside (src : Source) (list : Node → List Node) (n : Node) : List Node :=
  match searchedBody? src n with
  | some body => list body
  | none => []

/-- The statements with a specifier in a scope and in the namespaces in it, in the order of the text. -/
def specifierStatements (src : Source) (scope : Node) : List Node :=
  scope.namedBelow.flatMap fun (⟨n, _⟩ : scope.Below) =>
    if (ownSpecifier? src n).isSome then [n]
    else match searchedBodyBelow? src n with
      | some ⟨body, _⟩ => specifierStatements src body
      | none => []
termination_by scope.weight

/-- The statements with a specifier in the order in which they are come to: those of a scope, and then those in the
    namespaces in it. -/
def collectedStatements (src : Source) (scope : Node) : List Node :=
  scope.named.filter (fun n => (ownSpecifier? src n).isSome) ++
    scope.namedBelow.flatMap fun (⟨n, _⟩ : scope.Below) =>
      match searchedBodyBelow? src n with
      | some ⟨body, _⟩ => collectedStatements src body
      | none => []
termination_by scope.weight

/-- The statements in the order of the text: each statement with a specifier where it stands, and in place of a
    statement with a body those of the body. -/
theorem specifierStatements_eq (src : Source) (scope : Node) :
    specifierStatements src scope = scope.named.flatMap fun n =>
      if (ownSpecifier? src n).isSome then [n] else statementsInside src (specifierStatements src) n := by
  rw [specifierStatements, ← Node.map_val_namedBelow, List.flatMap_map]
  congr 1
  funext ⟨n, _⟩
  dsimp only
  rw [statementsInside, ← map_val_searchedBodyBelow?]
  cases searchedBodyBelow? src n <;> rfl

/-- The statements in the order of collecting: those of the scope first, then those of the bodies, one after the
    other. -/
theorem collectedStatements_eq (src : Source) (scope : Node) :
    collectedStatements src scope = scope.named.filter (fun n => (ownSpecifier? src n).isSome) ++
      scope.named.flatMap (statementsInside src (collectedStatements src)) := by
  rw [collectedStatements]
  congr 1
  rw [← Node.map_val_namedBelow, List.flatMap_map]
  congr 1
  funext ⟨n, _⟩
  dsimp only
  rw [statementsInside, ← map_val_searchedBodyBelow?]
  cases searchedBodyBelow? src n <;> rfl

theorem mem_statementsInside {list : Node → List Node} {m : Node} :
    m ∈ statementsInside src list n ↔ ∃ body, searchedBody? src n = some body ∧ m ∈ list body := by
  unfold statementsInside
  cases searchedBody? src n <;> simp

/-- Such a statement is one of a scope of the file. -/
theorem mem_specifierStatements {root : Node} : n ∈ specifierStatements src root ↔
    ∃ scope, ScopeOf src root scope ∧ n ∈ scope.named ∧ (ownSpecifier? src n).isSome := by
  rw [specifierStatements_eq, List.mem_flatMap]
  constructor
  · rintro ⟨m, statement, mem⟩
    split at mem
    next own =>
      cases List.mem_singleton.1 mem
      exact ⟨root, .file, statement, own⟩
    next =>
      obtain ⟨body, searched, mem⟩ := mem_statementsInside.1 mem
      have lighter := weight_lt_of_searched statement searched
      obtain ⟨scope, within, among, own⟩ := mem_specifierStatements.1 mem
      exact ⟨scope, within.of_searched statement searched, among, own⟩
  · rintro ⟨scope, within, among, own⟩
    rcases scopeOf_iff.1 within with rfl | ⟨m, statement, body, searched, inner⟩
    · exact ⟨n, among, by simp [own]⟩
    · have lighter := weight_lt_of_searched statement searched
      refine ⟨m, statement, ?_⟩
      rw [if_neg fun own' => by simp [searchedBody?_of_own own'] at searched]
      exact mem_statementsInside.2 ⟨body, searched, mem_specifierStatements.2 ⟨scope, inner, among, own⟩⟩
termination_by root.weight

/-- Taking some elements first and what comes of the others behind them is a change of order only. -/
theorem perm_filter_append_flatMap {α : Type} (as : List α) (p : α → Bool) (f : α → List α)
    (none : ∀ a, p a = true → f a = []) :
    (as.filter p ++ as.flatMap f).Perm (as.flatMap fun a => if p a then [a] else f a) := by
  induction as with
  | nil => exact .nil
  | cons a as ih =>
      rw [List.flatMap_cons, List.flatMap_cons]
      cases own : p a with
      | true =>
          rw [List.filter_cons_of_pos own, none a own, if_pos rfl]
          exact ih.cons a
      | false =>
          rw [List.filter_cons_of_neg (by simp [own]), if_neg (by simp)]
          calc
            (as.filter p ++ (f a ++ as.flatMap f)).Perm (f a ++ (as.filter p ++ as.flatMap f)) :=
              List.perm_append_comm_assoc ..
            List.Perm _ _ := ih.append_left _

/-- Every statement with a specifier is come to once. -/
theorem collectedStatements_perm (src : Source) (scope : Node) :
    (collectedStatements src scope).Perm (specifierStatements src scope) := by
  rw [collectedStatements_eq, specifierStatements_eq]
  refine (perm_filter_append_flatMap _ _ _ fun n own => ?_).trans (List.Perm.flatMap_left _ fun n statement => ?_)
  · simp [statementsInside, searchedBody?_of_own own]
  · split
    next => exact .refl _
    next =>
      unfold statementsInside
      split
      next body searched =>
        have lighter := weight_lt_of_searched statement searched
        exact collectedStatements_perm src body
      next => exact .refl _
termination_by scope.weight

/-!
### What is collected
-/

theorem mapM_eq_ok_map {α β ε : Type} {as : List α} {f : α → Except ε β} {g : α → β}
    (each : ∀ a ∈ as, f a = .ok (g a)) : as.mapM f = .ok (as.map g) := by
  induction as with
  | nil => rfl
  | cons a as ih =>
      rw [List.forall_mem_cons] at each
      rw [List.mapM_cons, each.1, ih each.2]
      rfl

/-- Of readable text the specifier of a statement can be read. -/
theorem statementSpecifier_eq_own (readable : src.Readable n) :
    statementSpecifier src n = .ok (ownSpecifier? src n) := by
  obtain ⟨spec, found⟩ := statementSpecifier_of_readable readable
  rw [ownSpecifier?, found]
  rfl

/-- From a tree that can be read, the specifiers of these statements are collected. -/
theorem collectSpecifiers_eq_statements (scope : Node) (readable : src.Readable scope) :
    collectSpecifiers src scope = .ok ((collectedStatements src scope).filterMap (ownSpecifier? src)) := by
  have readableAt : ∀ n ∈ scope.named, src.Readable n := fun n statement =>
    readable.child (Node.mem_children_of_mem_named statement)
  have own : scope.named.mapM (statementSpecifier src) = .ok (scope.named.map (ownSpecifier? src)) :=
    mapM_eq_ok_map fun n statement => statementSpecifier_eq_own (readableAt n statement)
  have inner : scope.named.mapM (nestedSpecifiers src) = .ok (scope.named.map fun n =>
      (statementsInside src (collectedStatements src) n).filterMap (ownSpecifier? src)) := by
    refine mapM_eq_ok_map fun n statement => ?_
    have below := readableAt n statement
    rw [nestedSpecifiers, statementSpecifier_eq_own below]
    unfold statementsInside searchedBody?
    cases mentions : ownSpecifier? src n with
    | some spec => rfl
    | none =>
        cases isBody : n.namespaceBody? with
        | none => rfl
        | some body =>
            have lighter := Nat.lt_trans (Node.weight_lt_of_namespaceBody? isBody) (Node.weight_lt_of_mem_named statement)
            exact collectSpecifiers_eq_statements body (readable_of_namespaceBody? below isBody)
  have mentioned : (scope.named.map (ownSpecifier? src)).filterMap id =
      (scope.named.filter fun n => (ownSpecifier? src n).isSome).filterMap (ownSpecifier? src) := by
    rw [List.filterMap_map, List.filterMap_filter]
    congr 1
    funext n
    cases mentions : ownSpecifier? src n <;> simp [mentions]
  rw [collectSpecifiers_eq, own, inner, collectedStatements_eq, List.filterMap_append, ← mentioned,
    List.filterMap_flatMap, List.flatMap_def]
  rfl
termination_by scope.weight

/-!
### The order of the text
-/

/-- No statement of a scope that has a specifier stands behind a namespace that holds one. -/
def Timely (src : Source) (scope : Node) : Prop :=
  scope.named.Pairwise fun earlier later =>
    (ownSpecifier? src later).isSome → statementsInside src (specifierStatements src) earlier = []

/-- The statements found below a root stand inside it. -/
theorem inside_of_mem_specifierStatements (mem : n ∈ specifierStatements src root) : root.Inside n := by
  obtain ⟨scope, within, among, _⟩ := mem_specifierStatements.1 mem
  have inside : root.Inside scope := by
    clear among mem
    induction within with
    | file => exact .here
    | body _ among searched ih =>
        exact (ih.deeper (Node.mem_children_of_mem_named among)).trans (inside_of_searchedBody? searched)
  exact inside.deeper (Node.mem_children_of_mem_named among)

theorem inside_of_mem_statementsInside {m : Node} (mem : m ∈ statementsInside src (specifierStatements src) n) :
    n.Inside m := by
  obtain ⟨body, searched, mem⟩ := mem_statementsInside.1 mem
  exact (inside_of_searchedBody? searched).trans (inside_of_mem_specifierStatements mem)

/-- What is found in a statement is found in the scope. -/
theorem mem_specifierStatements_of_inside {m : Node} (statement : n ∈ scope.named)
    (mem : m ∈ statementsInside src (specifierStatements src) n) : m ∈ specifierStatements src scope := by
  obtain ⟨body, searched, mem⟩ := mem_statementsInside.1 mem
  obtain ⟨inner, within, among, own⟩ := mem_specifierStatements.1 mem
  exact mem_specifierStatements.2 ⟨inner, within.of_searched statement searched, among, own⟩

/-- A statement of the scope that has a specifier is found. -/
theorem mem_specifierStatements_of_own (statement : n ∈ scope.named) (own : (ownSpecifier? src n).isSome) :
    n ∈ specifierStatements src scope :=
  mem_specifierStatements.2 ⟨scope, .file, statement, own⟩

/-- The statements of a scope stand one behind the other. -/
theorem Node.Nested.named_apart (nested : scope.Nested) : scope.named.Pairwise fun n m => n.stop ≤ m.start :=
  nested.here.apart.sublist List.filter_sublist

/-- Two nodes stand in the order of the text. -/
abbrev Before (n m : Node) : Prop := n.start < m.start

/-- What a statement of a well-nested scope gives lies in its span, and is not empty if nothing that is given is. -/
theorem Node.Nested.span_of_statement (nested : scope.Nested)
    (solid : ∀ m ∈ specifierStatements src scope, m.start < m.stop) (statement : n ∈ scope.named) {m : Node}
    (mem : m ∈ if (ownSpecifier? src n).isSome then [n] else statementsInside src (specifierStatements src) n) :
    n.start ≤ m.start ∧ m.start < m.stop ∧ m.stop ≤ n.stop := by
  split at mem
  next own =>
    cases List.mem_singleton.1 mem
    exact ⟨Nat.le_refl _, solid n (mem_specifierStatements_of_own statement own), Nat.le_refl _⟩
  next =>
    have below := nested.child (Node.mem_children_of_mem_named statement)
    obtain ⟨starts, _, stops⟩ := below.span_inside (inside_of_mem_statementsInside mem)
    exact ⟨starts, solid m (mem_specifierStatements_of_inside statement mem), stops⟩

/-- In a well-nested tree they do, if none of them is empty. -/
theorem specifierStatements_ordered {scope : Node} (nested : scope.Nested)
    (solid : ∀ m ∈ specifierStatements src scope, m.start < m.stop) :
    (specifierStatements src scope).Pairwise Before := by
  rw [specifierStatements_eq, List.pairwise_flatMap]
  constructor
  · intro n statement
    split
    next => exact List.pairwise_singleton _ _
    next =>
      have below := nested.child (Node.mem_children_of_mem_named statement)
      cases searched : searchedBody? src n with
      | none => simp [statementsInside, searched]
      | some body =>
          have same : statementsInside src (specifierStatements src) n = specifierStatements src body := by
            simp [statementsInside, searched]
          have lighter := weight_lt_of_searched statement searched
          rw [same]
          refine specifierStatements_ordered (below.of_inside (inside_of_searchedBody? searched)) fun m mem => ?_
          exact solid m (mem_specifierStatements_of_inside statement (same ▸ mem))
  · refine nested.named_apart.imp_of_mem fun statement statement' apart x mem y mem' => ?_
    have left := nested.span_of_statement solid statement mem
    have right := nested.span_of_statement solid statement' mem'
    unfold Before
    omega
termination_by scope.weight

/-- The statements of one scope that have a specifier stand before all that stand inside others, exactly if the scope
    is timely. -/
theorem timely_iff (nested : scope.Nested) (solid : ∀ m ∈ specifierStatements src scope, m.start < m.stop) :
    (∀ n ∈ scope.named, (ownSpecifier? src n).isSome → ∀ m ∈ scope.named,
        ∀ x ∈ statementsInside src (specifierStatements src) m, Before n x) ↔ Timely src scope := by
  have solidInside := fun {m} (statement : m ∈ scope.named) {x}
      (mem : x ∈ statementsInside src (specifierStatements src) m) =>
    solid x (mem_specifierStatements_of_inside statement mem)
  have spanInside := fun {m} (statement : m ∈ scope.named) {x}
      (mem : x ∈ statementsInside src (specifierStatements src) m) =>
    (nested.child (Node.mem_children_of_mem_named statement)).span_inside (inside_of_mem_statementsInside mem)
  constructor
  · intro before
    refine nested.named_apart.imp_of_mem fun {earlier later} statement statement' apart own => ?_
    refine List.eq_nil_iff_forall_not_mem.2 fun x mem => ?_
    have first : later.start < x.start := before later statement' own earlier statement x mem
    have solid := solidInside statement mem
    have span := spanInside statement mem
    omega
  · intro timely n statement own m statement' x mem
    -- one of the two stands before the other, and only one of the two orders is left
    let Fits (n m : Node) : Prop := ((ownSpecifier? src n).isSome →
      ∀ x ∈ statementsInside src (specifierStatements src) m, Before n x)
    have pairs : scope.named.Pairwise fun n m => Fits n m ∧ Fits m n := by
      refine (nested.named_apart.and timely).imp_of_mem fun {earlier later} statement statement' both => ?_
      refine ⟨fun own x mem => ?_, fun own x mem => ?_⟩
      · have whole := solid earlier (mem_specifierStatements_of_own statement own)
        have span := spanInside statement' mem
        have apart := both.1
        unfold Before
        omega
      · rw [both.2 own] at mem
        cases mem
    have : Std.Symm fun n m => Fits n m ∧ Fits m n := ⟨fun _ _ both => both.symm⟩
    have itself : ∀ n ∈ scope.named, Fits n n ∧ Fits n n := fun n _ => by
      have none : Fits n n := fun own x mem => by simp [statementsInside, searchedBody?_of_own own] at mem
      exact ⟨none, none⟩
    exact (pairs.forall_of_forall itself statement statement').1 own x mem

/-- The same statements are found in a namespace in either order. -/
theorem mem_statementsInside_collected {m : Node} : m ∈ statementsInside src (collectedStatements src) n ↔
    m ∈ statementsInside src (specifierStatements src) n := by
  simp only [mem_statementsInside, (collectedStatements_perm src _).mem_iff]

/-- Statements that have a specifier and follow one another in a scope are in the order of the text. -/
theorem own_ordered (nested : scope.Nested) (solid : ∀ m ∈ specifierStatements src scope, m.start < m.stop) :
    (scope.named.filter fun n => (ownSpecifier? src n).isSome).Pairwise Before := by
  refine (nested.named_apart.sublist List.filter_sublist).imp_of_mem fun {earlier later} mem _ apart => ?_
  obtain ⟨statement, own⟩ := List.mem_filter.1 mem
  have short := solid earlier (mem_specifierStatements_of_own statement own)
  unfold Before
  omega

/-- What stands in one statement stands before what stands in a later one. -/
theorem inner_ordered (nested : scope.Nested) (solid : ∀ m ∈ specifierStatements src scope, m.start < m.stop) :
    scope.named.Pairwise fun earlier later => ∀ x ∈ statementsInside src (collectedStatements src) earlier,
      ∀ y ∈ statementsInside src (collectedStatements src) later, Before x y := by
  refine nested.named_apart.imp_of_mem fun {earlier later} statement statement' apart x mem y mem' => ?_
  rw [mem_statementsInside_collected] at mem mem'
  have left := (nested.child (Node.mem_children_of_mem_named statement)).span_inside (inside_of_mem_statementsInside mem)
  have right :=
    (nested.child (Node.mem_children_of_mem_named statement')).span_inside (inside_of_mem_statementsInside mem')
  have short := solid x (mem_specifierStatements_of_inside statement mem)
  unfold Before
  omega

/-- The order of the collection is that of the text exactly if all scopes are timely. -/
theorem collectedStatements_ordered_iff {scope : Node} (nested : scope.Nested)
    (solid : ∀ m ∈ specifierStatements src scope, m.start < m.stop) :
    (collectedStatements src scope).Pairwise Before ↔ ∀ inner, ScopeOf src scope inner → Timely src inner := by
  have below : ∀ n ∈ scope.named, ∀ body, searchedBody? src n = some body →
      ((collectedStatements src body).Pairwise Before ↔ ∀ inner, ScopeOf src body inner → Timely src inner) := by
    intro n statement body searched
    have lighter := weight_lt_of_searched statement searched
    refine collectedStatements_ordered_iff ?_ fun m mem => ?_
    · exact (nested.child (Node.mem_children_of_mem_named statement)).of_inside (inside_of_searchedBody? searched)
    · exact solid m (mem_specifierStatements_of_inside statement (mem_statementsInside.2 ⟨body, searched, mem⟩))
  have across : (∀ a ∈ scope.named.filter fun n => (ownSpecifier? src n).isSome,
      ∀ b ∈ scope.named.flatMap (statementsInside src (collectedStatements src)), Before a b) ↔ Timely src scope := by
    rw [← timely_iff nested solid]
    simp only [List.mem_filter, List.mem_flatMap, mem_statementsInside_collected]
    exact ⟨fun before n statement own m statement' x mem => before n ⟨statement, own⟩ x ⟨m, statement', mem⟩,
      fun before n ⟨statement, own⟩ x ⟨m, statement', mem⟩ => before n statement own m statement' x mem⟩
  rw [collectedStatements_eq, List.pairwise_append, List.pairwise_flatMap, across]
  constructor
  · rintro ⟨-, ⟨each, -⟩, timely⟩ inner within
    rcases scopeOf_iff.1 within with rfl | ⟨n, statement, body, searched, within⟩
    · exact timely
    · have sorted := each n statement
      rw [statementsInside, searched] at sorted
      exact (below n statement body searched).1 sorted inner within
  · intro timely
    refine ⟨own_ordered nested solid, ⟨fun n statement => ?_, inner_ordered nested solid⟩, timely scope .file⟩
    cases searched : searchedBody? src n with
    | none => simp [statementsInside, searched]
    | some body =>
        rw [statementsInside, searched]
        exact (below n statement body searched).2 fun inner within =>
          timely inner (within.of_searched statement searched)
termination_by scope.weight

/-- From a tree that can be read, the specifiers of all statements of the file and its namespaces that have one are
    collected, each once. The list is in the order of the text exactly if in no scope such a statement stands behind a
    namespace that holds one; it is then what going through the text gives. -/
theorem collectSpecifiers_order (readable : src.Readable root) (nested : root.Nested)
    (solid : ∀ n, root.Inside n → (ownSpecifier? src n).isSome → n.start < n.stop) :
    (∀ n, n ∈ specifierStatements src root ↔
        ∃ scope, ScopeOf src root scope ∧ n ∈ scope.named ∧ (ownSpecifier? src n).isSome) ∧
      (specifierStatements src root).Pairwise Before ∧
      (collectedStatements src root).Perm (specifierStatements src root) ∧
      collectSpecifiers src root = .ok ((collectedStatements src root).filterMap (ownSpecifier? src)) ∧
      ((collectedStatements src root).Pairwise Before ↔ ∀ scope, ScopeOf src root scope → Timely src scope) ∧
      ((∀ scope, ScopeOf src root scope → Timely src scope) →
        collectSpecifiers src root = .ok ((specifierStatements src root).filterMap (ownSpecifier? src))) := by
  have solid : ∀ n ∈ specifierStatements src root, n.start < n.stop := fun n mem => by
    obtain ⟨_, _, _, own⟩ := mem_specifierStatements.1 mem
    exact solid n (inside_of_mem_specifierStatements mem) own
  have ordered := specifierStatements_ordered nested solid
  have sorted := collectedStatements_ordered_iff nested solid
  have perm := collectedStatements_perm src root
  have collected := collectSpecifiers_eq_statements root readable
  refine ⟨fun n => mem_specifierStatements, ordered, perm, collected, sorted, fun timely => ?_⟩
  have same : collectedStatements src root = specifierStatements src root :=
    perm.eq_of_pairwise (fun n m _ _ before after => absurd (Nat.lt_trans before after) (Nat.lt_irrefl _))
      (sorted.2 timely) ordered
  rw [collected, same]

/-- In a file whose last statement is the namespace, the order of the collection is that of the text. -/
theorem collectSpecifiers_order_ambient :
    collectSpecifiers ambientSource ambientTree =
        .ok ((specifierStatements ambientSource ambientTree).filterMap (ownSpecifier? ambientSource)) ∧
      (specifierStatements ambientSource ambientTree).map (·.start) = [0, 56] := by
  have solid : ∀ n, ambientTree.Inside n → (ownSpecifier? ambientSource n).isSome → n.start < n.stop := by
    simp only [Node.inside_iff_mem_nodes]
    decide +kernel
  obtain ⟨-, -, -, -, sorted, collected⟩ := collectSpecifiers_order (by decide +kernel) (by decide +kernel) solid
  exact ⟨collected (sorted.1 (by decide +kernel)), by decide +kernel⟩

/-- A `declare` of a module, with an import inside, and an import behind it. -/
def overtakingSource : Source := ⟨"declare module\"m\"\x7bimport\"a\"\x7dimport\"b\""⟩

/-- The tree of `overtakingSource`. -/
def overtakingTree : Node :=
  .construct "program" none 0 37
    [.construct "ambient_declaration" none 0 28
      [{ Node.construct "declare" none 0 7 [] with isNamed := false },
       .construct "module" none 8 28
        [.construct "string" (some "name") 14 17 [],
         .construct "statement_block" (some "body") 17 28
          [.construct "import_statement" none 18 27 [.construct "string" (some "source") 24 27 []]]]],
     .construct "import_statement" none 28 37 [.construct "string" (some "source") 34 37 []]]

/-- The import behind the module is collected before the one in it, although it stands later in the text. -/
theorem collectSpecifiers_disordered :
    overtakingSource.Readable overtakingTree ∧ overtakingTree.Nested ∧
      (collectSpecifiers overtakingSource overtakingTree).toOption = some ["b", "a"] ∧
      (specifierStatements overtakingSource overtakingTree).map (fun n => (n.start, ownSpecifier? overtakingSource n)) =
        [(18, some "a"), (28, some "b")] := by
  decide +kernel

end Outline
