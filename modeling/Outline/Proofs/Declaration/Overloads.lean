/-
Module: Outline.Proofs.Declaration.Overloads
Layer: Proofs
Purpose: Which nodes of a class body the members of the class come from. Each property and each method node gives a
  member, in the order of the text, but a signature gives way to an implementation of its name wherever that stands.
  The constructor comes from the last implementation, and without one from the first signature.
Main exports: Site.memberName?, isOverload, methodNodes, constructorNode?, MembersFrom, addMember_membersFrom,
  addMembers_membersFrom, methodNodes_complete, constructorNode?_complete, classMembers_membersFrom
-/
import Outline.Proofs.Declaration.Unfailing
import Outline.Proofs.Entries.Related
import Outline.Proofs.Reading.Ensures

namespace Outline

/-!
### The nodes of members
-/

section Nodes

variable (site : Site)

/-- The name of a member, if it can be read. -/
def Site.memberName? (n : Node) : Option String := (site.declaredName n).result.toOption

/-- Is the member named as constructors are? -/
def isConstructor (n : Node) : Bool := site.memberName? n == some "constructor"

/-- Is the node a signature, and does the class body hold an implementation of the same name? -/
def isOverload (body n : Node) : Bool :=
  n.kind == "method_signature" &&
    (body.namedOf ["method_definition"]).any fun m => site.memberName? m == site.memberName? n

/-- The properties among some nodes. -/
def propertyNodes (ns : List Node) : List Node := ns.filter fun n => propertyKinds.contains n.kind

/-- The constructors among some nodes, signatures included. -/
def constructorNodes (ns : List Node) : List Node :=
  ns.filter fun n => methodKinds.contains n.kind && isConstructor site n

/-- The methods of a class body among some nodes, without overloads. -/
def methodNodes (body : Node) (ns : List Node) : List Node :=
  ns.filter fun n => methodKinds.contains n.kind && !isConstructor site n && !isOverload site body n

/-- The constructor of a class among some nodes: the last implementation, else the first signature. -/
def constructorNode? (ns : List Node) : Option Node :=
  ((constructorNodes site ns).filter fun n => n.kind == "method_definition").getLast?.or
    (constructorNodes site ns).head?

end Nodes

/-- The members of a class are read from the properties, the methods and the constructor among some nodes of its
    body. -/
structure MembersFrom (site : Site) (owner : String) (body : Node) (ns : List Node) (ms : ClassMembers) : Prop where
  properties : List.Forall₂ (fun n p => (propertyOf site owner n).result = .ok p) (propertyNodes ns) ms.properties
  methods : List.Forall₂ (fun n m => (methodOf site owner n).result = .ok m) (methodNodes site body ns) ms.methods
  constructor : Option.Rel (fun n m => (constructorOf site owner n).result = .ok m) (constructorNode? site ns)
    ms.constructor

/-!
### One node more
-/

section Step

variable {site : Site} {owner : String} {body n : Node} {ns : List Node} {ms : ClassMembers}

theorem filter_concat {α : Type} (p : α → Bool) (as : List α) (a : α) :
    (as ++ [a]).filter p = if p a then as.filter p ++ [a] else as.filter p := by
  rw [List.filter_append, List.filter_singleton]
  cases p a with
  | true => rfl
  | false => exact List.append_nil _

/-- The constructors of a body with one more statement at the end. -/
theorem constructorNodes_concat : constructorNodes site (ns ++ [n]) =
    if methodKinds.contains n.kind && isConstructor site n then constructorNodes site ns ++ [n]
    else constructorNodes site ns :=
  filter_concat ..

/-- The methods of a body with one more statement at the end. -/
theorem methodNodes_concat : methodNodes site body (ns ++ [n]) =
    if methodKinds.contains n.kind && !isConstructor site n && !isOverload site body n then
      methodNodes site body ns ++ [n]
    else methodNodes site body ns :=
  filter_concat ..

/-- An implementation takes the place of what was there. -/
theorem constructorNode?_implementation (named : isConstructor site n = true) (kind : n.kind = "method_definition") :
    constructorNode? site (ns ++ [n]) = some n := by
  have method : methodKinds.contains n.kind = true := by rw [kind]; decide
  rw [constructorNode?, constructorNodes_concat, method, named, Bool.and_self, if_pos rfl, filter_concat, kind]
  simp

/-- A signature counts only if nothing was there. -/
theorem constructorNode?_signature (method : methodKinds.contains n.kind = true) (named : isConstructor site n = true)
    (kind : n.kind ≠ "method_definition") :
    constructorNode? site (ns ++ [n]) = (constructorNode? site ns).or (some n) := by
  have other : (n.kind == "method_definition") = false := by simpa using kind
  rw [constructorNode?, constructorNode?, constructorNodes_concat, method, named, Bool.and_self, if_pos rfl,
    filter_concat, other, if_neg Bool.false_ne_true, List.head?_append, Option.or_assoc]
  rfl

/-- No kind of node is that of a method and of a property. -/
theorem not_property_of_method {kind : String} (method : methodKinds.contains kind = true) :
    propertyKinds.contains kind = false := by
  have known : kind ∈ methodKinds := List.contains_iff_mem.1 method
  simp only [methodKinds, List.mem_cons, List.not_mem_nil, or_false] at known
  rcases known with rfl | rfl | rfl <;> decide

/-- A constructor is no property and no method. -/
theorem MembersFrom.constructor_concat {constructor : Option Method} (before : MembersFrom site owner body ns ms)
    (method : methodKinds.contains n.kind = true) (named : isConstructor site n = true)
    (read : Option.Rel (fun n m => (constructorOf site owner n).result = .ok m) (constructorNode? site (ns ++ [n]))
      constructor) : MembersFrom site owner body (ns ++ [n]) { ms with constructor } := by
  refine ⟨?_, ?_, read⟩
  · rw [propertyNodes, filter_concat, not_property_of_method method, if_neg Bool.false_ne_true]
    exact before.properties
  · rw [methodNodes_concat, named, Bool.not_true, Bool.and_false, Bool.false_and, if_neg Bool.false_ne_true]
    exact before.methods

/-- A method that is no constructor is a method of the class, or gives way. -/
theorem MembersFrom.method_concat {methods : List Method} (before : MembersFrom site owner body ns ms)
    (method : methodKinds.contains n.kind = true) (named : isConstructor site n = false)
    (read : List.Forall₂ (fun n m => (methodOf site owner n).result = .ok m) (methodNodes site body (ns ++ [n]))
      methods) : MembersFrom site owner body (ns ++ [n]) { ms with methods } := by
  refine ⟨?_, read, ?_⟩
  · rw [propertyNodes, filter_concat, not_property_of_method method, if_neg Bool.false_ne_true]
    exact before.properties
  · have same : constructorNode? site (ns ++ [n]) = constructorNode? site ns := by
      rw [constructorNode?, constructorNodes_concat, named, Bool.and_false, if_neg Bool.false_ne_true]
      rfl
    rw [same]
    exact before.constructor

/-- What is no method is a property of the class, or nothing. -/
theorem MembersFrom.property_concat {properties : List Property} (before : MembersFrom site owner body ns ms)
    (other : methodKinds.contains n.kind = false)
    (read : List.Forall₂ (fun n p => (propertyOf site owner n).result = .ok p) (propertyNodes (ns ++ [n]))
      properties) : MembersFrom site owner body (ns ++ [n]) { ms with properties } := by
  refine ⟨read, ?_, ?_⟩
  · rw [methodNodes_concat, other, Bool.false_and, Bool.false_and, if_neg Bool.false_ne_true]
    exact before.methods
  · have same : constructorNode? site (ns ++ [n]) = constructorNode? site ns := by
      rw [constructorNode?, constructorNodes_concat, other, Bool.false_and, if_neg Bool.false_ne_true]
      rfl
    rw [same]
    exact before.constructor

/-- The name of a member that was read. -/
theorem memberName?_ensures (n : Node) :
    (site.declaredName n).Ensures fun name => site.memberName? n = some name := by
  intro name ended
  rw [Site.memberName?, ended]
  rfl

/-- What a node adds to the members of a class is what is read from it, if it counts. -/
theorem addMember_membersFrom {implemented : List String}
    (known : ∀ name, site.memberName? n = some name →
      isOverload site body n = (n.kind == "method_signature" && implemented.contains name))
    (before : MembersFrom site owner body ns ms) :
    (addMember site owner implemented ms n).Ensures (MembersFrom site owner body (ns ++ [n])) := by
  unfold addMember
  split
  next method =>
    refine .bind (memberName?_ensures n) fun name called => ?_
    split
    next isBuilder =>
      have named : isConstructor site n = true := by simp [isConstructor, called, isBuilder]
      split
      next counts =>
        refine .bind (fun _ ended => ended) fun m (ended : (constructorOf site owner n).result = .ok m) => ?_
        refine .pure (before.constructor_concat method named ?_)
        have chosen : constructorNode? site (ns ++ [n]) = some n := by
          by_cases kind : n.kind = "method_definition"
          · exact constructorNode?_implementation named kind
          · have first : ms.constructor = none := by simpa [kind] using counts
            rcases missing_or_found_of_rel before.constructor with ⟨missing, _⟩ | ⟨_, _, _, there, _⟩
            · rw [constructorNode?_signature method named kind, missing]
              rfl
            · cases first.symm.trans there
        rw [chosen]
        exact .some ended
      next unneeded =>
        obtain ⟨there, kind⟩ : ms.constructor ≠ none ∧ n.kind ≠ "method_definition" := by
          simpa using unneeded
        refine .pure (before.constructor_concat method named ?_)
        rw [constructorNode?_signature method named kind]
        rcases missing_or_found_of_rel before.constructor with ⟨_, missing⟩ | ⟨c, m, found, read, ended⟩
        · exact absurd missing there
        · rw [found, read]
          exact .some ended
    next other =>
      have named : isConstructor site n = false := by simp [isConstructor, called, other]
      split
      next gives =>
        refine .pure (before.method_concat method named ?_)
        have overload := (known name called).trans gives
        rw [methodNodes_concat, overload, Bool.not_true, Bool.and_false, if_neg Bool.false_ne_true]
        exact before.methods
      next counts =>
        have single := (known name called).trans (Bool.eq_false_iff.2 counts)
        refine .bind (fun _ ended => ended) fun m (ended : (methodOf site owner n).result = .ok m) => ?_
        refine .pure (before.method_concat method named ?_)
        rw [methodNodes_concat, method, named, single]
        exact List.rel_append before.methods (.cons ended .nil)
  next noMethod =>
    have noMethod := Bool.eq_false_iff.2 noMethod
    split
    next property =>
      refine .bind (fun _ ended => ended) fun p (ended : (propertyOf site owner n).result = .ok p) => ?_
      refine .pure (before.property_concat noMethod ?_)
      rw [propertyNodes, filter_concat, if_pos property]
      exact List.rel_append before.properties (.cons ended .nil)
    next other =>
      refine .pure (before.property_concat noMethod ?_)
      rw [propertyNodes, filter_concat, if_neg other]
      exact before.properties

/-- What some nodes add to the members of a class is what is read from those that count. -/
theorem addMembers_membersFrom {implemented : List String} {more : List Node}
    (known : ∀ n ∈ more, ∀ name, site.memberName? n = some name →
      isOverload site body n = (n.kind == "method_signature" && implemented.contains name))
    (before : MembersFrom site owner body ns ms) :
    (addMembers site owner implemented ms more).Ensures (MembersFrom site owner body (ns ++ more)) := by
  induction more generalizing ns ms with
  | nil =>
      rw [List.append_nil]
      exact .pure before
  | cons n more ih =>
      rw [List.forall_mem_cons] at known
      rw [addMembers, List.append_cons]
      exact .bind (addMember_membersFrom known.1 before) fun added after => ih known.2 after

theorem MembersFrom.none : MembersFrom site owner body [] {} := ⟨.nil, .nil, .none⟩

/-- The implemented names are those that overloads are told by. -/
theorem isOverload_of_implemented {implemented : List String} {name : String}
    (collected : (implementedNames site body).result = .ok implemented) (called : site.memberName? n = some name) :
    isOverload site body n = (n.kind == "method_signature" && implemented.contains name) := by
  have names := Reading.result_collect_iff.1 collected
  rw [isOverload, called]
  congr 1
  clear collected
  generalize body.namedOf ["method_definition"] = ms at names
  induction names with
  | nil => rfl
  | @cons m name' _ _ read _ ih =>
      rw [List.any_cons, List.contains_cons, ih, memberName?_ensures m name' read, Option.some_beq_some, BEq.comm]

end Step

/-!
### The members of a class
-/

/-- A method that is no constructor has a place among the methods, or an implementation of its name has one. -/
theorem methodNodes_complete {site : Site} {body n : Node} (mem : n ∈ body.namedOf methodKinds)
    (named : isConstructor site n = false) :
    n ∈ methodNodes site body body.named ∨ n.kind = "method_signature" ∧
      ∃ m ∈ methodNodes site body body.named,
        m.kind = "method_definition" ∧ site.memberName? m = site.memberName? n := by
  obtain ⟨child, method⟩ := List.mem_filter.1 mem
  cases overload : isOverload site body n with
  | false => exact .inl (List.mem_filter.2 ⟨child, by rw [method, named, overload]; rfl⟩)
  | true =>
      obtain ⟨signature, implemented⟩ := Bool.and_eq_true_iff.1 overload
      obtain ⟨m, among, same⟩ := List.any_eq_true.1 implemented
      obtain ⟨child', kind⟩ := List.mem_filter.1 among
      have kind : m.kind = "method_definition" := by simpa using kind
      have same : site.memberName? m = site.memberName? n := eq_of_beq same
      have named' : isConstructor site m = false := by rw [isConstructor, same]; exact named
      refine .inr ⟨eq_of_beq signature, m, List.mem_filter.2 ⟨child', ?_⟩, kind, same⟩
      rw [named', isOverload, kind]
      rfl

/-- Where there are constructors, one of them counts, and it is an implementation if any of them is. -/
theorem constructorNode?_complete {site : Site} {ns : List Node} {n : Node} (mem : n ∈ constructorNodes site ns) :
    ∃ c, constructorNode? site ns = some c ∧ c ∈ constructorNodes site ns ∧
      (n.kind = "method_definition" → c.kind = "method_definition") := by
  rw [constructorNode?]
  cases last : ((constructorNodes site ns).filter fun n => n.kind == "method_definition").getLast? with
  | some c =>
      obtain ⟨among, kind⟩ := List.mem_filter.1 (List.mem_of_getLast? last)
      exact ⟨c, rfl, among, fun _ => eq_of_beq kind⟩
  | none =>
      obtain ⟨c, first⟩ : ∃ c, (constructorNodes site ns).head? = some c :=
        Option.ne_none_iff_exists'.1 fun none => by simp [List.head?_eq_none_iff.1 none] at mem
      refine ⟨c, first, List.mem_of_head? first, fun kind => ?_⟩
      have none := List.filter_eq_nil_iff.1 (List.getLast?_eq_none_iff.1 last) n mem
      exact absurd (beq_iff_eq.2 kind) none

/-- The members of a class are what is read from its properties, methods and constructor, each in the order of the
    text. Every method has a place among them or gives way to an implementation of its name that has one, and no
    signature is taken for the constructor if there is an implementation. -/
theorem classMembers_membersFrom {site : Site} {body : Node} (readable : site.source.Readable body) (owner : String) :
    (∃ ms, (classMembers site owner body).result = .ok ms ∧ MembersFrom site owner body body.named ms) ∧
    (∀ n ∈ body.namedOf methodKinds, isConstructor site n = false →
      n ∈ methodNodes site body body.named ∨ n.kind = "method_signature" ∧
        ∃ m ∈ methodNodes site body body.named,
          m.kind = "method_definition" ∧ site.memberName? m = site.memberName? n) ∧
    ∀ n ∈ constructorNodes site body.named, ∃ c, constructorNode? site body.named = some c ∧
      c ∈ constructorNodes site body.named ∧ (n.kind = "method_definition" → c.kind = "method_definition") := by
  refine ⟨?_, fun n => methodNodes_complete, fun n => constructorNode?_complete⟩
  have found : (classMembers? site owner (some body)).Unfailing :=
    classMembers?_unfailing owner fun _ same => Option.some.inj same ▸ readable
  obtain ⟨ms, ended⟩ := found.value
  obtain ⟨implemented, names, added⟩ := Reading.result_bind_iff.1 ended
  have known : ∀ n ∈ body.named, ∀ name, site.memberName? n = some name →
      isOverload site body n = (n.kind == "method_signature" && implemented.contains name) :=
    fun _ _ _ => isOverload_of_implemented names
  exact ⟨ms, ended, addMembers_membersFrom known .none ms added⟩

/-- A class body in which signatures stand before and behind the implementations of their names. -/
def mixedSite : Site where
  source := ⟨"\x7bconstructor(a);get v()\x7b\x7df(a);f()\x7b\x7df(b);set v(x)\x7b\x7dconstructor()\x7b\x7dp\x7d"⟩
  path := "a.ts"

/-- A method of that body, with its name at some place and some children more. -/
def mixedMethod (kind : String) (start stop nameStart nameStop : Nat) (more : List Node) : Node :=
  .construct kind none start stop (.construct "property_identifier" (some "name") nameStart nameStop [] :: more)

/-- The tree of that body. -/
def mixedBody : Node :=
  .construct "class_body" (some "body") 0 67
    [mixedMethod "method_signature" 1 15 1 12 [],
     mixedMethod "method_definition" 16 25 20 21 [{ Node.construct "get" none 16 19 [] with isNamed := false }],
     mixedMethod "method_signature" 25 29 25 26 [],
     mixedMethod "method_definition" 30 35 30 31 [],
     mixedMethod "method_signature" 35 39 35 36 [],
     mixedMethod "method_definition" 40 50 44 45 [{ Node.construct "set" none 40 43 [] with isNamed := false }],
     mixedMethod "method_definition" 50 65 50 61 [],
     mixedMethod "public_field_definition" 65 66 65 66 []]

/-- Both accessors are there, and one method; its signatures and that of the constructor give way. -/
theorem classMembers_membersFrom_mixed :
    mixedSite.source.Readable mixedBody ∧
      (∃ ms, (classMembers mixedSite "C" mixedBody).result = .ok ms ∧
        MembersFrom mixedSite "C" mixedBody mixedBody.named ms) ∧
      (methodNodes mixedSite mixedBody mixedBody.named).map (·.start) = [16, 30, 40] ∧
      (constructorNode? mixedSite mixedBody.named).map (·.start) = some 50 ∧
      ((classMembers mixedSite "C" mixedBody).result.toOption.map fun ms => ms.methods.map (·.name)) =
        some ["v", "f", "v"] := by
  have readable : mixedSite.source.Readable mixedBody := by decide +kernel
  exact ⟨readable, (classMembers_membersFrom readable "C").1, by decide +kernel, by decide +kernel, by decide +kernel⟩

end Outline
