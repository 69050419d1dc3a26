/-
Module: Outline.Proofs.Signature.Promises
Layer: Proofs
Purpose: The return type of an asynchronous function that is not annotated. What its body returns is wrapped into a
  promise unless the text of its type begins like one. It begins so only if the first return statement hands on a
  parameter whose type does. That is right if the whole type is one promise; if other types follow in a union, they stay
  outside of the promise.
Main exports: behindPromise, promised, HandsOnPromise, isPromise_of_returned, returnType_of_async
-/
import Outline.Proofs.Signature.Returns
import Outline.Proofs.Text.Brackets
import Outline.Proofs.Text.Split

namespace Outline.Signature

open Reading (Ensures)

variable {src : Source} {ps : List Parameter}

/-!
### Texts of promises
-/

/-- The text behind the bracket that closes the promise with which the text of a type begins. -/
def behindPromise (type : String) : Option (List Char) :=
  if isPromise type then Text.behind [.angle] (type.toList.drop "Promise<".toList.length) else none

/-- What an asynchronous function gives: a promise of what its body returns, or that itself if it is one promise and
    nothing else. -/
def promised (type : String) : String :=
  if behindPromise type = some [] then type else "Promise<" ++ type ++ ">"

/-- Whether a type is taken for a promise is decided by its first characters. -/
theorem isPromise_iff {type : String} : isPromise type = true ↔ ∃ rest, type = "Promise<" ++ rest :=
  Text.startsWith_iff_exists

/-- What stands behind a closed promise, with more at the end. -/
theorem behindPromise_append {type : String} {rest : List Char} (closed : behindPromise type = some rest)
    (more : String) : behindPromise (type ++ more) = some (rest ++ more.toList) := by
  rw [behindPromise] at closed
  split at closed
  next promise =>
    obtain ⟨inner, rfl⟩ := isPromise_iff.1 promise
    have longer : isPromise ("Promise<" ++ inner ++ more) = true :=
      isPromise_iff.2 ⟨inner ++ more, String.append_assoc ..⟩
    rw [behindPromise, if_pos longer, String.append_assoc, String.toList_append, List.drop_left, String.toList_append]
    rw [String.toList_append, List.drop_left] at closed
    exact Text.behind_append closed more.toList
  next => cases closed

example : behindPromise "Promise<Map<K, () => A>>" = some [] := by decide

example : behindPromise "Promise<'>'>[]" = some "[]".toList := by decide

/-- Text behind a blank is not needed to begin like a promise. -/
theorem isPromise_append (type more : String) : isPromise (type ++ " " ++ more) = isPromise type := by
  have free : ' ' ∉ "Promise<".toList := by decide
  have blank : type.toList ++ [' '] <+: type.toList ++ ([' '] ++ more.toList) :=
    (List.prefix_append_right_inj _).2 (List.prefix_append _ _)
  rw [Bool.eq_iff_iff, isPromise, isPromise, Text.startsWith, Text.startsWith, List.isPrefixOf_iff_prefix,
    List.isPrefixOf_iff_prefix, String.toList_append, String.toList_append, List.append_assoc]
  constructor
  · intro begins
    rcases List.prefix_or_prefix_of_prefix begins blank with short | long
    · rcases List.prefix_concat_iff.1 short with same | front
      · exact absurd (by simp [same]) free
      · exact front
    · exact absurd (long.subset (by simp)) free
  · exact fun begins => begins.trans (List.prefix_append _ _)

/-- A union is its first member if the others are the same, and else goes on behind it. -/
theorem unionOf_cons (type : String) (others : List String) :
    unionOf (type :: others) = type ∧ (∀ other ∈ others, other = type) ∨
      (∃ more, unionOf (type :: others) = type ++ " " ++ more) ∧ ∃ other ∈ others, other ≠ type := by
  have first : distinct (type :: others) = type :: distinctFrom [type] others := rfl
  rw [unionOf, first]
  cases rest : distinctFrom [type] others with
  | nil =>
      refine .inl ⟨rfl, fun other mem => ?_⟩
      by_contra different
      have kept : other ∈ distinctFrom [type] others := mem_distinctFrom.2 ⟨mem, by simpa using different⟩
      rw [rest] at kept
      cases kept
  | cons next later =>
      have kept : next ∈ distinctFrom [type] others := by simp [rest]
      obtain ⟨mem, different⟩ := mem_distinctFrom.1 kept
      refine .inr ⟨⟨"| " ++ Text.joinWith " | " (next :: later), ?_⟩, next, mem, by simpa using different⟩
      have mark : " | " = " " ++ "| " := rfl
      rw [Text.joinWith, mark]
      simp only [String.append_assoc]

/-- A union begins like a promise if its first member does. -/
theorem isPromise_unionOf (type : String) (others : List String) :
    isPromise (unionOf (type :: others)) = isPromise type := by
  rcases unionOf_cons type others with ⟨same, _⟩ | ⟨⟨more, longer⟩, _⟩
  · rw [same]
  · rw [longer, isPromise_append]

/-- A union whose first member closes its promise is one promise if that member is and the others are the same. -/
theorem behindPromise_unionOf {type : String} {rest : List Char} (closed : behindPromise type = some rest)
    (others : List String) :
    behindPromise (unionOf (type :: others)) = some [] ↔ rest = [] ∧ ∀ other ∈ others, other = type := by
  rcases unionOf_cons type others with ⟨same, all⟩ | ⟨⟨more, longer⟩, other, mem, different⟩
  · rw [same, closed, Option.some_inj]
    exact (and_iff_left all).symm
  · rw [longer, String.append_assoc, behindPromise_append closed]
    constructor
    · intro nothing
      have empty := (List.append_eq_nil_iff.1 (Option.some.inj nothing)).2
      simp at empty
    · exact fun all => absurd (all.2 other mem) different

/-!
### Returned promises
-/

/-- The type of a function as a value begins with a bracket. -/
theorem isPromise_arrow (rest : String) : isPromise ("(" ++ rest) = false := by
  rw [isPromise, Text.startsWith, String.toList_append]
  rfl

/-- The type that is inferred for an expression never begins like a promise. -/
theorem isPromise_inferExpression (e : Node) :
    Ensures (fun type => isPromise type = false) (inferExpression src e) := by
  have arrow : Ensures (fun type => isPromise type = false) (arrowSignature src e) := by
    rw [arrowSignature]
    refine .after _ fun ps => .after _ fun result => .pure ?_
    rw [String.append_assoc, String.append_assoc]
    exact isPromise_arrow _
  have other : Ensures (fun type => isPromise type = false)
      (if isFunction e then arrowSignature src e else return "any") := by
    split
    · exact arrow
    · exact .pure (by decide)
  rw [inferExpression]
  split <;> first | exact other | exact .pure (by decide)

/-- What the body returns first is a parameter whose type begins like a promise. -/
def HandsOnPromise (src : Source) (ps : List Parameter) (body : Node) : Prop :=
  ∃ e p, (returnedBy body).head? = some (some e) ∧ NamesParameter src ps e p ∧ isPromise p.type = true

/-- One parameter at most is the first of the name that an expression is. -/
theorem NamesParameter.unique {e : Node} {p q : Parameter} (names : NamesParameter src ps e p)
    (others : NamesParameter src ps e q) : p = q := by
  have same : p.name = q.name := Except.ok.inj (names.text.symm.trans others.text)
  have found := find?_parameter.2 ⟨rfl, names.first⟩
  have again := find?_parameter.2 ⟨rfl, others.first⟩
  rw [same, again] at found
  exact (Option.some.inj found).symm

/-- What is returned begins like a promise only if it is a parameter of which the type does. -/
theorem ReturnedAs.isPromise_iff {e : Option Node} {type : String} (returned : ReturnedAs src ps e type) :
    isPromise type = true ↔ ∃ e' p, e = some e' ∧ NamesParameter src ps e' p ∧ isPromise p.type = true := by
  cases returned with
  | bare => exact ⟨fun begins => absurd begins (by decide), by rintro ⟨_, _, none, _⟩; cases none⟩
  | @parameter e p names =>
      constructor
      · exact fun begins => ⟨e, p, rfl, names, begins⟩
      · rintro ⟨_, q, same, others, begins⟩
        cases same
        rwa [names.unique others]
  | @expression e _ other inferred =>
      constructor
      · exact fun begins => absurd begins (by simp [isPromise_inferExpression e _ inferred])
      · rintro ⟨_, q, same, names, _⟩
        cases same
        exact absurd names (other q)

/-- The type of a body begins like a promise exactly if what it returns first does. -/
theorem isPromise_of_returned {es : List (Option Node)} {types : List String}
    (returned : List.Forall₂ (ReturnedAs src ps) es types) :
    isPromise (if types.isEmpty then "void" else unionOf types) = true ↔
      ∃ e p, es.head? = some (some e) ∧ NamesParameter src ps e p ∧ isPromise p.type = true := by
  cases returned with
  | nil => simp [show isPromise "void" = false by decide]
  | @cons e type es others first _ =>
      rw [List.isEmpty_cons, if_neg Bool.false_ne_true, isPromise_unionOf, first.isPromise_iff]
      simp only [List.head?_cons, Option.some_inj]

/-!
### Asynchronous functions
-/

/-- An asynchronous function that is not annotated returns a promise of what its body returns, unless this is one
    promise itself. The exception is a body whose first return statement hands on a parameter of which the type begins
    like a promise: what the body returns is then not wrapped, and that is right only if it is one promise altogether,
    which means that all return statements give the same promise. -/
theorem returnType_of_async {n body : Node} (async : isAsync n = true) (ends : isGenerator n = false)
    (bare : n.field? "return_type" = none) (holds : n.field? "body" = some body) (readable : src.Readable body)
    (ps : List Parameter) :
    ∃ types inferred, List.Forall₂ (ReturnedAs src ps) (returnedBy body) types ∧
      (inferReturn src n ps).result = .ok inferred ∧
      (HandsOnPromise src ps body → (returnType src n ps).result = .ok inferred) ∧
      (¬ HandsOnPromise src ps body → (returnType src n ps).result = .ok ("Promise<" ++ inferred ++ ">")) ∧
      ((returnType src n ps).result = .ok (promised inferred) ↔
        (HandsOnPromise src ps body → behindPromise inferred = some [])) ∧
      ∀ first rest, types.head? = some first → behindPromise first = some rest →
        (behindPromise inferred = some [] ↔ rest = [] ∧ ∀ type ∈ types, type = first) := by
  obtain ⟨inferred, ended⟩ := (inferReturn_unfailing_of_body holds readable ps).value
  obtain ⟨types, returned, known⟩ := types_of_inferReturn holds ended
  have begins : isPromise inferred = true ↔ HandsOnPromise src ps body := by
    rw [known, HandsOnPromise, isPromise_of_returned returned]
  have result : (returnType src n ps).result =
      .ok (if isPromise inferred then inferred else "Promise<" ++ inferred ++ ">") := by
    rw [returnType_eq, bare]
    simp only [ends, holds, async, Option.isNone_some, Bool.or_self, Bool.false_eq_true, if_false, Bool.true_and,
      Bool.not_eq_true']
    refine Reading.result_bind_iff.2 ⟨inferred, ended, ?_⟩
    cases isPromise inferred <;> rfl
  have longer : inferred ≠ "Promise<" ++ inferred ++ ">" := by
    intro same
    have lengths := congrArg (·.toList.length) same
    simp at lengths
    omega
  refine ⟨types, inferred, returned, ended, ?_, ?_, ?_, ?_⟩
  · intro handsOn
    rw [result, if_pos (begins.2 handsOn)]
  · intro other
    rw [result, if_neg (mt begins.1 other)]
  · rw [result, ← begins, promised]
    by_cases promise : isPromise inferred = true
    · by_cases whole : behindPromise inferred = some []
      · simp [promise, whole]
      · simp [promise, whole, longer]
    · have open_ : behindPromise inferred = none := if_neg promise
      simp [promise, open_]
  · intro first rest head closed
    cases types with
    | nil => cases head
    | cons type others =>
        cases head
        rw [known, List.isEmpty_cons, if_neg Bool.false_ne_true, behindPromise_unionOf closed]
        simp

/-- An asynchronous function with a promise and a number for parameters, which it returns under the names `a` and
    `b`. -/
def handingSource (a b : String) : Source :=
  ⟨"async function f(p:Promise<string>,n:number)\x7breturn " ++ a ++ ";return " ++ b ++ "\x7d"⟩

/-- The body of that function. -/
def handingBody : Node :=
  .construct "statement_block" (some "body") 44 63
    [.construct "return_statement" none 45 54 [.construct "identifier" none 52 53 []],
     .construct "return_statement" none 54 62 [.construct "identifier" none 61 62 []]]

/-- That function. -/
def handingFunction : Node :=
  .construct "function_declaration" none 0 63
    [{ Node.construct "async" none 0 5 [] with isNamed := false },
     .construct "identifier" (some "name") 15 16 [],
     .construct "formal_parameters" (some "parameters") 16 44
      [.construct "required_parameter" none 17 34
        [.construct "identifier" (some "pattern") 17 18 [],
         .construct "type_annotation" (some "type") 18 34
          [.construct "generic_type" none 19 34
            [.construct "type_identifier" (some "name") 19 26 [],
             .construct "type_arguments" (some "type_arguments") 26 34
              [.construct "predefined_type" none 27 33 []]]]],
       .construct "required_parameter" none 35 43
        [.construct "identifier" (some "pattern") 35 36 [],
         .construct "type_annotation" (some "type") 36 43 [.construct "predefined_type" none 37 43 []]]],
     handingBody]

/-- Its parameters. -/
def handed : List Parameter := [{ name := "p", type := "Promise<string>" }, { name := "n", type := "number" }]

/-- A function that returns its number first and its promise later returns a promise of both. -/
theorem returnType_of_async_numberFirst :
    isAsync handingFunction = true ∧ isGenerator handingFunction = false ∧
      handingFunction.field? "return_type" = none ∧ handingFunction.field? "body" = some handingBody ∧
      (handingSource "n" "p").Readable handingBody ∧ ¬ HandsOnPromise (handingSource "n" "p") handed handingBody ∧
      (∃ inferred, (inferReturn (handingSource "n" "p") handingFunction handed).result = .ok inferred ∧
        (returnType (handingSource "n" "p") handingFunction handed).result = .ok (promised inferred)) ∧
      (returnType (handingSource "n" "p") handingFunction handed).result.toOption =
        some "Promise<number | Promise<string>>" := by
  have readable : (handingSource "n" "p").Readable handingBody := by decide +kernel
  obtain ⟨types, inferred, _, ended, _, _, right, _⟩ :=
    returnType_of_async (n := handingFunction) (by decide) (by decide) rfl rfl readable handed
  have other : ¬ HandsOnPromise (handingSource "n" "p") handed handingBody := by
    rintro ⟨e, p, first, names, begins⟩
    cases first
    have mem : p ∈ handed := List.mem_of_find?_eq_some (find?_parameter.2 ⟨rfl, names.first⟩)
    have text := congrArg Except.toOption names.text
    rcases List.mem_pair.1 mem with rfl | rfl
    · exact absurd text (by decide +kernel)
    · exact absurd begins (by decide)
  refine ⟨by decide, by decide, rfl, rfl, readable, other, ⟨inferred, ended, right.2 (absurd · other)⟩, ?_⟩
  decide +kernel

/-- The same function returns no promise if it returns the promise first: the number stays outside. -/
theorem returnType_of_async_numberOutside :
    isAsync handingFunction = true ∧ isGenerator handingFunction = false ∧
      handingFunction.field? "return_type" = none ∧ handingFunction.field? "body" = some handingBody ∧
      (handingSource "p" "n").Readable handingFunction ∧
      (functionParameters (handingSource "p" "n") handingFunction).result.toOption = some handed ∧
      (inferReturn (handingSource "p" "n") handingFunction handed).result.toOption = some "Promise<string> | number" ∧
      promised "Promise<string> | number" = "Promise<Promise<string> | number>" ∧
      (returnType (handingSource "p" "n") handingFunction handed).result.toOption = some "Promise<string> | number" ∧
      (returnType (handingSource "p" "n") handingFunction handed).result ≠
        .ok (promised "Promise<string> | number") := by
  have result : (returnType (handingSource "p" "n") handingFunction handed).result.toOption =
      some "Promise<string> | number" := by decide +kernel
  refine ⟨by decide, by decide, rfl, rfl, by decide +kernel, by decide +kernel, by decide +kernel, by decide, result,
    ?_⟩
  intro whole
  rw [whole] at result
  exact absurd result (by decide)

end Outline.Signature
