/-
Module: Outline.Proofs.Signature.Canonical
Layer: Proofs
Purpose: Type expressions in canonical layout. Every construct is a sketch: the nodes, fields and tokens that the
  grammar gives it, with one space where signatures have one and none elsewhere. One inductive predicate says which
  sketches are types, members of tuples, type parameters, parameters and members of object types.
  The renderer shows a canonical type as it is written, with one exception: what a construct signature makes is shown
  as `any`. `Sketch.shown` is the text with that exception made.
Main exports: IsWord, Path, TypeName, Subject, Literal, Category, Canonical, Sketch.shown, Sketch.makesAny,
  Sketch.shown_of_makesAny
-/
import Outline.Proofs.Signature.Layout
import Outline.Signature.Render

namespace Outline

/-- A text that is not empty and holds no blank. -/
def IsWord (w : String) : Prop := w ≠ "" ∧ ∀ c ∈ w.toList, Text.isBlank c = false

instance (w : String) : Decidable (IsWord w) :=
  decidable_of_iff ((w.toList ≠ [] && w.toList.all fun c => !Text.isBlank c) = true) (by
    simp [IsWord, String.toList_eq_nil_iff])

namespace Sketch

/-!
### Names and literals
-/

def identifier (w : String) : Sketch := .leaf "identifier" true w

def typeIdentifier (w : String) : Sketch := .leaf "type_identifier" true w

def propertyIdentifier (w : String) : Sketch := .leaf "property_identifier" true w

/-- The value `this`. -/
def self : Sketch := .leaf "this" true "this"

/-- `a.w`, a member of a value (`member_expression`) or of a namespace (`nested_identifier`). -/
def memberOf (kind : String) (a : Sketch) (w : String) : Sketch :=
  .node kind [.child (some "object") a, .token ".", .child (some "property") (propertyIdentifier w)]

/-- `a.w`, a type in a namespace. -/
def qualifiedType (a : Sketch) (w : String) : Sketch :=
  .node "nested_type_identifier" [.child (some "module") a, .token ".", .child (some "name") (typeIdentifier w)]

/-- A number behind a minus sign. -/
def negative (w : String) : Sketch :=
  .node "unary_expression" [.child (some "operator") (.leaf "-" false "-"),
    .child (some "argument") (.leaf "number" true w)]

/-- A text between double quotes, cut into fragments and escapes. -/
def string (pieces : List (String × String)) : Sketch :=
  .node "string" (.token "\"" :: pieces.map (fun p => .child none (.leaf p.1 true p.2)) ++ [.token "\""])

/-!
### Types
-/

def predefinedType (w : String) : Sketch := .node "predefined_type" [.token w]

/-- The one predefined type of two words. -/
def uniqueSymbol : Sketch :=
  .node "predefined_type" [.child none (.leaf "unique symbol" false "unique"), .gap " ",
    .child none (.leaf "unique symbol" false "symbol")]

/-- `<s, t>` -/
def angled (kind : String) (ss : List Sketch) : Sketch := .node kind (.token "<" :: separated "," ss ++ [.token ">"])

/-- `s<t, u>` -/
def genericType (s : Sketch) (ts : List Sketch) : Sketch :=
  .node "generic_type" [.child (some "name") s, .child (some "type_arguments") (angled "type_arguments" ts)]

/-- `t[]` -/
def arrayType (t : Sketch) : Sketch := .node "array_type" [.child none t, .token "[", .token "]"]

/-- `[m, n]` -/
def tupleType (ms : List Sketch) : Sketch := .node "tuple_type" (.token "[" :: separated "," ms ++ [.token "]"])

/-- Two types with an operator between them. -/
def joinedType (kind mark : String) (a b : Sketch) : Sketch :=
  .node kind [.child none a, .gap " ", .token mark, .gap " ", .child none b]

/-- `a | b` -/
def unionType (a b : Sketch) : Sketch := joinedType "union_type" "|" a b

/-- `a & b` -/
def intersectionType (a b : Sketch) : Sketch := joinedType "intersection_type" "&" a b

/-- `(p, q)` -/
def formalParameters (ps : List Sketch) : Sketch :=
  .node "formal_parameters" (.token "(" :: separated "," ps ++ [.token ")"])

/-- `<t, u>`, or nothing without type parameters. -/
def typeParameterParts : List Sketch → List Part
  | [] => []
  | t :: ts => [.child (some "type_parameters") (angled "type_parameters" (t :: ts))]

/-- `<t, u>(p, q)` -/
def callParts (ts ps : List Sketch) : List Part :=
  typeParameterParts ts ++ [.child (some "parameters") (formalParameters ps)]

/-- `<t>(p) => r` -/
def functionType (ts ps : List Sketch) (r : Sketch) : Sketch :=
  .node "function_type" (callParts ts ps ++ [.gap " ", .token "=>", .gap " ", .child (some "return_type") r])

/-- `abstract` and a space, or nothing. -/
def abstractParts (isAbstract : Bool) : List Part := if isAbstract then [.token "abstract", .gap " "] else []

/-- `abstract new <t>(p) => r` -/
def constructorType (isAbstract : Bool) (ts ps : List Sketch) (r : Sketch) : Sketch :=
  .node "constructor_type" (abstractParts isAbstract ++ (.token "new" :: .gap " " :: (callParts ts ps ++
    [.gap " ", .token "=>", .gap " ", .child (some "type") r])))

/-- `c extends e ? a : b` -/
def conditionalType (c e a b : Sketch) : Sketch :=
  .node "conditional_type"
    [.child (some "left") c, .gap " ", .token "extends", .gap " ", .child (some "right") e, .gap " ", .token "?",
      .gap " ", .child (some "consequence") a, .gap " ", .token ":", .gap " ", .child (some "alternative") b]

/-- `t[k]` -/
def lookupType (t k : Sketch) : Sketch := .node "lookup_type" [.child none t, .token "[", .child none k, .token "]"]

/-- `typeof a` -/
def typeQuery (a : Sketch) : Sketch := .node "type_query" [.token "typeof", .gap " ", .child none a]

/-- `x is t` -/
def typePredicate (x t : Sketch) : Sketch :=
  .node "type_predicate" [.child (some "name") x, .gap " ", .token "is", .gap " ", .child (some "type") t]

/-- `asserts x`, where `x` may be a type predicate. -/
def asserts (x : Sketch) : Sketch := .node "asserts" [.token "asserts", .gap " ", .child none x]

def literalType (l : Sketch) : Sketch := .node "literal_type" [.child none l]

/-- `(t)` -/
def parenthesizedType (t : Sketch) : Sketch := .node "parenthesized_type" [.token "(", .child none t, .token ")"]

/-- `keyof t` -/
def keyOfType (t : Sketch) : Sketch := .node "index_type_query" [.token "keyof", .gap " ", .child none t]

/-- `readonly t` -/
def readonlyType (t : Sketch) : Sketch := .node "readonly_type" [.token "readonly", .gap " ", .child none t]

/-- `infer w` -/
def inferType (w : String) : Sketch := .node "infer_type" [.token "infer", .gap " ", .child none (typeIdentifier w)]

/-- `infer w extends t` -/
def inferBoundedType (w : String) (t : Sketch) : Sketch :=
  .node "infer_type"
    [.token "infer", .gap " ", .child none (typeIdentifier w), .gap " ", .token "extends", .gap " ", .child none t]

/-- `{ m; n }`, or `{}` without members. -/
def objectType : List Sketch → Sketch
  | [] => .node "object_type" [.token "\x7b", .token "\x7d"]
  | m :: ms =>
    .node "object_type" (.token "\x7b" :: .gap " " :: (separated ";" (m :: ms) ++ [.gap " ", .token "\x7d"]))

/-!
### Parts of types
-/

/-- Kind of the node that holds a colon and the type behind it. -/
def ascriptionKind (t : Sketch) : String :=
  if t.kind = "type_predicate" then "type_predicate_annotation"
  else if t.kind = "asserts" then "asserts_annotation"
  else "type_annotation"

/-- A mark and a type behind it. -/
def clause (kind mark : String) (t : Sketch) : Sketch := .node kind [.token mark, .gap " ", .child none t]

/-- `: t` -/
def ascription (t : Sketch) : Sketch := clause (ascriptionKind t) ":" t

/-- `t?`, in a tuple. -/
def optionalType (t : Sketch) : Sketch := .node "optional_type" [.child none t, .token "?"]

/-- `...t`, in a tuple. -/
def restType (t : Sketch) : Sketch := .node "rest_type" [.token "...", .child none t]

/-- A question mark, or nothing. -/
def optionalParts (isOptional : Bool) : List Part := if isOptional then [.token "?"] else []

/-- Kind of a parameter, and of a named member of a tuple. -/
def parameterKind (isOptional : Bool) : String := if isOptional then "optional_parameter" else "required_parameter"

/-- `w?: t`; a parameter has its name under `pattern`, a named member of a tuple under `name`. -/
def namedElement (field : String) (isOptional : Bool) (w : String) (t : Sketch) : Sketch :=
  .node (parameterKind isOptional)
    (.child (some field) (identifier w) :: (optionalParts isOptional ++ [.child (some "type") (ascription t)]))

/-- `...w: t` -/
def restParameter (w : String) (t : Sketch) : Sketch :=
  .node "required_parameter"
    [.child (some "pattern") (.node "rest_pattern" [.token "...", .child none (identifier w)]),
      .child (some "type") (ascription t)]

/-- A space, a mark and a type, or nothing. -/
def clauseParts (field kind mark : String) : Option Sketch → List Part
  | none => []
  | some t => [.gap " ", .child (some field) (clause kind mark t)]

/-- `w extends b = d` -/
def typeParameter (w : String) (b d : Option Sketch) : Sketch :=
  .node "type_parameter" (.child (some "name") (typeIdentifier w) ::
    (clauseParts "constraint" "constraint" "extends" b ++ clauseParts "value" "default_type" "=" d))

/-- `readonly` and a space, or nothing. -/
def readonlyParts (isReadonly : Bool) : List Part := if isReadonly then [.token "readonly", .gap " "] else []

/-- `readonly w?: t` -/
def propertySignature (isReadonly isOptional : Bool) (w : String) (t : Sketch) : Sketch :=
  .node "property_signature" (readonlyParts isReadonly ++ (.child (some "name") (propertyIdentifier w) ::
    (optionalParts isOptional ++ [.child (some "type") (ascription t)])))

/-- `w?<t>(p): r` -/
def methodSignature (isOptional : Bool) (w : String) (ts ps : List Sketch) (r : Sketch) : Sketch :=
  .node "method_signature" (.child (some "name") (propertyIdentifier w) ::
    (optionalParts isOptional ++ (callParts ts ps ++ [.child (some "return_type") (ascription r)])))

/-- `<t>(p): r` -/
def callSignature (ts ps : List Sketch) (r : Sketch) : Sketch :=
  .node "call_signature" (callParts ts ps ++ [.child (some "return_type") (ascription r)])

/-- `new <t>(p): r`; the grammar gives what is made under `type`. -/
def constructSignature (ts ps : List Sketch) (r : Sketch) : Sketch :=
  .node "construct_signature" (.token "new" :: .gap " " :: (callParts ts ps ++ [.child (some "type") (ascription r)]))

/-- `[w: k]: t` -/
def indexSignature (w : String) (k t : Sketch) : Sketch :=
  .node "index_signature"
    [.token "[", .child (some "name") (identifier w), .token ":", .gap " ", .child (some "index_type") k, .token "]",
      .child (some "type") (ascription t)]

end Sketch

/-!
### Canonical types
-/

/-- Values named by a path: `a.b.c`. -/
inductive Path : Sketch → Prop where
  | identifier {w : String} (word : IsWord w) : Path (.identifier w)
  | member {a : Sketch} {w : String} (owner : Path a) (word : IsWord w) : Path (.memberOf "member_expression" a w)

/-- Names of types: `T`, `a.T`, `a.b.T`. -/
inductive TypeName : Sketch → Prop where
  | simple {w : String} (word : IsWord w) : TypeName (.typeIdentifier w)
  | qualified {v w : String} (owner : IsWord v) (word : IsWord w) : TypeName (.qualifiedType (.identifier v) w)
  | nested {a : Sketch} {v w : String} (outer : Path a) (owner : IsWord v) (word : IsWord w) :
      TypeName (.qualifiedType (.memberOf "nested_identifier" a v) w)

/-- What a predicate or an assertion is about. -/
inductive Subject : Sketch → Prop where
  | identifier {w : String} (word : IsWord w) : Subject (.identifier w)
  | self : Subject .self

/-- Literals. -/
inductive Literal : Sketch → Prop where
  | number {w : String} (word : IsWord w) : Literal (.leaf "number" true w)
  | negative {w : String} (word : IsWord w) : Literal (.negative w)
  | constant {w : String} (known : w ∈ ["true", "false", "null", "undefined"]) : Literal (.leaf w true w)
  | string {pieces : List (String × String)} (kinds : ∀ p ∈ pieces, p.1 ∈ ["string_fragment", "escape_sequence"]) :
      Literal (.string pieces)

/-- What a canonical sketch is. -/
inductive Category where
  | type
  | tupleMember
  | typeParameter
  | parameter
  | member
deriving DecidableEq, Repr

/-- The predefined types of one word. -/
def predefinedTypes : List String :=
  ["any", "number", "boolean", "string", "symbol", "void", "unknown", "never", "object"]

/-- Sketches in canonical layout. -/
inductive Canonical : Category → Sketch → Prop where
  | predefined {w : String} (known : w ∈ predefinedTypes) : Canonical .type (.predefinedType w)
  | uniqueSymbol : Canonical .type .uniqueSymbol
  | name {s : Sketch} (name : TypeName s) : Canonical .type s
  | generic {s t : Sketch} {ts : List Sketch} (name : TypeName s) (arguments : ∀ a ∈ t :: ts, Canonical .type a) :
      Canonical .type (.genericType s (t :: ts))
  | array {t : Sketch} (element : Canonical .type t) : Canonical .type (.arrayType t)
  | tuple {ms : List Sketch} (members : ∀ m ∈ ms, Canonical .tupleMember m) : Canonical .type (.tupleType ms)
  | union {a b : Sketch} (left : Canonical .type a) (right : Canonical .type b) : Canonical .type (.unionType a b)
  | intersection {a b : Sketch} (left : Canonical .type a) (right : Canonical .type b) :
      Canonical .type (.intersectionType a b)
  | function {ts ps : List Sketch} {r : Sketch} (typeParameters : ∀ t ∈ ts, Canonical .typeParameter t)
      (parameters : ∀ p ∈ ps, Canonical .parameter p) (result : Canonical .type r) :
      Canonical .type (.functionType ts ps r)
  | constructor (isAbstract : Bool) {ts ps : List Sketch} {r : Sketch}
      (typeParameters : ∀ t ∈ ts, Canonical .typeParameter t) (parameters : ∀ p ∈ ps, Canonical .parameter p)
      (result : Canonical .type r) : Canonical .type (.constructorType isAbstract ts ps r)
  | conditional {c e a b : Sketch} (checked : Canonical .type c) (bound : Canonical .type e) (yes : Canonical .type a)
      (no : Canonical .type b) : Canonical .type (.conditionalType c e a b)
  | lookup {t k : Sketch} (object : Canonical .type t) (key : Canonical .type k) : Canonical .type (.lookupType t k)
  | typeOf {a : Sketch} (path : Path a) : Canonical .type (.typeQuery a)
  | predicate {x t : Sketch} (subject : Subject x) (type : Canonical .type t) : Canonical .type (.typePredicate x t)
  | asserts {x : Sketch} (subject : Subject x) : Canonical .type (.asserts x)
  | assertsIs {x t : Sketch} (subject : Subject x) (type : Canonical .type t) :
      Canonical .type (.asserts (.typePredicate x t))
  | literal {l : Sketch} (literal : Literal l) : Canonical .type (.literalType l)
  | parenthesized {t : Sketch} (inner : Canonical .type t) : Canonical .type (.parenthesizedType t)
  | keyOf {t : Sketch} (object : Canonical .type t) : Canonical .type (.keyOfType t)
  | readonly {t : Sketch} (inner : Canonical .type t) : Canonical .type (.readonlyType t)
  | infer {w : String} (word : IsWord w) : Canonical .type (.inferType w)
  | inferBounded {w : String} {t : Sketch} (word : IsWord w) (bound : Canonical .type t) :
      Canonical .type (.inferBoundedType w t)
  | object {ms : List Sketch} (members : ∀ m ∈ ms, Canonical .member m) : Canonical .type (.objectType ms)
  | plainElement {t : Sketch} (type : Canonical .type t) : Canonical .tupleMember t
  | optionalElement {t : Sketch} (type : Canonical .type t) : Canonical .tupleMember (.optionalType t)
  | restElement {t : Sketch} (type : Canonical .type t) : Canonical .tupleMember (.restType t)
  | namedElement (isOptional : Bool) {w : String} {t : Sketch} (word : IsWord w) (type : Canonical .type t) :
      Canonical .tupleMember (.namedElement "name" isOptional w t)
  | typeParameter {w : String} {b d : Option Sketch} (word : IsWord w) (bound : ∀ t ∈ b, Canonical .type t)
      (default : ∀ t ∈ d, Canonical .type t) : Canonical .typeParameter (.typeParameter w b d)
  | parameter (isOptional : Bool) {w : String} {t : Sketch} (word : IsWord w) (type : Canonical .type t) :
      Canonical .parameter (.namedElement "pattern" isOptional w t)
  | restParameter {w : String} {t : Sketch} (word : IsWord w) (type : Canonical .type t) :
      Canonical .parameter (.restParameter w t)
  | property (isReadonly isOptional : Bool) {w : String} {t : Sketch} (word : IsWord w) (type : Canonical .type t) :
      Canonical .member (.propertySignature isReadonly isOptional w t)
  | method (isOptional : Bool) {w : String} {ts ps : List Sketch} {r : Sketch} (word : IsWord w)
      (typeParameters : ∀ t ∈ ts, Canonical .typeParameter t) (parameters : ∀ p ∈ ps, Canonical .parameter p)
      (result : Canonical .type r) : Canonical .member (.methodSignature isOptional w ts ps r)
  | call {ts ps : List Sketch} {r : Sketch} (typeParameters : ∀ t ∈ ts, Canonical .typeParameter t)
      (parameters : ∀ p ∈ ps, Canonical .parameter p) (result : Canonical .type r) :
      Canonical .member (.callSignature ts ps r)
  | construct {ts ps : List Sketch} {r : Sketch} (typeParameters : ∀ t ∈ ts, Canonical .typeParameter t)
      (parameters : ∀ p ∈ ps, Canonical .parameter p) (result : Canonical .type r) :
      Canonical .member (.constructSignature ts ps r)
  | index {w : String} {k t : Sketch} (word : IsWord w) (key : Canonical .type k) (type : Canonical .type t) :
      Canonical .member (.indexSignature w k t)

/-!
### Text as shown
-/

namespace Sketch

mutual

/-- The text of a construct, with `any` in place of what the construct signatures in it make. -/
def shown : Sketch → String
  | leaf _ _ t => t
  | node kind parts => shownAll kind parts

/-- What is shown of the parts of a construct of some kind. -/
def shownAll (kind : String) : List Part → String
  | [] => ""
  | .gap t :: parts => t ++ shownAll kind parts
  | .child field s :: parts =>
    (if kind = "construct_signature" ∧ field = some "type" then ": any" else s.shown) ++ shownAll kind parts

end

mutual

/-- Do all construct signatures in a construct make `any`? -/
def makesAny : Sketch → Bool
  | leaf _ _ _ => true
  | node kind parts => makesAnyAll kind parts

/-- Is it so in the parts of a construct of some kind? -/
def makesAnyAll (kind : String) : List Part → Bool
  | [] => true
  | .gap _ :: parts => makesAnyAll kind parts
  | .child field s :: parts =>
    (if kind = "construct_signature" ∧ field = some "type" then s.text == ": any" else s.makesAny) &&
      makesAnyAll kind parts

end

mutual

/-- Where all construct signatures make `any`, the text is shown as it is written. -/
theorem shown_of_makesAny : (s : Sketch) → s.makesAny = true → s.shown = s.text
  | leaf _ _ _, _ => by rw [shown, text]
  | node kind parts, makes => by
    rw [makesAny] at makes
    rw [shown, text]
    exact shownAll_of_makesAnyAll kind parts makes

/-- Where nothing is a construct signature, the parts are shown as they are written. -/
theorem shownAll_of_makesAnyAll (kind : String) :
    (parts : List Part) → makesAnyAll kind parts = true → shownAll kind parts = textAll parts
  | [], _ => by rw [shownAll, textAll]
  | .gap t :: parts, makes => by
    rw [makesAnyAll] at makes
    rw [shownAll, textAll, shownAll_of_makesAnyAll kind parts makes]
  | .child field s :: parts, makes => by
    rw [makesAnyAll, Bool.and_eq_true] at makes
    rw [shownAll, textAll, shownAll_of_makesAnyAll kind parts makes.2]
    split
    case isTrue made =>
      rw [if_pos made, beq_iff_eq] at makes
      rw [makes.1]
    case isFalse other =>
      rw [if_neg other] at makes
      rw [shown_of_makesAny s makes.1]

end

@[simp] theorem shown_leaf (kind : String) (isNamed : Bool) (t : String) : (leaf kind isNamed t).shown = t := by
  rw [shown]

@[simp] theorem shown_node (kind : String) (parts : List Part) : (node kind parts).shown = shownAll kind parts := by
  rw [shown]

@[simp] theorem shownAll_nil (kind : String) : shownAll kind [] = "" := by rw [shownAll]

@[simp] theorem shownAll_gap (kind t : String) (parts : List Part) :
    shownAll kind (.gap t :: parts) = t ++ shownAll kind parts := by
  rw [shownAll]

@[simp] theorem shownAll_child (kind : String) (field : Option String) (s : Sketch) (parts : List Part) :
    shownAll kind (.child field s :: parts) =
      (if kind = "construct_signature" ∧ field = some "type" then ": any" else s.shown) ++ shownAll kind parts := by
  rw [shownAll]

@[simp] theorem shownAll_token (kind t : String) (parts : List Part) :
    shownAll kind (.token t :: parts) = t ++ shownAll kind parts := by
  simp [Part.token]

@[simp] theorem shownAll_append (kind : String) (parts more : List Part) :
    shownAll kind (parts ++ more) = shownAll kind parts ++ shownAll kind more := by
  induction parts with
  | nil => simp
  | cons part parts ih => cases part <;> simp [ih, String.append_assoc]

/-- Parts with a mark between them are shown with the mark and a blank between them. -/
@[simp] theorem shownAll_separated (kind mark : String) (ss : List Sketch) :
    shownAll kind (separated mark ss) = Text.joinWith (mark ++ " ") (ss.map shown) := by
  fun_induction separated mark ss with
  | case1 => simp [Text.joinWith]
  | case2 s => simp [Text.joinWith]
  | case3 s t rest ih => simp [Text.joinWith, ih, String.append_assoc]

/-!
### How each construct is shown
-/

theorem shown_angled (kind : String) (ss : List Sketch) :
    (angled kind ss).shown = "<" ++ Text.joinWith ", " (ss.map shown) ++ ">" := by
  simp [angled, ← String.toList_inj]

/-- A generic type is shown as its name and its arguments in angle brackets. -/
theorem shown_genericType (s : Sketch) (ts : List Sketch) :
    (genericType s ts).shown = s.shown ++ "<" ++ Text.joinWith ", " (ts.map shown) ++ ">" := by
  simp [genericType, shown_angled, ← String.toList_inj]

theorem shown_arrayType (t : Sketch) : (arrayType t).shown = t.shown ++ "[]" := by
  simp [arrayType]

theorem shown_tupleType (ms : List Sketch) :
    (tupleType ms).shown = "[" ++ Text.joinWith ", " (ms.map shown) ++ "]" := by
  simp [tupleType, ← String.toList_inj]

theorem shown_unionType (a b : Sketch) : (unionType a b).shown = a.shown ++ " | " ++ b.shown := by
  simp [unionType, joinedType, ← String.toList_inj]

theorem shown_intersectionType (a b : Sketch) : (intersectionType a b).shown = a.shown ++ " & " ++ b.shown := by
  simp [intersectionType, joinedType, ← String.toList_inj]

theorem shown_formalParameters (ps : List Sketch) :
    (formalParameters ps).shown = "(" ++ Text.joinWith ", " (ps.map shown) ++ ")" := by
  simp [formalParameters, ← String.toList_inj]

/-- What can be called is shown with its type parameters, if there are any, and its parameters in parentheses. -/
theorem shownAll_callParts (kind : String) (ts ps : List Sketch) :
    shownAll kind (callParts ts ps) =
      Signature.typeParameterList (ts.map shown) ++ "(" ++ Text.joinWith ", " (ps.map shown) ++ ")" := by
  cases ts with
  | nil => simp [callParts, typeParameterParts, Signature.typeParameterList, shown_formalParameters]
  | cons t ts =>
      simp [callParts, typeParameterParts, Signature.typeParameterList, shown_formalParameters, shown_angled,
        ← String.toList_inj]

/-- A function type is shown as its parameters and, behind the arrow, its result. -/
theorem shown_functionType (ts ps : List Sketch) (r : Sketch) :
    (functionType ts ps r).shown =
      Signature.typeParameterList (ts.map shown) ++ "(" ++ Text.joinWith ", " (ps.map shown) ++ ") => " ++ r.shown := by
  simp [functionType, shownAll_callParts, ← String.toList_inj]

/-- A constructor type is shown as a function type with a word in front of it. -/
theorem shown_constructorType (isAbstract : Bool) (ts ps : List Sketch) (r : Sketch) :
    (constructorType isAbstract ts ps r).shown =
      (if isAbstract then "abstract new " else "new ") ++ (functionType ts ps r).shown := by
  cases isAbstract <;>
    simp [constructorType, abstractParts, functionType, shownAll_callParts, ← String.toList_inj]

/-- The four types of a conditional type stand between the words for them. -/
theorem shown_conditionalType (c e a b : Sketch) :
    (conditionalType c e a b).shown = c.shown ++ " extends " ++ e.shown ++ " ? " ++ a.shown ++ " : " ++ b.shown := by
  simp [conditionalType, ← String.toList_inj]

theorem shown_lookupType (t k : Sketch) : (lookupType t k).shown = t.shown ++ "[" ++ k.shown ++ "]" := by
  simp [lookupType, ← String.toList_inj]

theorem shown_typeQuery (a : Sketch) : (typeQuery a).shown = "typeof " ++ a.shown := by
  simp [typeQuery, ← String.toList_inj]

theorem shown_typePredicate (x t : Sketch) : (typePredicate x t).shown = x.shown ++ " is " ++ t.shown := by
  simp [typePredicate, ← String.toList_inj]

theorem shown_asserts (x : Sketch) : (asserts x).shown = "asserts " ++ x.shown := by
  simp [asserts, ← String.toList_inj]

theorem shown_literalType (l : Sketch) : (literalType l).shown = l.shown := by
  simp [literalType]

theorem shown_parenthesizedType (t : Sketch) : (parenthesizedType t).shown = "(" ++ t.shown ++ ")" := by
  simp [parenthesizedType, ← String.toList_inj]

theorem shown_keyOfType (t : Sketch) : (keyOfType t).shown = "keyof " ++ t.shown := by
  simp [keyOfType, ← String.toList_inj]

theorem shown_readonlyType (t : Sketch) : (readonlyType t).shown = "readonly " ++ t.shown := by
  simp [readonlyType, ← String.toList_inj]

theorem shown_inferType (w : String) : (inferType w).shown = "infer " ++ w := by
  simp [inferType, typeIdentifier, ← String.toList_inj]

theorem shown_inferBoundedType (w : String) (t : Sketch) :
    (inferBoundedType w t).shown = "infer " ++ w ++ " extends " ++ t.shown := by
  simp [inferBoundedType, typeIdentifier, ← String.toList_inj]

/-- The members of an object type are shown between braces. -/
theorem shown_objectType (ms : List Sketch) : (objectType ms).shown = Signature.braced (ms.map shown) := by
  cases ms with
  | nil => simp [objectType, Signature.braced]
  | cons m ms => simp [objectType, Signature.braced, ← String.toList_inj]

theorem shown_clause (kind mark : String) (t : Sketch) : (clause kind mark t).shown = mark ++ " " ++ t.shown := by
  simp [clause, String.append_assoc]

theorem shown_ascription (t : Sketch) : (ascription t).shown = ": " ++ t.shown := shown_clause _ _ t

theorem shown_optionalType (t : Sketch) : (optionalType t).shown = t.shown ++ "?" := by
  simp [optionalType]

theorem shown_restType (t : Sketch) : (restType t).shown = "..." ++ t.shown := by
  simp [restType]

/-- A named element is shown with its name, the mark of what is optional, and its type. -/
theorem shown_namedElement (field : String) (isOptional : Bool) (w : String) (t : Sketch) :
    (namedElement field isOptional w t).shown = w ++ (if isOptional then "?" else "") ++ ": " ++ t.shown := by
  cases isOptional <;>
    simp [namedElement, parameterKind, optionalParts, identifier, shown_ascription, ← String.toList_inj]

theorem shown_restParameter (w : String) (t : Sketch) : (restParameter w t).shown = "..." ++ w ++ ": " ++ t.shown := by
  simp [restParameter, identifier, shown_ascription, ← String.toList_inj]

/-- A type parameter is shown with its bound and its default, as far as it has them. -/
theorem shown_typeParameter (w : String) (b d : Option Sketch) :
    (typeParameter w b d).shown =
      w ++ (b.elim "" fun t => " extends " ++ t.shown) ++ (d.elim "" fun t => " = " ++ t.shown) := by
  cases b <;> cases d <;> simp [typeParameter, clauseParts, shown_clause, typeIdentifier, ← String.toList_inj]

/-- A property is shown with the word for what cannot be written to, its name and its type. -/
theorem shown_propertySignature (isReadonly isOptional : Bool) (w : String) (t : Sketch) :
    (propertySignature isReadonly isOptional w t).shown =
      (if isReadonly then "readonly " else "") ++ w ++ (if isOptional then "?" else "") ++ ": " ++ t.shown := by
  cases isReadonly <;> cases isOptional <;>
    simp [propertySignature, readonlyParts, optionalParts, propertyIdentifier, shown_ascription, ← String.toList_inj]

/-- A call signature is shown with its parameters and, behind the colon, its result. -/
theorem shown_callSignature (ts ps : List Sketch) (r : Sketch) :
    (callSignature ts ps r).shown =
      Signature.typeParameterList (ts.map shown) ++ "(" ++ Text.joinWith ", " (ps.map shown) ++ "): " ++ r.shown := by
  simp [callSignature, shownAll_callParts, shown_ascription, ← String.toList_inj]

theorem shown_methodSignature (isOptional : Bool) (w : String) (ts ps : List Sketch) (r : Sketch) :
    (methodSignature isOptional w ts ps r).shown =
      w ++ (if isOptional then "?" else "") ++ (callSignature ts ps r).shown := by
  cases isOptional <;>
    simp [methodSignature, callSignature, optionalParts, propertyIdentifier, shownAll_callParts, ← String.toList_inj]

/-- What is made is shown as `any`, whatever is written. -/
theorem shown_constructSignature (ts ps : List Sketch) (r : Sketch) :
    (constructSignature ts ps r).shown =
      "new " ++ Signature.typeParameterList (ts.map shown) ++ "(" ++ Text.joinWith ", " (ps.map shown) ++ "): " ++
        "any" := by
  simp [constructSignature, shownAll_callParts, ← String.toList_inj]

/-- An index signature is shown with the key and its type in brackets. -/
theorem shown_indexSignature (w : String) (k t : Sketch) :
    (indexSignature w k t).shown = "[" ++ w ++ ": " ++ k.shown ++ "]: " ++ t.shown := by
  simp [indexSignature, identifier, shown_ascription, ← String.toList_inj]

end Sketch

/-!
### Names
-/

theorem IsWord.append {v w : String} (left : IsWord v) (right : IsWord w) : IsWord (v ++ w) := by
  refine ⟨by simp [left.1], fun c mem => ?_⟩
  rw [String.toList_append, List.mem_append] at mem
  rcases mem with mem | mem
  · exact left.2 c mem
  · exact right.2 c mem

/-- Two words and a dot between them are a word. -/
theorem IsWord.dotted {v w : String} (left : IsWord v) (right : IsWord w) : IsWord (v ++ "." ++ w) :=
  (left.append (by decide)).append right

theorem Path.isWord {a : Sketch} (path : Path a) : IsWord a.text := by
  induction path with
  | identifier word => simpa [Sketch.identifier] using word
  | member _ word owner =>
      have dotted := owner.dotted word
      simpa [Sketch.memberOf, Sketch.propertyIdentifier, String.append_assoc] using dotted

theorem Path.shown {a : Sketch} (path : Path a) : a.shown = a.text := by
  induction path with
  | identifier _ => simp [Sketch.identifier]
  | member _ _ owner => simp [Sketch.memberOf, Sketch.propertyIdentifier, owner]

theorem TypeName.isWord {s : Sketch} (name : TypeName s) : IsWord s.text := by
  cases name with
  | simple word => simpa [Sketch.typeIdentifier] using word
  | qualified owner word =>
      have dotted := owner.dotted word
      simpa [Sketch.qualifiedType, Sketch.identifier, Sketch.typeIdentifier, String.append_assoc] using dotted
  | nested outer owner word =>
      have dotted := (outer.isWord.dotted owner).dotted word
      simpa [Sketch.qualifiedType, Sketch.memberOf, Sketch.propertyIdentifier, Sketch.typeIdentifier,
        String.append_assoc] using dotted

theorem TypeName.shown {s : Sketch} (name : TypeName s) : s.shown = s.text := by
  cases name with
  | simple _ => simp [Sketch.typeIdentifier]
  | qualified _ _ => simp [Sketch.qualifiedType, Sketch.identifier, Sketch.typeIdentifier]
  | nested outer _ _ =>
      simp [Sketch.qualifiedType, Sketch.memberOf, Sketch.propertyIdentifier, Sketch.typeIdentifier, outer.shown]

theorem Subject.text_ne {x : Sketch} (subject : Subject x) : x.text ≠ "" := by
  cases subject with
  | identifier word => simpa [Sketch.identifier] using word.1
  | self => simp [Sketch.self]

/-- What a predicate is about is shown as it is written. -/
theorem Subject.shown {x : Sketch} (subject : Subject x) : x.shown = x.text := by
  cases subject with
  | identifier _ => simp [Sketch.identifier]
  | self => simp [Sketch.self]

theorem Literal.isNamed {l : Sketch} (literal : Literal l) : l.isNamed = true := by
  cases literal <;> rfl

theorem Literal.shown {l : Sketch} (literal : Literal l) : l.shown = l.text := by
  cases literal with
  | number _ => simp
  | negative _ => simp [Sketch.negative]
  | constant _ => simp
  | @string pieces _ =>
      have inner : ∀ pieces : List (String × String),
          Sketch.shownAll "string" (pieces.map fun p => .child none (.leaf p.1 true p.2)) =
            Sketch.textAll (pieces.map fun p => .child none (.leaf p.1 true p.2)) := by
        intro pieces
        induction pieces with
        | nil => simp
        | cons p ps ih => simp [ih]
      simp [Sketch.string, inner]

/-- A literal is a text between double quotes or a word. -/
theorem Literal.text_cases {l : Sketch} (literal : Literal l) :
    (l.kind = "string" ∧ ∃ t, l.text = "\"" ++ t ++ "\"") ∨ (l.kind ≠ "string" ∧ IsWord l.text) := by
  cases literal with
  | number word => exact .inr ⟨by simp, by simpa using word⟩
  | @negative w word =>
      have negative : IsWord ("-" ++ w) := IsWord.append (by decide) word
      exact .inr ⟨by simp [Sketch.negative], by simpa [Sketch.negative] using negative⟩
  | @constant w known =>
      have constants : ∀ w ∈ ["true", "false", "null", "undefined"], w ≠ "string" ∧ IsWord w := by decide
      simpa using .inr (constants w known)
  | string _ => exact .inl ⟨rfl, _, by simp [Sketch.string, String.append_assoc]; rfl⟩

theorem Literal.text_ne {l : Sketch} (literal : Literal l) : l.text ≠ "" := by
  rcases literal.text_cases with ⟨_, t, quoted⟩ | ⟨_, word⟩
  · simp [quoted]
  · exact word.1

end Outline
