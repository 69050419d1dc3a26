/-
Module: Outline.Proofs.Specifier.Rewriting
Layer: Proofs
Purpose: What an alias table does to a specifier. Whether a pattern applies is asked in two places, by the test for
  packages and by the rewriting itself; both ask for what is said here of the texts alone, so that a specifier is a
  package exactly if it is no path and no alias rewrites it, and else the first alias that applies decides.
Main exports: LeadsTo, redirectBy?_eq_some_iff, isSome_redirectBy?, redirect?_eq_none_iff, redirect?_eq_some_iff,
  isExternal_iff, isExternal_of_applies, resolveInternal_append, LeadsInside, resolve_agrees
-/
import Outline.Proofs.Text.Split
import Outline.Specifier.Resolver

namespace Outline.Specifier

/-!
### One alias
-/

/-- The path of `rest` below a directory. The project root, empty or written as a dot, is left out of paths. -/
def pathBelow (directory rest : String) : String :=
  if directory = "" ∨ directory = "." then rest else directory ++ "/" ++ rest

/-- One alias, a pattern and its target, leads a specifier to a path. -/
inductive LeadsTo : String → String → String → String → Prop where
  /-- A pattern that ends in `/*` leads what is below its stem to the same place below the directory of its target. -/
  | below {stem target rest : String} :
      LeadsTo (stem ++ "/*") target (stem ++ "/" ++ rest) (pathBelow (targetDirectory target) rest)
  /-- Any other pattern leads itself to its target. -/
  | itself {pattern target : String} (plain : Text.endsWith pattern "/*" = false) :
      LeadsTo pattern target pattern (plainTarget target)

variable {pattern target spec path : String}

/-- A pattern that ends in `/*` rewrites what begins with its stem. -/
theorem redirectBy?_glob (stem target spec : String) : redirectBy? (stem ++ "/*") target spec =
    if Text.startsWith spec (stem ++ "/") then
      some (pathBelow (targetDirectory target) (Text.dropFirst (stem ++ "/").toList.length spec))
    else none := by
  have glob : Text.endsWith (stem ++ "/*") "/*" = true := Text.endsWith_iff_exists.2 ⟨stem, rfl⟩
  have cut : Text.dropLast 2 (stem ++ "/*") = stem := Text.dropLast_append stem "/*"
  simp only [redirectBy?, if_pos glob, cut, pathBelow, Bool.or_eq_true, decide_eq_true_iff]

/-- An alias without a star redirects the specifier that it is. -/
theorem redirectBy?_plain (plain : Text.endsWith pattern "/*" = false) (target spec : String) :
    redirectBy? pattern target spec = if spec = pattern then some (plainTarget target) else none := by
  simp only [redirectBy?, plain, Bool.false_eq_true, if_false]

/-- An alias with a star matches what starts with its stem and a slash. -/
theorem aliasMatches_glob (stem spec : String) :
    aliasMatches (stem ++ "/*") spec = Text.startsWith spec (stem ++ "/") := by
  have glob : Text.endsWith (stem ++ "/*") "/*" = true := Text.endsWith_iff_exists.2 ⟨stem, rfl⟩
  have cut : Text.dropLast 2 (stem ++ "/*") = stem := Text.dropLast_append stem "/*"
  rw [aliasMatches, if_pos glob, cut]

theorem aliasMatches_plain (plain : Text.endsWith pattern "/*" = false) (spec : String) :
    aliasMatches pattern spec = (spec == pattern) := by
  simp only [aliasMatches, plain, Bool.false_eq_true, if_false]

/-- A pattern ends in `/*` behind some stem, or does not. -/
theorem pattern_cases (pattern : String) :
    (∃ stem, pattern = stem ++ "/*") ∨ Text.endsWith pattern "/*" = false := by
  cases ending : Text.endsWith pattern "/*" with
  | true => exact .inl (Text.endsWith_iff_exists.1 ending)
  | false => exact .inr rfl

/-- The rewriting finds the path to which an alias leads. -/
theorem redirectBy?_eq_some_iff : redirectBy? pattern target spec = some path ↔ LeadsTo pattern target spec path := by
  constructor
  · intro found
    rcases pattern_cases pattern with ⟨stem, rfl⟩ | plain
    · rw [redirectBy?_glob] at found
      split at found
      next begins =>
        obtain ⟨rest, rfl⟩ := Text.startsWith_iff_exists.1 begins
        rw [Text.dropFirst_append] at found
        obtain rfl := Option.some.inj found
        exact .below
      next => cases found
    · rw [redirectBy?_plain plain] at found
      split at found
      next same =>
        obtain rfl := Option.some.inj found
        rw [same]
        exact .itself plain
      next => cases found
  · intro leads
    cases leads with
    | @below stem target rest =>
        have begins : Text.startsWith (stem ++ "/" ++ rest) (stem ++ "/") = true :=
          Text.startsWith_iff_exists.2 ⟨rest, rfl⟩
        rw [redirectBy?_glob, if_pos begins, Text.dropFirst_append]
    | itself plain => rw [redirectBy?_plain plain, if_pos rfl]

/-- The test for a match is whether the rewriting finds a path. -/
theorem isSome_redirectBy? (pattern target spec : String) :
    (redirectBy? pattern target spec).isSome = aliasMatches pattern spec := by
  rcases pattern_cases pattern with ⟨stem, rfl⟩ | plain
  · rw [redirectBy?_glob, aliasMatches_glob]
    split
    next begins => rw [begins]; rfl
    next other => rw [Bool.eq_false_iff.2 other]; rfl
  · rw [redirectBy?_plain plain, aliasMatches_plain plain]
    split
    next same => rw [same, beq_self_eq_true]; rfl
    next other => rw [beq_eq_false_iff_ne.2 other]; rfl

/-!
### Tables
-/

variable {aliases : Aliases}

/-- An alias redirects what it matches and nothing else. -/
theorem redirectBy?_eq_none_iff : redirectBy? pattern target spec = none ↔ aliasMatches pattern spec = false := by
  rw [← isSome_redirectBy? pattern target, Option.isSome_eq_false_iff, Option.isNone_iff_eq_none]

/-- Nothing is rewritten if and only if no alias applies. -/
theorem redirect?_eq_none_iff : redirect? aliases spec = none ↔ ∀ a ∈ aliases, aliasMatches a.1 spec = false := by
  rw [redirect?, List.findSome?_eq_none_iff]
  simp only [redirectBy?_eq_none_iff]

/-- The first alias of the table that applies leads to the path. -/
theorem redirect?_eq_some_iff : redirect? aliases spec = some path ↔
    ∃ before pattern target after, aliases = before ++ (pattern, target) :: after ∧
      (∀ a ∈ before, aliasMatches a.1 spec = false) ∧ LeadsTo pattern target spec path := by
  rw [redirect?, List.findSome?_eq_some_iff]
  simp only [Prod.exists, redirectBy?_eq_some_iff, redirectBy?_eq_none_iff]
  constructor
  · rintro ⟨before, pattern, target, after, parts, leads, others⟩
    exact ⟨before, pattern, target, after, parts, others, leads⟩
  · rintro ⟨before, pattern, target, after, parts, others, leads⟩
    exact ⟨before, pattern, target, after, parts, leads, others⟩

/-- Of two tables one after the other the first that redirects counts. -/
theorem redirect?_append (aliases more : Aliases) (spec : String) :
    redirect? (aliases ++ more) spec = (redirect? aliases spec).or (redirect? more spec) :=
  List.findSome?_append

/-- A specifier is rewritten if some alias applies. -/
theorem exists_redirect? (applies : ∃ a ∈ aliases, aliasMatches a.1 spec = true) :
    ∃ path, redirect? aliases spec = some path := by
  rw [← Option.ne_none_iff_exists', ne_eq, redirect?_eq_none_iff]
  intro none
  obtain ⟨a, mem, found⟩ := applies
  rw [none a mem] at found
  cases found

/-- A package is what begins neither with a dot nor with a slash and is not rewritten. -/
theorem isExternal_iff : isExternal aliases spec = true ↔
    Text.startsWith spec "." = false ∧ Text.startsWith spec "/" = false ∧ redirect? aliases spec = none := by
  rw [redirect?_eq_none_iff]
  simp only [isExternal, Bool.and_eq_true, Bool.not_eq_true', Bool.or_eq_false_iff, List.any_eq_false,
    Bool.not_eq_true, and_assoc]

/-- What an alias applies to is no package. -/
theorem isExternal_of_applies (applies : ∃ a ∈ aliases, aliasMatches a.1 spec = true) :
    isExternal aliases spec = false := by
  rw [Bool.eq_false_iff]
  intro package
  obtain ⟨path, found⟩ := exists_redirect? applies
  rw [(isExternal_iff.1 package).2.2] at found
  cases found

/-- Aliases behind one that applies are not looked at. -/
theorem resolveInternal_append (applies : ∃ a ∈ aliases, aliasMatches a.1 spec = true) (more : Aliases)
    (file : String) : resolveInternal (aliases ++ more) file spec = resolveInternal aliases file spec := by
  obtain ⟨path, found⟩ := exists_redirect? applies
  simp only [resolveInternal, redirect?_append, found, Option.some_or]

/-- The path of the project that a specifier in a file stands for. -/
inductive LeadsInside (aliases : Aliases) (file spec : String) : String → Prop where
  /-- The first alias that applies decides. -/
  | alias {before after : Aliases} {pattern target path : String}
      (table : aliases = before ++ (pattern, target) :: after)
      (others : ∀ a ∈ before, aliasMatches a.1 spec = false) (applies : aliasMatches pattern spec = true)
      (leads : LeadsTo pattern target spec path) : LeadsInside aliases file spec path
  /-- Without one, what begins with a dot is relative to the file. -/
  | relative (none : ∀ a ∈ aliases, aliasMatches a.1 spec = false) (dot : Text.startsWith spec "." = true) :
      LeadsInside aliases file spec (resolveRelative file spec)
  /-- Anything else is a path already. -/
  | path (none : ∀ a ∈ aliases, aliasMatches a.1 spec = false) (noDot : Text.startsWith spec "." = false) :
      LeadsInside aliases file spec spec

/-- A specifier that is resolved inside leads where the aliases and the file say. -/
theorem resolveInternal_leads (aliases : Aliases) (file spec : String) :
    LeadsInside aliases file spec (resolveInternal aliases file spec) := by
  cases found : redirect? aliases spec with
  | some path =>
      obtain ⟨before, pattern, target, after, table, others, leads⟩ := redirect?_eq_some_iff.1 found
      have applies : aliasMatches pattern spec = true := by
        rw [← isSome_redirectBy? pattern target, redirectBy?_eq_some_iff.2 leads]
        rfl
      simp only [resolveInternal, found]
      exact .alias table others applies leads
  | none =>
      have none := redirect?_eq_none_iff.1 found
      simp only [resolveInternal, found]
      split
      next dot => exact .relative none dot
      next noDot => exact .path none (Bool.eq_false_iff.2 noDot)

/-- The test for packages and the rewriting agree. A specifier is external exactly if it begins neither with a dot nor
    with a slash and is not rewritten, and is then its own source; else the source is what the first alias that applies
    says, or the relative path, or the specifier. So what an alias applies to is never external, what is internal and
    no path is rewritten, and aliases put behind one that applies change nothing. -/
theorem resolve_agrees (r : Resolver) (file spec : String) :
    let resolved := r.resolve file spec
    (resolved.isExternal = true ↔
        Text.startsWith spec "." = false ∧ Text.startsWith spec "/" = false ∧ redirect? r.aliases spec = none) ∧
      (resolved.isExternal = true → resolved.source = spec) ∧
      (resolved.isExternal = false → LeadsInside r.aliases file spec resolved.source) ∧
      (∀ a ∈ r.aliases, aliasMatches a.1 spec = true → resolved.isExternal = false) ∧
      (Text.startsWith spec "." = false → Text.startsWith spec "/" = false → resolved.isExternal = false →
        redirect? r.aliases spec = some resolved.source) ∧
      ∀ more, (∃ a ∈ r.aliases, aliasMatches a.1 spec = true) →
        ({ r with aliases := r.aliases ++ more } : Resolver).resolve file spec = resolved := by
  intro resolved
  have external : resolved.isExternal = isExternal r.aliases spec := rfl
  have inside : resolved.isExternal = false → resolved.source = resolveInternal r.aliases file spec := by
    intro no
    rw [external] at no
    exact if_neg (Bool.eq_false_iff.1 no)
  refine ⟨isExternal_iff, fun package => if_pos package, ?_, ?_, ?_, ?_⟩
  · intro no
    rw [inside no]
    exact resolveInternal_leads r.aliases file spec
  · exact fun a mem applies => isExternal_of_applies ⟨a, mem, applies⟩
  · intro noDot noSlash no
    cases found : redirect? r.aliases spec with
    | some path =>
        rw [inside no, resolveInternal, found]
    | none =>
        rw [external, isExternal_iff.2 ⟨noDot, noSlash, found⟩] at no
        cases no
  · intro more applies
    have still : isExternal (r.aliases ++ more) spec = false := by
      obtain ⟨a, mem, matched⟩ := applies
      exact isExternal_of_applies ⟨a, List.mem_append_left more mem, matched⟩
    simp only [resolved, Resolver.resolve, still, isExternal_of_applies applies,
      resolveInternal_append applies more file]

end Outline.Specifier
