/-
Module: Outline.Proofs.Specifier.Confirmed
Layer: Proofs
Purpose: What a probe is asked for, and what its answers make of a specifier. The paths tried for a best guess are
  said on the guess alone; the search takes the first that is confirmed and asks for nothing behind it. What is made
  of a specifier is the same in every list of specifiers, and so are the paths asked for because of it.
Main exports: EndsInExtension, hasExtension_iff, Tried, FirstFound, Settled, tableProbing_settled
-/
import Mathlib.Data.List.TakeWhile
import Outline.Proofs.Specifier.Tables

namespace Outline

namespace Specifier

/-!
### Paths that are tried
-/

/-- The path ends in a dot and something behind it that holds neither a slash nor a dot. -/
def EndsInExtension (path : String) : Prop :=
  ∃ stem ending : List Char, path.toList = stem ++ '.' :: ending ∧ ending ≠ [] ∧ ∀ c ∈ ending, c ≠ '/' ∧ c ≠ '.'

/-- Neither a slash nor a dot. -/
def isEnding (c : Char) : Bool := c ≠ '/' && c ≠ '.'

/-- Going backwards, the ending is what comes before the first slash or dot. -/
theorem hasExtension_iff {path : String} : hasExtension path = true ↔ EndsInExtension path := by
  have eq : hasExtension path = (!(path.toList.reverse.takeWhile isEnding).isEmpty &&
      (path.toList.reverse.dropWhile isEnding).head? == some '.') := rfl
  rw [eq, Bool.and_eq_true, beq_iff_eq, Bool.not_eq_true', List.isEmpty_eq_false_iff]
  constructor
  · rintro ⟨ending, dot⟩
    obtain ⟨stem, rest⟩ := List.head?_eq_some_iff.1 dot
    refine ⟨stem.reverse, (path.toList.reverse.takeWhile isEnding).reverse, ?_, by simpa using ending, ?_⟩
    · have parts := List.takeWhile_append_dropWhile (p := isEnding) (l := path.toList.reverse)
      rw [rest] at parts
      have back := congrArg List.reverse parts
      simpa using back.symm
    · intro c mem
      have kept := List.mem_takeWhile_imp (List.mem_reverse.1 mem)
      simpa [isEnding] using kept
  · rintro ⟨stem, ending, whole, something, solid⟩
    have all : ∀ c ∈ ending.reverse, isEnding c = true := fun c mem => by
      simpa [isEnding] using solid c (List.mem_reverse.1 mem)
    have back : path.toList.reverse = ending.reverse ++ '.' :: stem.reverse := by simp [whole]
    rw [back, List.takeWhile_append_of_pos all, List.dropWhile_append_of_pos all]
    simp [isEnding, something]

/-- The best guess with each ending behind it, files first. The root directory is not among them. -/
def extended (options : SearchOptions) (guess : String) : List String :=
  (options.extensions.map (guess ++ ·) ++ options.indexFiles.map (guess ++ ·)).filter (· ≠ "/")

/-- The paths tried for a best guess: first the guess itself, if it ends in an extension. -/
inductive Tried (options : SearchOptions) (guess : String) : List String → Prop where
  | literal (ends : EndsInExtension guess) : Tried options guess (guess :: extended options guess)
  | bare (ends : ¬ EndsInExtension guess) : Tried options guess (extended options guess)

theorem candidates_tried (options : SearchOptions) (guess : String) :
    Tried options guess (candidates options guess) := by
  have endings : ((options.extensions ++ options.indexFiles).map (guess ++ ·)).filter (· != "/") =
      extended options guess := by
    rw [extended, List.map_append]
    congr 1
    funext path
    simp [bne, beq_eq_decide]
  rw [candidates, endings]
  by_cases ends : EndsInExtension guess
  · rw [if_pos (hasExtension_iff.2 ends)]
    exact .literal ends
  · rw [if_neg (mt hasExtension_iff.1 ends)]
    exact .bare ends

/-!
### The search
-/

/-- What a search of some paths finds, and the paths asked for: up to and including the first that the probe
    confirms, or all of them if it confirms none. -/
inductive FirstFound (probe : Probe) (paths : List String) : Option String → List String → Prop where
  | hit {before after : List String} {path : String} (parts : paths = before ++ path :: after)
      (misses : ∀ p ∈ before, probe p ≠ .found) (confirmed : probe path = .found) :
      FirstFound probe paths (some path) (before ++ [path])
  | miss (misses : ∀ p ∈ paths, probe p ≠ .found) : FirstFound probe paths none paths

/-- A path that is not confirmed is asked for, and the search goes on behind it. -/
theorem FirstFound.cons {probe : Probe} {path : String} {paths asked : List String} {found : Option String}
    (misses : probe path ≠ .found) (rest : FirstFound probe paths found asked) :
    FirstFound probe (path :: paths) found (path :: asked) := by
  cases rest with
  | hit parts earlier confirmed =>
      rw [parts]
      exact .hit rfl (List.forall_mem_cons.2 ⟨misses, earlier⟩) confirmed
  | miss earlier => exact .miss (List.forall_mem_cons.2 ⟨misses, earlier⟩)

/-- The search finds the first candidate that is confirmed, having asked about those up to it. -/
theorem firstConfirmed_firstFound {probe : Probe} (tells : ∀ path, Tells probe path) (paths : List String) :
    ∃ found asked, firstConfirmed probe paths = ⟨asked, .ok found⟩ ∧ FirstFound probe paths found asked := by
  induction paths with
  | nil => exact ⟨none, [], rfl, .miss nofun⟩
  | cons path paths ih =>
      obtain ⟨found, asked, same, rest⟩ := ih
      rw [firstConfirmed, same]
      cases answer : probe path with
      | interrupted why => exact absurd answer (tells path why)
      | found =>
          have first : path :: paths = [] ++ path :: paths := rfl
          exact ⟨some path, [path], by simp [ask, answer, Answer.confirms, bind, Inquiry.bind, pure, Inquiry.pure],
            .hit first nofun answer⟩
      | absent | failed =>
          have misses : probe path ≠ .found := by simp [answer]
          exact ⟨found, path :: asked, by simp [ask, answer, Answer.confirms, bind, Inquiry.bind], rest.cons misses⟩

/-!
### Specifiers
-/

/-- What a specifier in a file comes to with a probe, and the paths asked for on the way. A package goes by its
    specifier and nothing is asked. Anything else has its best guess, in the place of which comes the first path
    tried that is confirmed. -/
structure Settled (r : Resolver) (probe : Probe) (file spec : String) (entry : Resolved) (asked : List String) :
    Prop where
  specifier : entry.specifier = spec
  isExternal : entry.isExternal = (r.resolve file spec).isExternal
  package : entry.isExternal = true → entry.source = spec ∧ asked = []
  path : entry.isExternal = false → ∃ paths found, Tried r.options (r.resolve file spec).source paths ∧
    FirstFound probe paths found asked ∧ entry.source = found.getD (r.resolve file spec).source

/-- With a probe that tells of all paths each specifier is settled. -/
theorem resolveProbing_settled (r : Resolver) {probe : Probe} (tells : ∀ path, Tells probe path) (file spec : String) :
    ∃ entry asked, r.resolveProbing (some probe) file spec = ⟨asked, .ok entry⟩ ∧
      Settled r probe file spec entry asked := by
  unfold Resolver.resolveProbing
  cases external : isExternal r.aliases spec with
  | true =>
      exact ⟨_, [], rfl, rfl, external.symm, fun _ => ⟨rfl, rfl⟩, fun internal => absurd internal (by simp)⟩
  | false =>
      have guess : (r.resolve file spec).source = resolveInternal r.aliases file spec := by
        simp [Resolver.resolve, external]
      obtain ⟨found, asked, same, first⟩ :=
        firstConfirmed_firstFound tells (candidates r.options (resolveInternal r.aliases file spec))
      have search : searchFile r.options probe (resolveInternal r.aliases file spec) = ⟨asked, .ok found⟩ := same
      refine ⟨⟨spec, found.getD (resolveInternal r.aliases file spec), false⟩, asked, ?_, rfl, external.symm,
        fun isPackage => absurd isPackage (by simp), fun _ => ?_⟩
      · simp [search, bind, Inquiry.bind, pure, Inquiry.pure]
      · rw [guess]
        exact ⟨_, _, candidates_tried r.options _, first, rfl⟩

/-- With a probe that has an answer for every path, a confirmed table has the distinct specifiers of the list in the
    order of their first occurrences. What each of them comes to, and what is asked for because of it, is settled for
    the specifier alone, whatever else is in the list; and all that is asked for is what is asked for because of each, in
    the order of the table. -/
theorem tableProbing_settled (r : Resolver) (probe : Probe) (file : String) (tells : ∀ path, Tells probe path) :
    ∃ (entry : String → Resolved) (asked : String → List String),
      (∀ spec, Settled r probe file spec (entry spec) (asked spec)) ∧
      ∀ specs : List String, r.tableProbing (some probe) file specs =
        ⟨specs.eraseDups.flatMap asked, .ok (specs.eraseDups.map fun spec => (spec, entry spec))⟩ := by
  choose entry asked same settled using resolveProbing_settled r tells file
  refine ⟨entry, asked, settled, fun specs => ?_⟩
  rw [r.tableProbing_eq (some probe) file specs fun spec _ => congrArg Inquiry.result (same spec),
    distinct_eq_eraseDups]
  congr 1
  exact List.flatMap_congr fun spec _ => congrArg Inquiry.asked (same spec)

/-- A project in which one file can be found, and where the system cannot tell of any other path. -/
def oneFileProbe : Probe := fun path => if path = "src/b.js" then .found else .failed

theorem tells_oneFileProbe (path : String) : Tells oneFileProbe path := by
  unfold Tells oneFileProbe
  split <;> exact nofun

/-- A package is not asked for, a repeated specifier once, and the root directory not as an extended path. -/
theorem tableProbing_settled_oneFile :
    (∀ path, Tells oneFileProbe path) ∧ ∃ (entry : String → Resolved) (asked : String → List String),
      (∀ spec, Settled ⟨[("@/*", "./*")], ⟨[".ts"], ["/", "/index.ts"]⟩⟩ oneFileProbe "src/a.ts" spec (entry spec)
        (asked spec)) ∧
      ["./b.js", "react", "@/"].map entry =
        [⟨"./b.js", "src/b.js", false⟩, ⟨"react", "react", true⟩, ⟨"@/", "", false⟩] ∧
      ["./b.js", "react", "@/"].flatMap asked = ["src/b.js", ".ts", "/index.ts"] := by
  obtain ⟨entry, asked, settled, tables⟩ :=
    tableProbing_settled ⟨[("@/*", "./*")], ⟨[".ts"], ["/", "/index.ts"]⟩⟩ oneFileProbe "src/a.ts" tells_oneFileProbe
  have table := tables ["./b.js", "react", "./b.js", "@/"]
  have run : Resolver.tableProbing ⟨[("@/*", "./*")], ⟨[".ts"], ["/", "/index.ts"]⟩⟩ (some oneFileProbe) "src/a.ts"
      ["./b.js", "react", "./b.js", "@/"] =
      ⟨["src/b.js", ".ts", "/index.ts"], .ok [("./b.js", ⟨"./b.js", "src/b.js", false⟩),
        ("react", ⟨"react", "react", true⟩), ("@/", ⟨"@/", "", false⟩)]⟩ := by
    decide +kernel
  have once : ["./b.js", "react", "./b.js", "@/"].eraseDups = ["./b.js", "react", "@/"] := by decide
  rw [run, once] at table
  obtain ⟨traced, entries⟩ := Inquiry.mk.inj table
  have values := congrArg (List.map Prod.snd) (Except.ok.inj entries)
  rw [List.map_map] at values
  exact ⟨tells_oneFileProbe, entry, asked, settled, values.symm, traced.symm⟩

end Specifier

end Outline
