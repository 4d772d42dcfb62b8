import Mathlib.Data.List.Infix
import ColorResolution.Fetch.Basic
import ColorResolution.Proofs.Functional.LetterCase

/-!
# Schemes

The scheme of a URL is what stands before its first `://`. The names of schemes are read in letters of either case, and
a URL without the mark has no scheme. Main statement: which route a URL takes.
-/
namespace ColorResolution.Url

/-- The mark behind a scheme. -/
def mark : List Char := [':', '/', '/']

/-- The mark stands somewhere in the URL. -/
def Marked (url : String) : Prop := mark <:+: url.toList

/-- The scheme stands before the first mark of the URL. -/
structure HasScheme (url scheme : List Char) : Prop where
  marked : scheme ++ mark <+: url
  first : ∀ other, other ++ mark <+: url → scheme.length ≤ other.length

/-- The URL's scheme has this name, in letters of either case. -/
def Of (name url : String) : Prop := ∃ scheme, HasScheme url.toList scheme ∧ scheme.map Char.toLower = name.toList

/-- The names of the schemes that are fetched. -/
def names : List String := ["http", "https", "file"]

/-! ## The first mark -/

section
variable {url scheme : List Char} {c : Char}

theorem HasScheme.infix (has : HasScheme url scheme) : mark <:+: url :=
  (List.suffix_append scheme mark).isInfix.trans has.marked.isInfix

theorem hasScheme_cons_iff (unmarked : ¬ mark <+: c :: url) :
    HasScheme (c :: url) scheme ↔ ∃ rest, scheme = c :: rest ∧ HasScheme url rest := by
  constructor
  · rintro ⟨marked, first⟩
    cases scheme with
    | nil => exact absurd marked unmarked
    | cons d rest =>
      obtain ⟨rfl, behind⟩ := List.cons_prefix_cons.mp marked
      refine ⟨rest, rfl, behind, fun other before => ?_⟩
      exact Nat.le_of_succ_le_succ (first (d :: other) (List.cons_prefix_cons.mpr ⟨rfl, before⟩))
  · rintro ⟨rest, rfl, marked, first⟩
    refine ⟨List.cons_prefix_cons.mpr ⟨rfl, marked⟩, fun other before => ?_⟩
    cases other with
    | nil => exact absurd before unmarked
    | cons d other => exact Nat.succ_le_succ (first other (List.cons_prefix_cons.mp before).2)

theorem scheme?_mark (rest : List Char) : Route.scheme? (mark ++ rest) = some [] := rfl

theorem scheme?_cons (unmarked : ¬ mark <+: c :: url) :
    Route.scheme? (c :: url) = (Route.scheme? url).map (c :: ·) := by
  rw [Route.scheme?]
  rintro rest rfl rfl
  exact unmarked ⟨rest, rfl⟩

theorem scheme?_eq_some_iff : Route.scheme? url = some scheme ↔ HasScheme url scheme := by
  induction url generalizing scheme with
  | nil =>
    refine iff_of_false (by simp [Route.scheme?]) fun has => ?_
    simpa [mark] using has.marked
  | cons c url ih =>
    by_cases marked : mark <+: c :: url
    · obtain ⟨rest, same⟩ := marked
      rw [← same, scheme?_mark, Option.some.injEq]
      constructor
      · rintro rfl
        exact ⟨⟨rest, rfl⟩, fun _ _ => Nat.zero_le _⟩
      · intro has
        have none := has.first [] ⟨rest, rfl⟩
        exact (List.eq_nil_of_length_eq_zero (Nat.le_zero.mp none)).symm
    · rw [scheme?_cons marked, hasScheme_cons_iff marked, Option.map_eq_some_iff]
      simp only [ih]
      constructor
      · rintro ⟨rest, has, rfl⟩
        exact ⟨rest, rfl, has⟩
      · rintro ⟨rest, rfl, has⟩
        exact ⟨rest, has, rfl⟩

theorem scheme?_eq_none_iff : Route.scheme? url = none ↔ ¬ mark <:+: url := by
  induction url with
  | nil => simp [Route.scheme?, mark]
  | cons c url ih =>
    rw [List.infix_cons_iff, not_or]
    by_cases marked : mark <+: c :: url
    · obtain ⟨rest, same⟩ := marked
      rw [← same, scheme?_mark]
      simp
    · rw [scheme?_cons marked, Option.map_eq_none_iff, ih]
      exact (and_iff_right marked).symm

theorem HasScheme.unique {other : List Char} (has : HasScheme url scheme) (again : HasScheme url other) :
    scheme = other :=
  Option.some.inj ((scheme?_eq_some_iff.mpr has).symm.trans (scheme?_eq_some_iff.mpr again))

end

/-! ## Names -/

section
variable {url name : String} {scheme : List Char}

theorem of_iff (has : HasScheme url.toList scheme) : Of name url ↔ String.ofList (scheme.map Char.toLower) = name := by
  constructor
  · rintro ⟨other, again, named⟩
    rw [has.unique again, named, String.ofList_toList]
  · rintro rfl
    exact ⟨scheme, has, String.toList_ofList.symm⟩

theorem Of.marked (named : Of name url) : Marked url := by
  obtain ⟨scheme, has, _⟩ := named
  exact has.infix

theorem Of.unique {other : String} (named : Of name url) (again : Of other url) : name = other := by
  obtain ⟨scheme, has, _⟩ := id named
  exact ((of_iff has).mp named).symm.trans ((of_iff has).mp again)

theorem map_toLower_eq_mark_iff {cs : List Char} : cs.map Char.toLower = mark ↔ cs = mark := by
  constructor
  · intro lowered
    obtain ⟨colon, _, rfl, isColon, rest⟩ := List.map_eq_cons_iff.mp lowered
    obtain ⟨slash, _, rfl, isSlash, rest⟩ := List.map_eq_cons_iff.mp rest
    obtain ⟨again, _, rfl, isAgain, rest⟩ := List.map_eq_cons_iff.mp rest
    rw [Text.toLower_eq_iff rfl] at isColon isSlash isAgain
    rw [isColon, isSlash, isAgain, List.map_eq_nil_iff.mp rest, mark]
  · rintro rfl
    rfl

/-- A URL is of a scheme if it begins with the scheme's name and the mark, in letters of either case. -/
theorem of_iff_prefix (plain : ':' ∉ name.toList) :
    Of name url ↔ name.toList ++ mark <+: url.toList.map Char.toLower := by
  constructor
  · rintro ⟨scheme, ⟨⟨rest, split⟩, _⟩, named⟩
    refine ⟨rest.map Char.toLower, ?_⟩
    rw [← split, List.map_append, List.map_append, named, map_toLower_eq_mark_iff.mpr rfl]
  · rintro ⟨rest, split⟩
    obtain ⟨front, _, whole, front_eq, _⟩ := List.append_eq_map_iff.mp split
    obtain ⟨scheme, marks, rfl, named, lowered⟩ := List.map_eq_append_iff.mp front_eq
    obtain rfl := map_toLower_eq_mark_iff.mp lowered
    refine ⟨scheme, ⟨⟨_, whole.symm⟩, fun other before => ?_⟩, named⟩
    -- a mark before the end of the scheme would bring its colon into the name
    by_contra shorter
    have early : other ++ [':'] <+: url.toList :=
      (List.prefix_append (other ++ [':']) ['/', '/']).trans (by simpa [mark] using before)
    have inside : other ++ [':'] <+: scheme := by
      apply List.prefix_of_prefix_length_le early ⟨mark ++ _, by rw [whole, List.append_assoc]⟩
      simpa using Nat.lt_of_not_le shorter
    have colon : ':' ∈ scheme := inside.subset (by simp)
    exact plain (named ▸ List.mem_map_of_mem (f := Char.toLower) colon)

end

/-! ## Routes -/

/-- The path of a URL: what follows the scheme of files and its mark, or the whole of a URL without the mark. -/
inductive PathOf (url : String) : String → Prop
  | bare : ¬ Marked url → PathOf url url
  | behind : Of "file" url → PathOf url (String.ofList (url.toList.drop 7))

/-- The route that a URL takes. -/
inductive Takes (url : String) : Route → Prop
  | web : Of "http" url ∨ Of "https" url → Takes url .web
  | file {path : String} : PathOf url path → Takes url (.file path)
  | unsupported : Marked url → (∀ name ∈ names, ¬ Of name url) → Takes url .unsupported

section
variable {url path : String}

theorem takes_ofUrl (url : String) : Takes url (Route.ofUrl url) := by
  unfold Route.ofUrl
  split
  next none => exact .file (.bare (scheme?_eq_none_iff.mp none))
  next scheme found =>
    have has := scheme?_eq_some_iff.mp found
    split
    next http => exact .web (.inl ((of_iff has).mpr http))
    next https => exact .web (.inr ((of_iff has).mpr https))
    next file => exact .file (.behind ((of_iff has).mpr file))
    next http https file => exact .unsupported has.infix (by simpa [names, of_iff has] using ⟨http, https, file⟩)

/-- A URL with a path is not of the web. -/
theorem PathOf.notWeb (isPath : PathOf url path) : ¬ Of "http" url ∧ ¬ Of "https" url := by
  cases isPath with
  | bare unmarked => exact ⟨fun http => unmarked http.marked, fun https => unmarked https.marked⟩
  | behind file =>
    exact ⟨fun http => absurd (http.unique file) (by decide), fun https => absurd (https.unique file) (by decide)⟩

theorem PathOf.unique {other : String} (isPath : PathOf url path) (again : PathOf url other) : path = other := by
  cases isPath with
  | bare unmarked =>
    cases again with
    | bare => rfl
    | behind file => exact absurd file.marked unmarked
  | behind file =>
    cases again with
    | bare unmarked => exact absurd file.marked unmarked
    | behind => rfl

theorem exists_path_iff : (∃ path, PathOf url path) ↔ ¬ Marked url ∨ Of "file" url := by
  constructor
  · rintro ⟨path, isPath⟩
    cases isPath with
    | bare unmarked => exact .inl unmarked
    | behind file => exact .inr file
  · rintro (unmarked | file)
    · exact ⟨_, .bare unmarked⟩
    · exact ⟨_, .behind file⟩

theorem Takes.unique {route other : Route} (takes : Takes url route) (again : Takes url other) : route = other := by
  -- a URL that has the mark and none of the names is neither of the web nor has it a path
  have notWeb (foreign : ∀ name ∈ names, ¬ Of name url) : ¬ (Of "http" url ∨ Of "https" url) :=
    not_or.mpr ⟨foreign "http" (by simp [names]), foreign "https" (by simp [names])⟩
  have noPath (marked : Marked url) (foreign : ∀ name ∈ names, ¬ Of name url) {path : String} : ¬ PathOf url path :=
    fun isPath => (exists_path_iff.mp ⟨path, isPath⟩).elim (absurd marked) (foreign "file" (by simp [names]))
  cases takes with
  | web web =>
    cases again with
    | web => rfl
    | file isPath => exact absurd web (not_or.mpr isPath.notWeb)
    | unsupported _ foreign => exact absurd web (notWeb foreign)
  | file isPath =>
    cases again with
    | web web => exact absurd web (not_or.mpr isPath.notWeb)
    | file again => rw [isPath.unique again]
    | unsupported marked foreign => exact absurd isPath (noPath marked foreign)
  | unsupported marked foreign =>
    cases again with
    | web web => exact absurd web (notWeb foreign)
    | file isPath => exact absurd isPath (noPath marked foreign)
    | unsupported => rfl

/-- The route of a URL is the one that its scheme calls for. -/
theorem ofUrl_eq_iff {route : Route} : Route.ofUrl url = route ↔ Takes url route := by
  constructor
  · rintro rfl
    exact takes_ofUrl url
  · exact (takes_ofUrl url).unique

end

/-! ## Fetches -/

section
variable {config : FetchConfig} {transport : Transport} {files : FileSystem} {url path : String}

theorem fetch_of_web (web : Of "http" url ∨ Of "https" url) : fetch config transport files url = transport url := by
  rw [fetch, ofUrl_eq_iff.mpr (.web web)]

theorem fetch_of_path (isPath : PathOf url path) :
    fetch config transport files url =
      if config.allowFiles then (readFileText files path).mapError (.io url) else .error (.forbidden url) := by
  rw [fetch, ofUrl_eq_iff.mpr (.file isPath)]

theorem fetch_of_foreign (marked : Marked url) (foreign : ∀ name ∈ names, ¬ Of name url) :
    fetch config transport files url = .error (.unsupportedScheme url) := by
  rw [fetch, ofUrl_eq_iff.mpr (.unsupported marked foreign)]

end

end ColorResolution.Url
