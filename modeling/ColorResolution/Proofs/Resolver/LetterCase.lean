import ColorResolution.Proofs.Functional.LetterCase
import ColorResolution.Proofs.Resolver.Shapes

/-!
# Letter case of colour texts

Every shape but that of design tokens is read without regard to the case of its letters. Main statement: with the names of
the palette, two texts that differ in case alone resolve to one colour, or are refused for one cause, as long as they are
no design tokens.
-/
namespace ColorResolution

/-- The causes that carry a text. -/
def ColorError.withText : List (String → ColorError) := [.invalidColor, .invalidHex, .unresolvedToken, .unknownName]

/-- One colour for both texts, or one cause that each of them carries. -/
inductive Alike (text other : String) : Except ColorError Color → Except ColorError Color → Prop
  | color (c : Color) : Alike text other (.ok c) (.ok c)
  | refused (cause : String → ColorError) : cause ∈ ColorError.withText →
    Alike text other (.error (cause text)) (.error (cause other))

section
variable {text other : String} {cs ds : List Char}

/-! ## Hexadecimal digits -/

theorem Hex.isDigit_toLower (c : Char) : isDigit c.toLower = isDigit c :=
  Text.toLower_cases (p := fun c d => isDigit d = isDigit c) (fun _ => rfl) (by decide) c

theorem Hex.digitValue_toLower (c : Char) (digit : isDigit c = true) : digitValue c.toLower = digitValue c :=
  Text.toLower_cases (p := fun c d => isDigit c = true → digitValue d = digitValue c) (fun _ _ => rfl) (by decide) c
    digit

theorem Hex.decode?_toLower (cs : List Char) : decode? (cs.map Char.toLower) = decode? cs := by
  have digits : (cs.map Char.toLower).all isDigit = cs.all isDigit := by
    rw [List.all_map]
    exact congrArg cs.all (funext isDigit_toLower)
  unfold decode?
  rw [digits]
  split
  next all =>
    rw [List.map_map]
    apply congrArg ofValues?
    apply List.map_congr_left
    intro c member
    exact digitValue_toLower c (List.all_eq_true.mp all c member)
  · rfl

theorem Hex.decode?_congr (same : cs.map Char.toLower = ds.map Char.toLower) : decode? cs = decode? ds := by
  rw [← decode?_toLower cs, same, decode?_toLower]

/-- Texts of one length in characters have marks at their heads together. -/
theorem head?_congr {mark : Char} (noLetter : mark.isAlpha = false) (same : cs.map Char.toLower = ds.map Char.toLower) :
    cs.head? = some mark ↔ ds.head? = some mark := by
  have folded (cs : List Char) : (cs.map Char.toLower).head? = some mark ↔ cs.head? = some mark := by
    cases cs with
    | nil => rfl
    | cons c cs =>
      rw [List.map_cons, List.head?_cons, List.head?_cons, Option.some_inj, Option.some_inj]
      exact Text.toLower_eq_iff noLetter c
  rw [← folded cs, same, folded]

namespace Matcher

theorem matchHex_alike (bareHex : Bool) (trimmed : Text.trim text = text) (otherTrimmed : Text.trim other = other)
    (same : text.toList.map Char.toLower = other.toList.map Char.toLower) :
    Option.Rel (Alike text other) (matchHex bareHex text) (matchHex bareHex other) := by
  by_cases marked : text.toList.head? = some '#'
  · have otherMarked := (head?_congr rfl same).mp marked
    obtain ⟨digits, split⟩ := List.head?_eq_some_iff.mp marked
    obtain ⟨others, otherSplit⟩ := List.head?_eq_some_iff.mp otherMarked
    have decoded : Hex.decode? digits = Hex.decode? others := by
      rw [split, otherSplit, List.map_cons, List.map_cons] at same
      exact Hex.decode?_congr (List.cons.inj same).2
    rw [matchHex_marked split, matchHex_marked otherSplit, Hex.parse_marked trimmed split,
      Hex.parse_marked otherTrimmed otherSplit, decoded]
    apply Option.Rel.some
    cases Hex.decode? others with
    | some c => exact .color c
    | none => exact .refused .invalidHex (by simp [ColorError.withText])
  · have otherUnmarked : other.toList.head? ≠ some '#' := fun mark => marked ((head?_congr rfl same).mpr mark)
    rw [matchHex_unmarked marked, matchHex_unmarked otherUnmarked, Hex.decode?_congr same]
    split
    · cases Hex.decode? other.toList with
      | some c => exact .some (.color c)
      | none => exact .none
    · exact .none

end Matcher

/-! ## Functional notation -/

theorem Functional.parse?_eq_map (s : String) :
    parse? s = ((body? s.toList).map decode?).map fun found => found.elim (.error (.invalidColor s)) .ok := by
  rw [parse?, Option.map_map]
  congr 1
  funext body
  rw [Function.comp_apply]
  cases decode? body <;> rfl

theorem Functional.parse?_alike (same : text.toList.map Char.toLower = other.toList.map Char.toLower) :
    Option.Rel (Alike text other) (parse? text) (parse? other) := by
  rw [parse?_eq_map, parse?_eq_map, decode?_body?_congr same]
  rcases (body? other.toList).map decode? with _ | _ | c
  · exact .none
  · exact .some (.refused .invalidColor (by simp [ColorError.withText]))
  · exact .some (.color c)

/-! ## Design tokens and names -/

theorem forall_mem_toLower {p : Char → Prop} (cased : ∀ c : Char, p c.toLower ↔ p c) (cs : List Char) :
    (∀ c ∈ cs.map Char.toLower, p c) ↔ ∀ c ∈ cs, p c := by
  simp only [List.forall_mem_map, cased]

theorem forall_mem_congr {p : Char → Prop} (cased : ∀ c : Char, p c.toLower ↔ p c)
    (same : cs.map Char.toLower = ds.map Char.toLower) : (∀ c ∈ cs, p c) ↔ ∀ c ∈ ds, p c := by
  rw [← forall_mem_toLower cased cs, same, forall_mem_toLower cased]

theorem isAlphanum_toLower (c : Char) : c.toLower.isAlphanum = c.isAlphanum :=
  Text.toLower_cases (p := fun c d => d.isAlphanum = c.isAlphanum) (fun _ => rfl) (by decide) c

theorem ne_empty_congr (same : text.toList.map Char.toLower = other.toList.map Char.toLower) (some : text ≠ "") :
    other ≠ "" := by
  rintro rfl
  rw [String.toList_empty, List.map_nil, List.map_eq_nil_iff] at same
  exact some (String.toList_eq_nil_iff.mp same)

/-- A sigil that is no letter stands before the same names in either case. -/
theorem DesignToken.Shape.exists_of_sameLetters {sigil : Char} {name : String} (noLetter : sigil.isAlpha = false)
    (same : text.toList.map Char.toLower = other.toList.map Char.toLower) (shape : Shape sigil other name) :
    ∃ name, Shape sigil text name := by
  rw [shape.split, List.map_cons, Text.toLower_of_not_isAlpha noLetter] at same
  obtain ⟨first, rest, split, lowered, names⟩ := List.map_eq_cons_iff.mp same
  have isSigil : first = sigil := (Text.toLower_eq_iff noLetter first).mp lowered
  have cased (c : Char) : (c.toLower.isAlphanum = true ∨ c.toLower = '.' ∨ c.toLower = '-' ∨ c.toLower = '_') ↔
      (c.isAlphanum = true ∨ c = '.' ∨ c = '-' ∨ c = '_') := by
    rw [isAlphanum_toLower, Text.toLower_eq_iff rfl, Text.toLower_eq_iff rfl, Text.toLower_eq_iff rfl]
  refine ⟨String.ofList rest, ?_, ?_, ?_⟩
  · rw [split, isSigil, String.toList_ofList]
  · intro empty
    rw [String.ofList_eq_empty_iff.mp empty, List.map_nil] at names
    exact shape.some (String.toList_eq_nil_iff.mp (List.map_eq_nil_iff.mp names.symm))
  · rw [String.toList_ofList]
    exact (forall_mem_congr cased names).mpr shape.chars

theorem Matcher.isIdentifier_congr (same : text.toList.map Char.toLower = other.toList.map Char.toLower) :
    isIdentifier text = isIdentifier other := by
  have cased (c : Char) : (c.toLower.isAlphanum = true ∨ c.toLower = '-' ∨ c.toLower = '_') ↔
      (c.isAlphanum = true ∨ c = '-' ∨ c = '_') := by
    rw [isAlphanum_toLower, Text.toLower_eq_iff rfl, Text.toLower_eq_iff rfl]
  rw [Bool.eq_iff_iff, isIdentifier_iff, isIdentifier_iff]
  constructor
  · rintro ⟨some, chars⟩
    exact ⟨ne_empty_congr same some, (forall_mem_congr cased same).mp chars⟩
  · rintro ⟨some, chars⟩
    exact ⟨ne_empty_congr same.symm some, (forall_mem_congr cased same).mpr chars⟩

theorem Palette.color?_congr (trimmed : Text.trim text = text) (otherTrimmed : Text.trim other = other)
    (same : text.toList.map Char.toLower = other.toList.map Char.toLower) : color? text = color? other := by
  have keys : key text = key other := by rw [key, key, trimmed, otherTrimmed, same]
  rw [color?, color?, keys]

theorem Matcher.matchName_alike {r : Resolver} (system : r.names = Palette.color?) (trimmed : Text.trim text = text)
    (otherTrimmed : Text.trim other = other) (same : text.toList.map Char.toLower = other.toList.map Char.toLower) :
    Alike text other (matchName r text) (matchName r other) := by
  rw [matchName, matchName, system, Palette.color?_congr trimmed otherTrimmed same, isIdentifier_congr same]
  cases Palette.color? other with
  | some c => exact .color c
  | none =>
    dsimp only
    split
    · exact .refused .unknownName (by simp [ColorError.withText])
    · exact .refused .invalidColor (by simp [ColorError.withText])

end

namespace Resolver

/-- The matcher that decides one text decides the other. -/
theorem Decided.alike {r : Resolver} {text other : String} {resolution : Resolution}
    (decided : r.Decided text resolution)
    (system : r.names = Palette.color?) (noLetter : r.sigil.isAlpha = false) (trimmed : Text.trim text = text)
    (otherTrimmed : Text.trim other = other) (same : text.toList.map Char.toLower = other.toList.map Char.toLower)
    (noToken : ∀ name, ¬ DesignToken.Shape r.sigil text name) :
    ∃ found, r.Decided other found ∧ Alike text other resolution.result found.result := by
  have hex := Matcher.matchHex_alike r.bareHex trimmed otherTrimmed same
  have functional := Functional.parse?_alike same
  cases decided with
  | empty empty =>
    have otherEmpty : other = "" := by
      by_contra some
      exact ne_empty_congr same.symm some empty
    exact ⟨_, .empty otherEmpty, .refused .invalidColor (by simp [ColorError.withText])⟩
  | hex some marked =>
    rw [marked] at hex
    generalize found : Matcher.matchHex r.bareHex other = answer at hex
    cases hex with
    | some alike => exact ⟨_, .hex (ne_empty_congr same some) found, alike⟩
  | functional some unmarked inNotation =>
    rw [unmarked] at hex
    rw [inNotation] at functional
    generalize passes : Matcher.matchHex r.bareHex other = pass at hex
    generalize found : Functional.parse? other = answer at functional
    cases hex
    cases functional with
    | some alike => exact ⟨_, .functional (ne_empty_congr same some) passes found, alike⟩
  | token some unmarked outside shape => exact absurd shape (noToken _)
  | named some unmarked outside _ =>
    rw [unmarked] at hex
    rw [outside] at functional
    generalize passes : Matcher.matchHex r.bareHex other = pass at hex
    generalize alsoOutside : Functional.parse? other = nothing at functional
    cases hex
    cases functional
    refine ⟨_, .named (ne_empty_congr same some) passes alsoOutside ?_, ?_⟩
    · intro name shape
      obtain ⟨_, also⟩ := shape.exists_of_sameLetters noLetter same
      exact noToken _ also
    · exact Matcher.matchName_alike system trimmed otherTrimmed same

/-- Main statement: two texts that differ in case and in blanks at their ends resolve alike, unless they are design
tokens; if one is none, neither is the other. -/
theorem resolve_letterCase (r : Resolver) (s other : String) (system : r.names = Palette.color?)
    (noLetter : r.sigil.isAlpha = false)
    (same : (Text.trim s).toList.map Char.toLower = (Text.trim other).toList.map Char.toLower)
    (noToken : ∀ name, ¬ DesignToken.Shape r.sigil (Text.trim s) name) :
    Alike (Text.trim s) (Text.trim other) (r.resolve s) (r.resolve other) := by
  obtain ⟨found, decided, alike⟩ := (r.decided_resolution s).alike system noLetter (Text.trim_trim s)
    (Text.trim_trim other) same noToken
  rw [resolve, resolve, (r.decided_resolution other).unique decided]
  exact alike

/-- Capitals in the name, in a comment and in a power; the hyphen as sigil stands inside the text only. -/
theorem resolve_letterCase_of_power :
    let r : Resolver := { sigil := '-', bareHex := false }
    r.names = Palette.color? ∧ r.sigil.isAlpha = false ∧
      (Text.trim " RGB(1E-1,/*A*/2,3)").toList.map Char.toLower =
        (Text.trim "rgb(1e-1,/*a*/2,3)\n").toList.map Char.toLower ∧
      (∀ name, ¬ DesignToken.Shape r.sigil (Text.trim " RGB(1E-1,/*A*/2,3)") name) ∧
      r.resolve "rgb(1e-1,/*a*/2,3)\n" = .ok ⟨0, 2, 3, 255⟩ ∧
      Alike (Text.trim " RGB(1E-1,/*A*/2,3)") (Text.trim "rgb(1e-1,/*a*/2,3)\n") (r.resolve " RGB(1E-1,/*A*/2,3)")
        (r.resolve "rgb(1e-1,/*a*/2,3)\n") := by
  intro r
  have system : r.names = Palette.color? := by simp only [r]
  have same : (Text.trim " RGB(1E-1,/*A*/2,3)").toList.map Char.toLower =
      (Text.trim "rgb(1e-1,/*a*/2,3)\n").toList.map Char.toLower := by decide +kernel
  have noToken : ∀ name, ¬ DesignToken.Shape r.sigil (Text.trim " RGB(1E-1,/*A*/2,3)") name := by
    intro name shape
    have shapeless : DesignToken.name? '-' (Text.trim " RGB(1E-1,/*A*/2,3)") = none := by decide +kernel
    rw [DesignToken.name?_eq_some_iff.mpr shape] at shapeless
    cases shapeless
  have reads : r.resolve "rgb(1e-1,/*a*/2,3)\n" = .ok ⟨0, 2, 3, 255⟩ := by decide +kernel
  have alike := r.resolve_letterCase " RGB(1E-1,/*A*/2,3)" "rgb(1e-1,/*a*/2,3)\n" system rfl same noToken
  exact ⟨system, rfl, same, noToken, reads, alike⟩

end Resolver

end ColorResolution
