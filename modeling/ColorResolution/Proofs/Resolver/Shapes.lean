import Mathlib.Data.List.DropRight
import ColorResolution.Proofs.Functional.Grammar
import ColorResolution.Resolver

/-!
# The shapes of colour texts

The shapes that the matchers are responsible for, said of the characters of a text: digits in base sixteen, the sigil
with a token's name, an identifier. The functional notation has a grammar of its own; a text of it has a bracket behind
its first character, which no text of another shape has. Main statement: which matcher decides what becomes of a text,
and with which question to the registry.
-/
namespace ColorResolution

namespace Text

theorem dropEnds_eq (p : Char → Bool) (cs : List Char) : dropEnds p cs = (cs.dropWhile p).rdropWhile p := rfl

theorem dropEnds_dropEnds (p : Char → Bool) (cs : List Char) : dropEnds p (dropEnds p cs) = dropEnds p cs := by
  have front : (dropEnds p cs).dropWhile p = dropEnds p cs := by
    cases kept : dropEnds p cs with
    | nil => rfl
    | cons c rest =>
      -- the first character that is kept is the first of what the front was dropped from
      obtain ⟨back, whole⟩ := List.rdropWhile_prefix p (cs.dropWhile p)
      rw [← dropEnds_eq, kept] at whole
      have stops := List.head_dropWhile_not p (l := cs) (by rw [← whole]; exact List.cons_ne_nil _ _)
      apply List.dropWhile_cons_of_neg
      simpa [← whole] using stops
  rw [dropEnds_eq, front, dropEnds_eq, List.rdropWhile_idempotent]

@[simp] theorem trim_trim (s : String) : trim (trim s) = trim s := by
  rw [trim, toList_trim, dropEnds_dropEnds, trim]

end Text

/-! ## The shapes -/

/-- A digit of base sixteen, in either case. -/
def IsHexDigit (c : Char) : Prop := '0' ≤ c ∧ c ≤ '9' ∨ 'a' ≤ c ∧ c ≤ 'f' ∨ 'A' ≤ c ∧ c ≤ 'F'

instance : DecidablePred IsHexDigit := fun c =>
  inferInstanceAs (Decidable ('0' ≤ c ∧ c ≤ '9' ∨ 'a' ≤ c ∧ c ≤ 'f' ∨ 'A' ≤ c ∧ c ≤ 'F'))

/-- Three, four, six or eight digits of base sixteen. -/
structure HexDigits (cs : List Char) : Prop where
  size : cs.length = 3 ∨ cs.length = 4 ∨ cs.length = 6 ∨ cs.length = 8
  digits : ∀ c ∈ cs, IsHexDigit c

/-- Digits that may stand without the mark. -/
def Resolver.Bare (r : Resolver) (text : String) : Prop := r.bareHex = true ∧ HexDigits text.toList

/-- The sigil, and behind it a name of letters, digits, points, hyphens and underscores. -/
structure DesignToken.Shape (sigil : Char) (text name : String) : Prop where
  split : text.toList = sigil :: name.toList
  some : name ≠ ""
  chars : ∀ c ∈ name.toList, c.isAlphanum = true ∨ c = '.' ∨ c = '-' ∨ c = '_'

/-- A text of letters, digits, hyphens and underscores. -/
structure Identifier (text : String) : Prop where
  some : text ≠ ""
  chars : ∀ c ∈ text.toList, c.isAlphanum = true ∨ c = '-' ∨ c = '_'

/-! ## The matchers and their shapes -/

namespace Hex

theorem isDigit_iff (c : Char) : isDigit c = true ↔ IsHexDigit c := by
  simp only [isDigit, IsHexDigit, Bool.or_eq_true, Bool.and_eq_true, decide_eq_true_eq, Char.le_def, UInt32.le_iff_toNat_le]
  change _ ↔ 48 ≤ c.toNat ∧ c.toNat ≤ 57 ∨ 97 ≤ c.toNat ∧ c.toNat ≤ 102 ∨ 65 ≤ c.toNat ∧ c.toNat ≤ 70
  omega

theorem decode?_eq_none_iff {cs : List Char} : decode? cs = none ↔ ¬ HexDigits cs := by
  rw [← Option.not_isSome_iff_eq_none, not_iff_not, decode?_isSome_iff, Bool.and_eq_true, List.all_eq_true]
  simp only [isDigit_iff, Bool.or_eq_true, beq_iff_eq, or_assoc]
  constructor
  · rintro ⟨digits, size⟩
    exact ⟨size, digits⟩
  · rintro ⟨size, digits⟩
    exact ⟨digits, size⟩

/-- Behind its mark a text without blanks at its ends is read as it stands. -/
theorem parse_marked {text : String} {digits : List Char} (trimmed : Text.trim text = text)
    (marked : text.toList = '#' :: digits) :
    parse text = (decode? digits).elim (.error (.invalidHex text)) .ok := by
  cases found : decode? digits <;> simp [parse, trimmed, marked, dropMark, found]

end Hex

namespace Matcher

variable {bareHex : Bool} {text : String}

theorem matchHex_marked {digits : List Char} (marked : text.toList = '#' :: digits) :
    matchHex bareHex text = some (Hex.parse text) := by
  rw [matchHex, marked, List.head?_cons, if_pos rfl]

theorem matchHex_unmarked (unmarked : text.toList.head? ≠ some '#') :
    matchHex bareHex text = if bareHex then (Hex.decode? text.toList).map .ok else none := by
  rw [matchHex, if_neg unmarked]

/-- Left to the next matcher are the texts without the mark that are no digits, or may not be read as such. -/
theorem matchHex_eq_none_iff :
    matchHex bareHex text = none ↔ text.toList.head? ≠ some '#' ∧ ¬ (bareHex = true ∧ HexDigits text.toList) := by
  by_cases marked : text.toList.head? = some '#'
  · simp [matchHex, marked]
  · rw [matchHex_unmarked marked]
    cases bareHex with
    | false => simp [marked]
    | true => simp [marked, Hex.decode?_eq_none_iff]

/-- Without the mark digits never fail. -/
theorem marked_of_matchHex_error {cause : ColorError} (failed : matchHex bareHex text = some (.error cause)) :
    ∃ digits, text.toList = '#' :: digits := by
  by_cases marked : text.toList.head? = some '#'
  · exact ⟨_, List.eq_cons_of_mem_head? marked⟩
  · rw [matchHex_unmarked marked] at failed
    split at failed
    · obtain ⟨_, _, same⟩ := Option.map_eq_some_iff.mp failed
      cases same
    · cases failed

theorem isIdentifier_iff : isIdentifier text = true ↔ Identifier text := by
  have chars (c : Char) : (c.isAlphanum || c == '-' || c == '_') = true ↔ c.isAlphanum = true ∨ c = '-' ∨ c = '_' := by
    simp [or_assoc]
  have some : (!text.toList.isEmpty) = true ↔ text ≠ "" := by simp
  simp only [isIdentifier, Bool.and_eq_true, List.all_eq_true, chars, some]
  constructor
  · rintro ⟨some, chars⟩
    exact ⟨some, chars⟩
  · rintro ⟨some, chars⟩
    exact ⟨some, chars⟩

end Matcher

theorem DesignToken.name?_eq_some_iff {sigil : Char} {text name : String} :
    name? sigil text = some name ↔ Shape sigil text name := by
  have char (c : Char) : isNameChar c = true ↔ c.isAlphanum = true ∨ c = '.' ∨ c = '-' ∨ c = '_' := by
    simp only [isNameChar, Bool.or_eq_true, beq_iff_eq]
    tauto
  constructor
  · intro found
    unfold name? at found
    split at found
    · cases found
    next c cs split =>
      split at found
      next accepted =>
        cases found
        simp only [Bool.and_eq_true, decide_eq_true_eq, List.all_eq_true, char] at accepted
        obtain ⟨⟨rfl, some⟩, chars⟩ := accepted
        exact ⟨by simpa using split, by simpa using some, by simpa using chars⟩
      · cases found
  · rintro ⟨split, some, chars⟩
    have all : name.toList.all isNameChar = true := List.all_eq_true.mpr fun c member => (char c).mpr (chars c member)
    simp [name?, split, all, some]

theorem DesignToken.Shape.unique {sigil : Char} {text name other : String} (shape : Shape sigil text name)
    (again : Shape sigil text other) : name = other :=
  String.toList_inj.mp (List.cons.inj (shape.split.symm.trans again.split)).2

/-! ## The bracket of the functional notation -/

/-- A text of the functional notation has a bracket behind its first character. -/
theorem Functional.bracket_of_encloses {text : String} {body : List Char} (encloses : Encloses text body) :
    '(' ∈ text.toList.tail := by
  obtain ⟨name, split, _, named⟩ := encloses
  cases name with
  | nil => simp at named
  | cons c rest => simp [split]

/-- Nor is it hexadecimal, with the mark or without it. -/
theorem Functional.matchHex_of_encloses {text : String} {body : List Char} (encloses : Encloses text body)
    (bareHex : Bool) : Matcher.matchHex bareHex text = none := by
  refine Matcher.matchHex_eq_none_iff.mpr ⟨?_, fun bare => ?_⟩
  · obtain ⟨name, split, _, named⟩ := encloses
    intro marked
    cases name with
    | nil => simp at named
    | cons c rest =>
      obtain rfl : c = '#' := by simpa [split] using marked
      simp at named
  · exact absurd (bare.2.digits _ (List.mem_of_mem_tail (bracket_of_encloses encloses))) (by decide)

theorem Functional.parse?_eq_none {text : String} (closed : '(' ∉ text.toList.tail) : parse? text = none := by
  rw [parse?, Option.map_eq_none_iff, Option.eq_none_iff_forall_ne_some]
  exact fun body form => closed (bracket_of_encloses (body?_eq_some_iff.mp form))

theorem DesignToken.Shape.notFunctional {sigil : Char} {text name : String} (shape : Shape sigil text name) :
    Functional.parse? text = none := by
  apply Functional.parse?_eq_none
  rw [shape.split, List.tail_cons]
  intro bracket
  exact absurd (shape.chars _ bracket) (by decide)

theorem Identifier.notFunctional {text : String} (identifier : Identifier text) : Functional.parse? text = none := by
  apply Functional.parse?_eq_none
  intro bracket
  exact absurd (identifier.chars _ (List.mem_of_mem_tail bracket)) (by decide)

/-! ## Which matcher decides -/

/-- What becomes of a text without blanks at its ends, by the first matcher that is responsible for it. -/
inductive Resolver.Decided (r : Resolver) (text : String) : Resolution → Prop
  | empty : text = "" → Decided r text ⟨.error (.invalidColor text), []⟩
  | hex {result : Except ColorError Color} : text ≠ "" → Matcher.matchHex r.bareHex text = some result →
    Decided r text ⟨result, []⟩
  | functional {result : Except ColorError Color} : text ≠ "" → Matcher.matchHex r.bareHex text = none →
    Functional.parse? text = some result → Decided r text ⟨result, []⟩
  | token {name : String} : text ≠ "" → Matcher.matchHex r.bareHex text = none → Functional.parse? text = none →
    DesignToken.Shape r.sigil text name →
    Decided r text ⟨(r.tokens name).elim (.error (.unresolvedToken text)) .ok, [name]⟩
  | named : text ≠ "" → Matcher.matchHex r.bareHex text = none → Functional.parse? text = none →
    (∀ name, ¬ DesignToken.Shape r.sigil text name) → Decided r text ⟨Matcher.matchName r text, []⟩

/-- The conditions exclude each other, so a text is decided in one way. -/
theorem Resolver.Decided.unique {r : Resolver} {text : String} {one other : Resolution} (first : r.Decided text one)
    (second : r.Decided text other) : one = other := by
  cases first with
  | empty empty => cases second <;> first | rfl | contradiction
  | hex some marked => cases second <;> simp_all
  | functional some unmarked inNotation => cases second <;> simp_all
  | token some unmarked outside shape =>
    cases second with
    | token _ _ _ again => rw [shape.unique again]
    | named _ _ _ shapeless => exact absurd shape (shapeless _)
    | _ => simp_all
  | named some unmarked outside shapeless =>
    cases second with
    | token _ _ _ shape => exact absurd shape (shapeless _)
    | named => rfl
    | _ => simp_all

namespace Matcher

variable {r : Resolver} {text : String} {m : Matcher} {rest : List Matcher}

theorem firstMatch_of_answer {result : Except ColorError Color} {asked : List String}
    (answers : attempt r text m = ⟨some result, asked⟩) : firstMatch r text (m :: rest) = ⟨some result, asked⟩ := by
  simp [firstMatch, answers]

theorem firstMatch_of_pass (passes : attempt r text m = ⟨none, []⟩) :
    firstMatch r text (m :: rest) = firstMatch r text rest := by
  simp [firstMatch, passes]

theorem attempt_designToken {name : String} (form : DesignToken.name? r.sigil text = some name) :
    attempt r text .designToken = ⟨some ((r.tokens name).elim (.error (.unresolvedToken text)) .ok), [name]⟩ := by
  cases registered : r.tokens name <;> simp [attempt, matchToken, form, registered]

end Matcher

namespace Resolver

open Matcher

/-- Main statement: resolving a text is deciding it without the blanks at its ends. -/
theorem decided_resolution (r : Resolver) (s : String) : r.Decided (Text.trim s) (r.resolution s) := by
  generalize asText : Text.trim s = text
  by_cases empty : text = ""
  · have refused : r.resolution s = ⟨.error (.invalidColor text), []⟩ := by
      simp [resolution, asText, empty]
    rw [refused]
    exact .empty empty
  have decided (result : Except ColorError Color) (asked : List String)
      (found : firstMatch r text precedence = ⟨some result, asked⟩) : r.resolution s = ⟨result, asked⟩ := by
    simp [resolution, asText, empty, found]
  -- the matchers in their order, each tried once those before it have passed
  cases marked : matchHex r.bareHex text with
  | some result =>
    have answers : attempt r text .hex = ⟨some result, []⟩ := by rw [attempt, marked]
    rw [decided result [] (firstMatch_of_answer answers)]
    exact .hex empty marked
  | none =>
    have noHex : attempt r text .hex = ⟨none, []⟩ := by rw [attempt, marked]
    cases inNotation : Functional.parse? text with
    | some result =>
      have answers : attempt r text .functional = ⟨some result, []⟩ := by rw [attempt, inNotation]
      rw [decided result [] ((firstMatch_of_pass noHex).trans (firstMatch_of_answer answers))]
      exact .functional empty marked inNotation
    | none =>
      have outside : attempt r text .functional = ⟨none, []⟩ := by rw [attempt, inNotation]
      have passed : firstMatch r text precedence = firstMatch r text [.designToken, .named] :=
        (firstMatch_of_pass noHex).trans (firstMatch_of_pass outside)
      cases form : DesignToken.name? r.sigil text with
      | some name =>
        rw [decided _ _ (passed.trans (firstMatch_of_answer (attempt_designToken form)))]
        exact .token empty marked inNotation (DesignToken.name?_eq_some_iff.mp form)
      | none =>
        have noToken : attempt r text .designToken = ⟨none, []⟩ := by rw [attempt, matchToken, form]
        have answers : attempt r text .named = ⟨some (matchName r text), []⟩ := rfl
        rw [decided _ _ (passed.trans ((firstMatch_of_pass noToken).trans (firstMatch_of_answer answers)))]
        refine .named empty marked inNotation fun name shape => ?_
        rw [DesignToken.name?_eq_some_iff.mpr shape] at form
        cases form

end Resolver

end ColorResolution
