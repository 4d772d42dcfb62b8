import ColorResolution.Proofs.Resolver.Shapes

/-!
# Why a text does not resolve

Each refusal has one of four causes, named after the shape of the text, and carries the text without the blanks at its
ends; that a fetch failed is never among the causes. Main statement: a text is refused for a cause exactly when its
shape calls for it and the look-up of its shape fails.
-/
namespace ColorResolution.Resolver

/-- The causes for which a text without blanks at its ends is refused. -/
inductive Refuses (r : Resolver) (text : String) : ColorError → Prop
  | badDigits {digits : List Char} : text.toList = '#' :: digits → ¬ HexDigits digits → Refuses r text (.invalidHex text)
  | unregistered {name : String} : text.toList.head? ≠ some '#' → ¬ r.Bare text →
    DesignToken.Shape r.sigil text name → r.tokens name = none → Refuses r text (.unresolvedToken text)
  | unknown : Identifier text → ¬ r.Bare text → (∀ name, ¬ DesignToken.Shape r.sigil text name) →
    r.names text = none → Refuses r text (.unknownName text)
  | empty : text = "" → Refuses r text (.invalidColor text)
  | badComponents {body : List Char} : Functional.Encloses text body →
    (∀ cs color, Functional.Lists body cs → ¬ Functional.Paints cs color) → Refuses r text (.invalidColor text)
  | shapeless : text ≠ "" → text.toList.head? ≠ some '#' → ¬ r.Bare text → (∀ body, ¬ Functional.Encloses text body) →
    (∀ name, ¬ DesignToken.Shape r.sigil text name) → ¬ Identifier text → r.names text = none →
    Refuses r text (.invalidColor text)

variable {r : Resolver} {text : String} {cause : ColorError}

theorem unmarked_iff : Matcher.matchHex r.bareHex text = none ↔ text.toList.head? ≠ some '#' ∧ ¬ r.Bare text :=
  Matcher.matchHex_eq_none_iff

theorem refuses_of_decided {resolution : Resolution} (trimmed : Text.trim text = text)
    (decided : r.Decided text resolution) (failed : resolution.result = .error cause) : r.Refuses text cause := by
  cases decided with
  | empty empty =>
    cases failed
    exact .empty empty
  | hex some matched =>
    obtain rfl : _ = Except.error cause := failed
    obtain ⟨digits, marked⟩ := Matcher.marked_of_matchHex_error matched
    rw [Matcher.matchHex_marked marked, Hex.parse_marked trimmed marked] at matched
    cases decoded : Hex.decode? digits with
    | some color =>
      rw [decoded] at matched
      cases matched
    | none =>
      rw [decoded] at matched
      cases matched
      exact .badDigits marked (Hex.decode?_eq_none_iff.mp decoded)
  | functional some unmarked inNotation =>
    obtain rfl : _ = Except.error cause := failed
    have describes := Functional.describes_parse? text
    rw [inNotation] at describes
    cases describes with
    | refused encloses unpainted => exact .badComponents encloses unpainted
  | @token name some unmarked outside shape =>
    obtain ⟨noMark, notBare⟩ := unmarked_iff.mp unmarked
    cases registered : r.tokens name with
    | some color =>
      rw [registered] at failed
      cases failed
    | none =>
      rw [registered] at failed
      cases failed
      exact .unregistered noMark notBare shape registered
  | named some unmarked outside noToken =>
    obtain ⟨noMark, notBare⟩ := unmarked_iff.mp unmarked
    have failed : Matcher.matchName r text = .error cause := failed
    unfold Matcher.matchName at failed
    split at failed
    · cases failed
    next unknown =>
      split at failed
      next identifier =>
        cases failed
        exact .unknown (Matcher.isIdentifier_iff.mp identifier) notBare noToken unknown
      next other =>
        cases failed
        have noIdentifier : ¬ Identifier text := fun identifier => other (Matcher.isIdentifier_iff.mpr identifier)
        refine .shapeless some noMark notBare ?_ noToken noIdentifier unknown
        intro body encloses
        rw [Functional.parse?, Functional.body?_eq_some_iff.mpr encloses] at outside
        cases outside

theorem decided_of_refuses (trimmed : Text.trim text = text) (refuses : r.Refuses text cause) :
    ∃ asked, r.Decided text ⟨.error cause, asked⟩ := by
  cases refuses with
  | @badDigits digits marked bad =>
    have some : text ≠ "" := by
      rintro rfl
      cases marked
    refine ⟨[], .hex some ?_⟩
    rw [Matcher.matchHex_marked marked, Hex.parse_marked trimmed marked, Hex.decode?_eq_none_iff.mpr bad]
    rfl
  | @unregistered name noMark notBare shape missing =>
    have some : text ≠ "" := by
      rintro rfl
      cases shape.split
    refine ⟨[name], ?_⟩
    have decided := Decided.token some (unmarked_iff.mpr ⟨noMark, notBare⟩) shape.notFunctional shape
    rwa [missing] at decided
  | unknown identifier notBare noToken missing =>
    have noMark : text.toList.head? ≠ some '#' :=
      fun marked => absurd (identifier.chars _ (List.mem_of_head? marked)) (by decide)
    refine ⟨[], ?_⟩
    have decided := Decided.named identifier.some (unmarked_iff.mpr ⟨noMark, notBare⟩) identifier.notFunctional noToken
    rwa [Matcher.matchName, missing, if_pos (Matcher.isIdentifier_iff.mpr identifier)] at decided
  | empty empty => exact ⟨[], .empty empty⟩
  | badComponents encloses unpainted =>
    have some : text ≠ "" := by
      rintro rfl
      cases Functional.bracket_of_encloses encloses
    have described := Functional.parse?_of_describes (.refused encloses unpainted)
    exact ⟨[], .functional some (Functional.matchHex_of_encloses encloses r.bareHex) described⟩
  | shapeless some noMark notBare outside noToken noIdentifier missing =>
    refine ⟨[], ?_⟩
    have inNotation : Functional.parse? text = none := Functional.parse?_of_describes (.other outside)
    have decided := Decided.named some (unmarked_iff.mpr ⟨noMark, notBare⟩) inNotation noToken
    rwa [Matcher.matchName, missing, if_neg fun accepted => noIdentifier (Matcher.isIdentifier_iff.mp accepted)]
      at decided

/-- Resolving a text fetches nothing. -/
theorem resolve_ne_fetch (r : Resolver) (s : String) (cause : FetchError) : r.resolve s ≠ .error (.fetch cause) := by
  intro failed
  cases refuses_of_decided (Text.trim_trim s) (r.decided_resolution s) failed

/-- Main statement: a text is refused for a cause exactly when its shape calls for the cause. -/
theorem resolve_eq_error_iff (r : Resolver) (s : String) (cause : ColorError) :
    r.resolve s = .error cause ↔ r.Refuses (Text.trim s) cause := by
  constructor
  · exact refuses_of_decided (Text.trim_trim s) (r.decided_resolution s)
  · intro refuses
    obtain ⟨asked, decided⟩ := decided_of_refuses (Text.trim_trim s) refuses
    rw [resolve, (r.decided_resolution s).unique decided]

example : ({ sigil := 'f' } : Resolver).resolve " fad-e\n" = .error (.unresolvedToken "fad-e") := by decide +kernel

end ColorResolution.Resolver
