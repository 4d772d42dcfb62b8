import ColorResolution.Proofs.Payload.Grammar
import ColorResolution.Proofs.Resolver.Shapes

/-!
# What the registry is asked

Resolving a text asks the registry for one name at most, and the shape of the text alone tells for which. A body is
interpreted by its channels, or by resolving one text that is found in it. Main statement: which name is asked for, that
a registered name gives its colour, and that nothing else in the registry has an effect.
-/
namespace ColorResolution

namespace Payload

/-- The colour text at the core of a description; channels hold none. -/
def text? : Payload → Option String
  | .token text => some text
  | .channels _ _ _ _ => none
  | .wrapped inner => inner.text?

/-- The text that interpreting a body hands to the resolver: the body itself if it is no document, and otherwise the
colour text that the document describes. -/
def handed? (text : String) : Option String :=
  let body := Text.trim text
  if body.isEmpty then none
  else
    match document? body with
    | none => some body
    | some value => (ofJson? value).bind text?

end Payload

namespace Resolver

/-- The texts that lead to a question, with the name that is asked for. -/
structure AsksFor (r : Resolver) (text name : String) : Prop where
  unmarked : text.toList.head? ≠ some '#'
  notBare : ¬ r.Bare text
  shape : DesignToken.Shape r.sigil text name

section
variable {r : Resolver} {text : String} {resolution : Resolution}

/-! ## The question of a text -/

theorem AsksFor.passes_hex {name : String} (asks : r.AsksFor text name) : Matcher.matchHex r.bareHex text = none :=
  Matcher.matchHex_eq_none_iff.mpr ⟨asks.unmarked, asks.notBare⟩

theorem Decided.mem_asked_iff (decided : r.Decided text resolution) (name : String) :
    name ∈ resolution.asked ↔ r.AsksFor text name := by
  -- a matcher before that of design tokens excludes their shape, and the one after it is tried only without it
  have silent (never : ¬ r.AsksFor text name) : name ∈ ([] : List String) ↔ r.AsksFor text name := by
    simpa using never
  cases decided with
  | empty empty =>
    apply silent
    intro asks
    have split := asks.shape.split
    rw [empty] at split
    cases split
  | hex some matched =>
    apply silent
    intro asks
    rw [asks.passes_hex] at matched
    cases matched
  | functional some unmarked inNotation =>
    apply silent
    intro asks
    rw [asks.shape.notFunctional] at inNotation
    cases inNotation
  | @token asked some unmarked outside shape =>
    obtain ⟨noMark, notBare⟩ := Matcher.matchHex_eq_none_iff.mp unmarked
    rw [List.mem_singleton]
    constructor
    · intro same
      rw [same]
      exact ⟨noMark, notBare, shape⟩
    · intro asks
      exact asks.shape.unique shape
  | named some unmarked outside noToken =>
    apply silent
    intro asks
    exact noToken name asks.shape

theorem Decided.asked_length (decided : r.Decided text resolution) : resolution.asked.length ≤ 1 := by
  cases decided <;> simp

/-- The answer to the question is the result. -/
theorem Decided.result_of_registered (decided : r.Decided text resolution) {name : String} {color : Color}
    (asked : name ∈ resolution.asked) (registered : r.tokens name = some color) : resolution.result = .ok color := by
  cases decided with
  | token some unmarked outside shape =>
    rw [List.mem_singleton] at asked
    rw [asked] at registered
    rw [registered]
    rfl
  | _ => cases asked

/-- Another registry with the same answer decides alike. -/
theorem Decided.of_agree (decided : r.Decided text resolution) {others : String → Option Color}
    (agree : ∀ name ∈ resolution.asked, others name = r.tokens name) :
    ({ r with tokens := others } : Resolver).Decided text resolution := by
  cases decided with
  | empty empty => exact .empty empty
  | hex some matched => exact .hex some matched
  | functional some unmarked inNotation => exact .functional some unmarked inNotation
  | @token name some unmarked outside shape =>
    rw [← agree name (List.mem_singleton_self name)]
    exact .token some unmarked outside shape
  | named some unmarked outside noToken => exact .named some unmarked outside noToken

end

theorem resolve_of_agree (r : Resolver) (s : String) {others : String → Option Color}
    (agree : ∀ name ∈ r.asked s, others name = r.tokens name) :
    ({ r with tokens := others } : Resolver).resolve s = r.resolve s := by
  have same := (r.decided_resolution s).of_agree agree
  have decided := ({ r with tokens := others } : Resolver).decided_resolution s
  rw [resolve, decided.unique same, resolve]

end Resolver

/-! ## The text of a body -/

namespace Payload

theorem color_of_text {p : Payload} {text : String} (found : p.text? = some text) (r : Resolver) :
    p.color r = r.resolve text := by
  induction p with
  | token held =>
    cases found
    rfl
  | channels red green blue alpha => cases found
  | wrapped inner ih => exact ih found

theorem color_of_no_text {p : Payload} (none : p.text? = none) (r other : Resolver) : p.color r = p.color other := by
  induction p with
  | token held => cases none
  | channels red green blue alpha => rfl
  | wrapped inner ih => exact ih none

/-- A body with a text in it has the result of the text. -/
theorem interpret_of_handed {url text handed : String} (found : handed? text = some handed) (r : Resolver) :
    interpret url text r = r.resolve handed := by
  simp only [handed?] at found
  simp only [interpret]
  by_cases empty : (Text.trim text).isEmpty = true
  · rw [if_pos empty] at found
    cases found
  rw [if_neg empty] at found ⊢
  cases reads : document? (Text.trim text) with
  | none =>
    simp only [reads] at found ⊢
    cases found
    rfl
  | some value =>
    simp only [reads] at found ⊢
    obtain ⟨payload, described, core⟩ := Option.bind_eq_some_iff.mp found
    simp only [described]
    exact color_of_text core r

/-- A body without one has a result of its own. -/
theorem interpret_of_none_handed {url text : String} (nothing : handed? text = none) (r other : Resolver) :
    interpret url text r = interpret url text other := by
  simp only [handed?] at nothing
  simp only [interpret]
  by_cases empty : (Text.trim text).isEmpty = true
  · rw [if_pos empty, if_pos empty]
  rw [if_neg empty] at nothing ⊢
  rw [if_neg empty]
  cases reads : document? (Text.trim text) with
  | none =>
    simp only [reads] at nothing
    cases nothing
  | some value =>
    simp only [reads] at nothing ⊢
    cases described : ofJson? value with
    | none => rfl
    | some payload =>
      rw [described, Option.bind_some] at nothing
      exact color_of_no_text nothing r other

theorem interpret_of_agree (url text : String) (r : Resolver) {others : String → Option Color}
    (agree : ∀ handed ∈ handed? text, ∀ name ∈ r.asked handed, others name = r.tokens name) :
    interpret url text { r with tokens := others } = interpret url text r := by
  cases found : handed? text with
  | none => exact interpret_of_none_handed found _ _
  | some handed =>
    rw [interpret_of_handed found, interpret_of_handed found]
    exact r.resolve_of_agree handed (agree handed found)

end Payload

/-- Main statement: one name at most is asked for, behind the sigil of a text that no earlier shape claims; its colour is
the result, and all other entries of the registry are without effect on texts and on bodies. -/
theorem Resolver.asks_one_name (r : Resolver) (s : String) :
    (r.asked s).length ≤ 1 ∧
    (∀ name, name ∈ r.asked s ↔ r.AsksFor (Text.trim s) name) ∧
    (∀ name color, name ∈ r.asked s → r.tokens name = some color → r.resolve s = .ok color) ∧
    (∀ others : String → Option Color, (∀ name ∈ r.asked s, others name = r.tokens name) →
      ({ r with tokens := others } : Resolver).resolve s = r.resolve s) ∧
    ∀ url body : String,
      (∀ handed, Payload.handed? body = some handed → Payload.interpret url body r = r.resolve handed) ∧
      (Payload.handed? body = none → ∀ other, Payload.interpret url body r = Payload.interpret url body other) ∧
      ∀ others : String → Option Color,
        (∀ handed ∈ Payload.handed? body, ∀ name ∈ r.asked handed, others name = r.tokens name) →
        Payload.interpret url body { r with tokens := others } = Payload.interpret url body r := by
  have decided := r.decided_resolution s
  refine ⟨decided.asked_length, decided.mem_asked_iff, ?_, fun others => r.resolve_of_agree s, ?_⟩
  · intro name color asked registered
    exact decided.result_of_registered asked registered
  · intro url body
    refine ⟨?_, ?_, fun others => Payload.interpret_of_agree url body r⟩
    · intro handed found
      exact Payload.interpret_of_handed found r
    · intro nothing other
      exact Payload.interpret_of_none_handed nothing r other

/-- A sigil that is a digit as well: `fad-e` asks, in a body too, while `fade` is digits and leaves the registry alone. -/
theorem Resolver.asks_one_name_of_digit :
    let tokens : String → Option Color := fun name => if name = "ad-e" then some .red else none
    let others : String → Option Color := fun name => if name = "ad-e" then some .red else some .blue
    let r : Resolver := { sigil := 'f', tokens := tokens }
    r.AsksFor (Text.trim " fad-e\n") "ad-e" ∧ tokens "ad-e" = some .red ∧ r.resolve " fad-e\n" = .ok .red ∧
      r.asked "fade" = [] ∧ ({ r with tokens := others } : Resolver).resolve "fade" = r.resolve "fade" ∧
      Payload.handed? "[\"fad-e\"]" = some "fad-e" ∧
      Payload.interpret "u" "[\"fad-e\"]" { r with tokens := others } = r.resolve "fad-e" := by
  intro tokens others r
  have asked : r.asked " fad-e\n" = ["ad-e"] := by decide +kernel
  have silent : r.asked "fade" = [] := by decide +kernel
  have bare : r.asked "fad-e" = ["ad-e"] := by decide +kernel
  have registered : r.tokens "ad-e" = some .red := by simp [r, tokens]
  have alike : others "ad-e" = r.tokens "ad-e" := by simp [r, tokens, others]
  have reads : Json.read? (Text.trim "[\"fad-e\"]") = some (.array [.string "fad-e"]) := by cbv
  have handed : Payload.handed? "[\"fad-e\"]" = some "fad-e" := by
    rw [Payload.handed?, if_neg (by simpa using Payload.ne_empty_of_read? reads),
      Payload.document?_eq_some reads (.array _)]
    rfl
  obtain ⟨_, questions, answers, _⟩ := r.asks_one_name " fad-e\n"
  obtain ⟨_, _, _, agrees, _⟩ := r.asks_one_name "fade"
  obtain ⟨_, _, _, _, bodies⟩ := r.asks_one_name "fad-e"
  have member : "ad-e" ∈ r.asked " fad-e\n" := by rw [asked]; exact List.mem_singleton_self _
  have same : ∀ name ∈ r.asked "fad-e", others name = r.tokens name := by
    intro name belongs
    rw [bare, List.mem_singleton] at belongs
    rw [belongs]
    exact alike
  refine ⟨(questions _).mp member, registered, answers _ _ member registered, silent, ?_, handed, ?_⟩
  · apply agrees
    rw [silent]
    exact List.forall_mem_nil _
  · obtain ⟨resolved, _, unaffected⟩ := bodies "u" "[\"fad-e\"]"
    rw [unaffected, resolved _ handed]
    intro text found
    rw [handed] at found
    cases found
    exact same

end ColorResolution
