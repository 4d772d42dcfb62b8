import ColorResolution.Proofs.Resolver.Shapes

/-!
# The order of the matchers

A matcher that passes on a text has asked nothing, so a list of matchers gives what its first responsible matcher gives.
Main statement: the three shapes exclude each other exactly where the sigil opens no hexadecimal text, and there their
order is immaterial; names come last, as nothing is tried behind them.
-/
namespace ColorResolution

/-- The sigil opens no text that is read as hexadecimal. -/
def Resolver.SigilApart (r : Resolver) : Prop := r.sigil ≠ '#' ∧ (r.bareHex = true → ¬ IsHexDigit r.sigil)

namespace Matcher

/-- The matchers that are responsible for one shape each. -/
def structured : List Matcher := [.hex, .functional, .designToken]

/-- The matcher is responsible for the text. -/
def Matches (r : Resolver) (s : String) (m : Matcher) : Prop := (attempt r s m).answer ≠ none

/-- Of these matchers one at most is responsible for the text. -/
def Exclusive (r : Resolver) (s : String) (ms : List Matcher) : Prop :=
  ∀ m ∈ ms, ∀ other ∈ ms, Matches r s m → Matches r s other → m = other

section
variable {r : Resolver} {s : String} {m : Matcher} {ms others later : List Matcher}

/-! ## Responsible matchers -/

theorem matches_hex_iff : Matches r s .hex ↔ s.toList.head? = some '#' ∨ r.Bare s := by
  have passes := @matchHex_eq_none_iff r.bareHex s
  unfold Matches attempt
  rw [ne_eq, passes, not_and_or, not_not, not_not, Resolver.Bare]

theorem matches_functional_iff : Matches r s .functional ↔ ∃ body, Functional.Encloses s body := by
  unfold Matches attempt
  rw [Functional.parse?, ne_eq, Option.map_eq_none_iff, ← ne_eq, Option.ne_none_iff_exists']
  simp only [Functional.body?_eq_some_iff]

theorem matches_designToken_iff : Matches r s .designToken ↔ ∃ name, DesignToken.Shape r.sigil s name := by
  cases form : DesignToken.name? r.sigil s with
  | none =>
    have passes : ¬ Matches r s .designToken := by
      unfold Matches attempt
      rw [matchToken, form]
      exact fun responsible => responsible rfl
    refine iff_of_false passes ?_
    rintro ⟨name, shape⟩
    rw [DesignToken.name?_eq_some_iff.mpr shape] at form
    cases form
  | some name =>
    refine iff_of_true ?_ ⟨name, DesignToken.name?_eq_some_iff.mp form⟩
    unfold Matches
    rw [attempt_designToken form]
    exact Option.some_ne_none _

theorem matches_named : Matches r s .named := Option.some_ne_none _

/-! ## The shapes exclude each other -/

theorem not_functional_of_hex (hex : Matches r s .hex) : ¬ Matches r s .functional := by
  rw [matches_functional_iff]
  rintro ⟨body, encloses⟩
  exact hex (Functional.matchHex_of_encloses encloses r.bareHex)

theorem not_functional_of_designToken (token : Matches r s .designToken) : ¬ Matches r s .functional := by
  obtain ⟨name, shape⟩ := matches_designToken_iff.mp token
  intro functional
  exact functional shape.notFunctional

/-- Only the sigil can tell the two apart, as what follows it may be digits. -/
theorem not_designToken_of_hex (apart : r.SigilApart) (hex : Matches r s .hex) : ¬ Matches r s .designToken := by
  rw [matches_designToken_iff]
  rintro ⟨name, shape⟩
  rcases matches_hex_iff.mp hex with marked | ⟨allowed, digits⟩
  · rw [shape.split, List.head?_cons] at marked
    exact apart.1 (Option.some.inj marked)
  · apply apart.2 allowed
    apply digits.digits
    rw [shape.split]
    exact List.mem_cons_self

theorem exclusive_of_apart (apart : r.SigilApart) (s : String) : Exclusive r s structured := by
  have order : ∀ m ∈ structured, m = .hex ∨ m = .functional ∨ m = .designToken := by decide
  intro m member other belongs first second
  rcases order m member with rfl | rfl | rfl <;> rcases order other belongs with rfl | rfl | rfl
  · rfl
  · exact absurd second (not_functional_of_hex first)
  · exact absurd second (not_designToken_of_hex apart first)
  · exact absurd first (not_functional_of_hex second)
  · rfl
  · exact absurd first (not_functional_of_designToken second)
  · exact absurd first (not_designToken_of_hex apart second)
  · exact absurd second (not_functional_of_designToken first)
  · rfl

/-- With any other sigil some text is of two shapes. -/
theorem apart_of_exclusive (exclusive : ∀ s, Exclusive r s structured) : r.SigilApart := by
  have collide (cs : List Char) (some : cs ≠ []) (chars : ∀ c ∈ cs, c.isAlphanum = true)
      (hex : Matches r (String.ofList (r.sigil :: cs)) .hex) : False := by
    have shape : DesignToken.Shape r.sigil (String.ofList (r.sigil :: cs)) (String.ofList cs) :=
      ⟨by simp, by simpa using some, fun c member => .inl (chars c (by simpa using member))⟩
    have token := matches_designToken_iff.mpr ⟨_, shape⟩
    cases exclusive _ .hex (by decide) .designToken (by decide) hex token
  constructor
  · intro mark
    apply collide ['0'] (List.cons_ne_nil _ _) (List.forall_mem_singleton.mpr rfl)
    exact matches_hex_iff.mpr (.inl (by simp [mark]))
  · intro allowed digit
    apply collide ['0', '0'] (List.cons_ne_nil _ _) (List.forall_mem_cons.mpr ⟨rfl, List.forall_mem_singleton.mpr rfl⟩)
    refine matches_hex_iff.mpr (.inr ⟨allowed, by simp, ?_⟩)
    rw [String.toList_ofList]
    have zero : IsHexDigit '0' := .inl (by decide)
    exact List.forall_mem_cons.mpr ⟨digit, List.forall_mem_cons.mpr ⟨zero, List.forall_mem_singleton.mpr zero⟩⟩

/-! ## Lists of matchers -/

theorem attempt_of_pass (passes : ¬ Matches r s m) : attempt r s m = ⟨none, []⟩ := by
  have nothing := not_not.mp passes
  cases m with
  | hex => exact congrArg (Attempt.mk · []) nothing
  | functional => exact congrArg (Attempt.mk · []) nothing
  | designToken =>
    cases form : DesignToken.name? r.sigil s with
    | none => rw [attempt, matchToken, form]
    | some name =>
      rw [attempt_designToken form] at nothing
      cases nothing
  | named => cases nothing

theorem firstMatch_of_matches (responsible : Matches r s m) : firstMatch r s (m :: ms) = attempt r s m := by
  obtain ⟨result, answers⟩ := Option.ne_none_iff_exists'.mp responsible
  have whole : attempt r s m = ⟨some result, (attempt r s m).asked⟩ := congrArg (Attempt.mk · _) answers
  rw [whole]
  exact firstMatch_of_answer whole

theorem firstMatch_of_not_matches (passes : ¬ Matches r s m) : firstMatch r s (m :: ms) = firstMatch r s ms :=
  firstMatch_of_pass (attempt_of_pass passes)

theorem firstMatch_append_of_pass (pass : ∀ m ∈ ms, ¬ Matches r s m) :
    firstMatch r s (ms ++ later) = firstMatch r s later := by
  induction ms with
  | nil => rfl
  | cons m ms ih =>
    obtain ⟨passes, pass⟩ := List.forall_mem_cons.mp pass
    rw [List.cons_append, firstMatch_of_not_matches passes, ih pass]

theorem firstMatch_append_of_matches (member : m ∈ ms) (responsible : Matches r s m) :
    firstMatch r s (ms ++ later) = firstMatch r s ms := by
  induction ms with
  | nil => cases member
  | cons first ms ih =>
    by_cases decides : Matches r s first
    · rw [List.cons_append, firstMatch_of_matches decides, firstMatch_of_matches decides]
    · rw [List.cons_append, firstMatch_of_not_matches decides, firstMatch_of_not_matches decides]
      apply ih
      rcases List.mem_cons.mp member with same | behind
      · exact absurd (same ▸ responsible) decides
      · exact behind

theorem firstMatch_eq_none_iff : (firstMatch r s ms).answer = none ↔ ∀ m ∈ ms, ¬ Matches r s m := by
  induction ms with
  | nil => simp [firstMatch]
  | cons m ms ih =>
    rw [List.forall_mem_cons]
    by_cases responsible : Matches r s m
    · rw [firstMatch_of_matches responsible]
      exact iff_of_false responsible fun pass => pass.1 responsible
    · rw [firstMatch_of_not_matches responsible, ih]
      exact (and_iff_right responsible).symm

/-- Of exclusive matchers the responsible one decides, wherever it stands. -/
theorem firstMatch_of_exclusive (exclusive : Exclusive r s ms) (member : m ∈ ms) (responsible : Matches r s m) :
    firstMatch r s ms = attempt r s m := by
  induction ms with
  | nil => cases member
  | cons first ms ih =>
    by_cases decides : Matches r s first
    · rw [firstMatch_of_matches decides, exclusive first List.mem_cons_self m member decides responsible]
    · rw [firstMatch_of_not_matches decides]
      rcases List.mem_cons.mp member with same | behind
      · exact absurd (same ▸ responsible) decides
      · apply ih _ behind
        intro one isOne other isOther
        exact exclusive one (List.mem_cons_of_mem _ isOne) other (List.mem_cons_of_mem _ isOther)

/-- The order of exclusive matchers is immaterial, whatever follows them. -/
theorem firstMatch_append_of_perm (exclusive : Exclusive r s others) (perm : ms.Perm others) (later : List Matcher) :
    firstMatch r s (ms ++ later) = firstMatch r s (others ++ later) := by
  by_cases decided : ∃ m ∈ others, Matches r s m
  · obtain ⟨m, member, responsible⟩ := decided
    have again : Exclusive r s ms := fun one isOne other isOther =>
      exclusive one (perm.mem_iff.mp isOne) other (perm.mem_iff.mp isOther)
    have belongs : m ∈ ms := perm.mem_iff.mpr member
    rw [firstMatch_append_of_matches belongs responsible, firstMatch_append_of_matches member responsible,
      firstMatch_of_exclusive again belongs responsible, firstMatch_of_exclusive exclusive member responsible]
  · have pass : ∀ m ∈ others, ¬ Matches r s m := fun m member responsible => decided ⟨m, member, responsible⟩
    rw [firstMatch_append_of_pass pass, firstMatch_append_of_pass fun m member => pass m (perm.mem_iff.mp member)]

end

/-- Main statement: the three shapes are exclusive exactly where the sigil is apart, and there any order of their matchers
in front of names gives what the usual order gives. A list gives nothing exactly when none of it is responsible, and
what stands behind names is without effect. -/
theorem order_immaterial (r : Resolver) :
    (r.SigilApart ↔ ∀ s, Exclusive r s structured) ∧
    (r.SigilApart → ∀ s order, order.Perm structured →
      firstMatch r s (order ++ [.named]) = firstMatch r s precedence ∧
      (firstMatch r s (order ++ [.named])).answer ≠ none) ∧
    ∀ s ms, ((firstMatch r s ms).answer = none ↔ ∀ m ∈ ms, (attempt r s m).answer = none) ∧
      (.named ∈ ms → ∀ later, firstMatch r s (ms ++ later) = firstMatch r s ms) := by
  refine ⟨⟨exclusive_of_apart, apart_of_exclusive⟩, ?_, ?_⟩
  · intro apart s order perm
    refine ⟨firstMatch_append_of_perm (exclusive_of_apart apart s) perm [.named], ?_⟩
    intro nothing
    exact firstMatch_eq_none_iff.mp nothing .named (by simp) matches_named
  · intro s ms
    refine ⟨?_, ?_⟩
    · simpa only [Matches, not_not] using @firstMatch_eq_none_iff r s ms
    · intro member later
      exact firstMatch_append_of_matches member matches_named

/-- A digit as sigil, where bare digits are not read: design tokens may go first. Behind names `#fff` stays a name. -/
theorem order_immaterial_of_digit :
    let r : Resolver := { sigil := 'f', bareHex := false }
    r.SigilApart ∧ [designToken, functional, hex].Perm structured ∧
      firstMatch r "fade" ([designToken, functional, hex] ++ [named]) = firstMatch r "fade" precedence ∧
      (firstMatch r "fade" precedence).answer = some (.error (.unresolvedToken "fade")) ∧
      firstMatch r "#fff" ([named] ++ [hex]) = firstMatch r "#fff" [named] := by
  intro r
  have apart : r.SigilApart := ⟨by decide, by decide⟩
  have perm : [designToken, functional, hex].Perm structured := by decide
  obtain ⟨_, orders, lists⟩ := order_immaterial r
  refine ⟨apart, perm, (orders apart "fade" _ perm).1, by decide +kernel, ?_⟩
  exact (lists "#fff" [named]).2 (List.mem_singleton_self _) [hex]

end Matcher

end ColorResolution
