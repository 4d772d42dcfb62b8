import Mathlib
import ColorResolution.Proofs.Functional.Comments

/-!
# Letter case in the functional notation

The name of the notation and the letter before a power are read in either case, and no other letter is read at all. Main
statement: two texts that differ in nothing but the case of letters are both of the notation or both not, and what they
enclose decodes alike.
-/
namespace ColorResolution

namespace Text

/-- A letter in small is the character itself, or it comes from one of the capitals. -/
theorem toLower_cases {p : Char → Char → Prop} (same : ∀ c, p c c)
    (capital : ∀ n < 91, (Char.ofNat n).isUpper = true → p (Char.ofNat n) (Char.ofNat n).toLower) (c : Char) :
    p c c.toLower := by
  by_cases upper : c.isUpper = true
  · have small : c.toNat < 91 := by
      simp only [Char.isUpper, decide_eq_true_eq, UInt32.le_iff_toNat_le] at upper
      have bound : c.toNat ≤ 90 := upper.2
      omega
    have holds := capital c.toNat small
    rw [Char.ofNat_toNat] at holds
    exact holds upper
  · rw [Char.toLower_eq_of_not_isUpper upper]
    exact same c

theorem toLower_of_not_isAlpha {c : Char} (noLetter : c.isAlpha = false) : c.toLower = c := by
  apply Char.toLower_eq_of_not_isUpper
  intro upper
  simp [Char.isAlpha, upper] at noLetter

theorem toLower_eq_iff {d : Char} (noLetter : d.isAlpha = false) (c : Char) : c.toLower = d ↔ c = d := by
  constructor
  · intro lowered
    have plain : c.isAlpha = false := by rw [← Char.isAlpha_toLower_eq_isAlpha, lowered, noLetter]
    rw [← toLower_of_not_isAlpha plain, lowered]
  · intro same
    rw [same, toLower_of_not_isAlpha noLetter]

theorem dropEnds_map (p : Char → Bool) (f : Char → Char) (cs : List Char) :
    dropEnds p (cs.map f) = (dropEnds (p ∘ f) cs).map f := by
  simp only [dropEnds, List.dropWhile_map, ← List.map_reverse]

end Text

namespace Functional

/-! ## Numerals -/

section
variable {c : Char} {cs rest : List Char}

theorem isDigit_toLower (c : Char) : c.toLower.isDigit = c.isDigit :=
  Text.toLower_cases (p := fun c d => d.isDigit = c.isDigit) (fun _ => rfl) (by decide) c

theorem isPowerLetter_toLower (c : Char) : (c.toLower == 'e' || c.toLower == 'E') = (c == 'e' || c == 'E') :=
  Text.toLower_cases (p := fun c d => (d == 'e' || d == 'E') = (c == 'e' || c == 'E')) (fun _ => rfl) (by decide) c

theorem isSpace_toLower (c : Char) : isSpace c.toLower = isSpace c :=
  Text.toLower_cases (p := fun c d => isSpace d = isSpace c) (fun _ => rfl) (by decide) c

theorem isDigit_comp_toLower : Char.isDigit ∘ Char.toLower = Char.isDigit := funext isDigit_toLower

/-- Digits have no case. -/
theorem takeWhile_digits_toLower (cs : List Char) :
    (cs.map Char.toLower).takeWhile Char.isDigit = cs.takeWhile Char.isDigit := by
  rw [List.takeWhile_map, isDigit_comp_toLower]
  apply (List.map_congr_left _).trans (List.map_id _)
  intro d member
  have digit : d.isDigit = true := List.mem_takeWhile_imp member
  apply Char.toLower_eq_of_not_isUpper
  intro upper
  simp only [Char.isDigit, Char.isUpper, Bool.and_eq_true, decide_eq_true_eq, UInt32.le_iff_toNat_le] at digit upper
  have large : 65 ≤ d.toNat := upper.1
  have small : d.toNat ≤ 57 := digit.2
  omega

theorem dropWhile_digits_toLower (cs : List Char) :
    (cs.map Char.toLower).dropWhile Char.isDigit = (cs.dropWhile Char.isDigit).map Char.toLower := by
  rw [List.dropWhile_map, isDigit_comp_toLower]

theorem readSign_of_other (plus : c ≠ '+') (minus : c ≠ '-') : Text.readSign (c :: rest) = (false, c :: rest) := by
  unfold Text.readSign
  split <;> simp_all

theorem readSign_toLower (cs : List Char) :
    Text.readSign (cs.map Char.toLower) = ((Text.readSign cs).1, (Text.readSign cs).2.map Char.toLower) := by
  cases cs with
  | nil => rfl
  | cons c cs =>
    by_cases plus : c = '+'
    · subst plus
      rfl
    by_cases minus : c = '-'
    · subst minus
      rfl
    rw [List.map_cons, readSign_of_other plus minus, readSign_of_other, List.map_cons]
    · rwa [ne_eq, Text.toLower_eq_iff rfl]
    · rwa [ne_eq, Text.toLower_eq_iff rfl]

theorem readFraction_of_other (noPoint : c ≠ '.') : readFraction (c :: rest) = ([], c :: rest) := by
  unfold readFraction
  split <;> simp_all

theorem readFraction_toLower (cs : List Char) :
    readFraction (cs.map Char.toLower) = ((readFraction cs).1, (readFraction cs).2.map Char.toLower) := by
  cases cs with
  | nil => rfl
  | cons c cs =>
    by_cases point : c = '.'
    · subst point
      have point : Char.toLower '.' = '.' := rfl
      simp only [List.map_cons, point, readFraction, takeWhile_digits_toLower, dropWhile_digits_toLower]
      split <;> rfl
    · rw [List.map_cons, readFraction_of_other point, readFraction_of_other, List.map_cons]
      rwa [ne_eq, Text.toLower_eq_iff rfl]

theorem readPower_toLower (cs : List Char) :
    readPower (cs.map Char.toLower) = ((readPower cs).1, (readPower cs).2.map Char.toLower) := by
  cases cs with
  | nil => rfl
  | cons c cs =>
    simp only [List.map_cons, readPower, readSign_toLower, takeWhile_digits_toLower, dropWhile_digits_toLower,
      isPowerLetter_toLower]
    split <;> rfl

theorem Numeral.read?_toLower (cs : List Char) :
    Numeral.read? (cs.map Char.toLower) = (Numeral.read? cs).map fun found => (found.1, found.2.map Char.toLower) := by
  simp only [Numeral.read?, readSign_toLower, takeWhile_digits_toLower, dropWhile_digits_toLower, readFraction_toLower,
    readPower_toLower]
  split <;> rfl

end

/-! ## Components and bodies -/

theorem Component.read?_toLower (piece : List Char) :
    Component.read? (piece.map Char.toLower) = Component.read? piece := by
  have space : isSpace ∘ Char.toLower = isSpace := funext isSpace_toLower
  rw [Component.read?, Text.dropEnds_map, space, Numeral.read?_toLower, Component.read?]
  rcases Numeral.read? (Text.dropEnds isSpace piece) with _ | ⟨n, _ | ⟨c, _ | ⟨d, rest⟩⟩⟩
  · rfl
  · rfl
  · -- the percent sign is the one character that may follow
    by_cases percent : c = '%'
    · subst percent
      rfl
    · have other : c.toLower ≠ '%' := by rwa [ne_eq, Text.toLower_eq_iff rfl]
      simp [percent, other]
  · simp

theorem uncomment_toLower (inside : Bool) (cs : List Char) :
    uncomment inside (cs.map Char.toLower) = (uncomment inside cs).map Char.toLower := by
  have follows {d : Char} (noLetter : d.isAlpha = false) {cs : List Char}
      (next : ∃ more, cs.map Char.toLower = d :: more) : ∃ more, cs = d :: more := by
    obtain ⟨more, split⟩ := next
    obtain ⟨c, rest, rfl, lowered, _⟩ := List.map_eq_cons_iff.mp split
    exact ⟨rest, by rw [(Text.toLower_eq_iff noLetter c).mp lowered]⟩
  fun_induction uncomment inside cs with
  | case1 => rfl
  | case2 cs ih =>
    have blank : uncomment false (('/' :: '*' :: cs).map Char.toLower) = ' ' :: uncomment true (cs.map Char.toLower) :=
      rfl
    rw [blank, ih]
    rfl
  | case3 c cs plain ih =>
    rw [List.map_cons, uncomment_outside, ih, List.map_cons]
    rintro ⟨slash, star⟩
    obtain ⟨more, rfl⟩ := follows rfl star
    exact plain more ((Text.toLower_eq_iff rfl c).mp slash) rfl
  | case4 cs ih =>
    have closed : uncomment true (('*' :: '/' :: cs).map Char.toLower) = uncomment false (cs.map Char.toLower) := rfl
    rw [closed, ih]
  | case5 c cs stays ih =>
    rw [List.map_cons, uncomment_inside, ih]
    rintro ⟨star, slash⟩
    obtain ⟨more, rfl⟩ := follows rfl slash
    exact stays more ((Text.toLower_eq_iff rfl c).mp star) rfl

theorem pieces_toLower (cs : List Char) : pieces (cs.map Char.toLower) = (pieces cs).map (List.map Char.toLower) := by
  induction cs with
  | nil => rfl
  | cons c cs ih =>
    simp only [List.map_cons, pieces, Text.toLower_eq_iff (d := ',') rfl, ih]
    split
    · rfl
    · cases pieces cs <;> rfl

theorem decode?_toLower (body : List Char) : decode? (body.map Char.toLower) = decode? body := by
  have piecewise : (Component.read? ∘ List.map Char.toLower) = Component.read? := funext Component.read?_toLower
  rw [decode?, uncomment_toLower, pieces_toLower, List.mapM_map, piecewise, decode?]

theorem isName_toLower (name : List Char) : isName (name.map Char.toLower) = isName name := by
  have again : Char.toLower ∘ Char.toLower = Char.toLower := funext Char.toLower_toLower_eq_toLower
  simp only [isName, List.map_map, again]

theorem body?_toLower (cs : List Char) : body? (cs.map Char.toLower) = (body? cs).map (List.map Char.toLower) := by
  have bracket : (· != '(') ∘ Char.toLower = (· != '(') := by
    funext c
    rw [Function.comp_apply, Bool.eq_iff_iff, bne_iff_ne, bne_iff_ne, ne_eq, Text.toLower_eq_iff rfl]
  simp only [body?, List.dropWhile_map, List.takeWhile_map, bracket, isName_toLower]
  cases cs.dropWhile (· != '(') with
  | nil => rfl
  | cons opening rest =>
    have ends : ((rest.map Char.toLower).getLast? == some ')') = (rest.getLast? == some ')') := by
      rw [List.getLast?_map]
      cases rest.getLast? with
      | none => rfl
      | some last =>
        rw [Option.map_some, Bool.eq_iff_iff, beq_iff_eq, beq_iff_eq, Option.some_inj, Option.some_inj,
          Text.toLower_eq_iff rfl]
    simp only [List.map_cons, ends, ← List.map_dropLast]
    split <;> rfl

/-- Main statement: the case of letters does not change whether a text is of the notation, nor what it encloses. -/
theorem decode?_body?_congr {cs ds : List Char} (same : cs.map Char.toLower = ds.map Char.toLower) :
    (body? cs).map decode? = (body? ds).map decode? := by
  have folded (cs : List Char) : (body? (cs.map Char.toLower)).map decode? = (body? cs).map decode? := by
    rw [body?_toLower, Option.map_map]
    congr 1
    exact funext decode?_toLower
  rw [← folded cs, same, folded]

end Functional

end ColorResolution
