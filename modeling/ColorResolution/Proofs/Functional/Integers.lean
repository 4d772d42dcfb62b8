import Mathlib
import ColorResolution.Proofs.Color.Levels
import ColorResolution.Proofs.Resolver.Shapes
import ColorResolution.Proofs.Text.Decimal

/-!
# Integers in the functional notation

The value of a numeral is worked out digit by digit, and every step may round. Digits that write an integer still give a
number that is shown as this integer is, however many they are. Main statement: a text that lists integers is resolved
to the colour of their levels, by every resolver.
-/
namespace ColorResolution

namespace Functional

open Binary Binary.Number

/-! ## Numerals -/

/-- One more digit. -/
theorem hasLevel_digit {v : Number} {n : ℕ} (level : v.HasLevel n) (d : Char) :
    (double.add (double.mul v (double.ofNat 10)) (double.ofNat (Text.digitValue d))).HasLevel
      (10 * n + Text.digitValue d) := by
  have holds := Format.double_holdsBytes
  have shifted := Format.hasLevel_mul_ofNat holds level (k := 10) (by omega) (by omega)
  rw [mul_comm 10 n]
  exact Format.hasLevel_add holds shifted (Format.hasLevel_ofNat holds (Text.digitValue d))

/-- The value of the digits goes along with the natural that they write. -/
theorem hasLevel_wholeValue (ds : List Char) : (wholeValue ds).HasLevel (natural ds) := by
  have level := Format.hasLevel_zero double
  rw [wholeValue, natural]
  generalize double.zero false = v at level ⊢
  generalize 0 = n at level ⊢
  induction ds generalizing v n with
  | nil => exact level
  | cons d ds ih => exact ih _ _ (hasLevel_digit level d)

theorem natural_toDigits (n : ℕ) : natural (Nat.toDigits 10 n) = n := Nat.ofDigitChars_ten_toDigits

/-- The numeral of an integer has neither fraction nor power. -/
def Numeral.ofInt (z : ℤ) : Numeral := ⟨decide (z < 0), Nat.toDigits 10 z.natAbs, [], none⟩

theorem Numeral.written_ofInt (z : ℤ) : (ofInt z).Written (toString z).toList := by
  have sign : Sign (decide (z < 0)) (Text.hyphen z) := by
    rw [Text.hyphen]
    split
    next negative => rw [decide_eq_true negative]; exact .minus
    next natural => rw [decide_eq_false natural]; exact .none
  have digits : Digits (Nat.toDigits 10 z.natAbs) := fun _ member => Text.isDigit_of_mem member
  have written := Written.parts sign digits .none (.inl Nat.toDigits_ne_nil) .none
  rwa [List.append_nil, List.append_nil, ← Text.toList_toString] at written

theorem Numeral.shows_value_ofInt (z : ℤ) : (ofInt z).value.Shows z := by
  have whole := hasLevel_wholeValue (Nat.toDigits 10 z.natAbs)
  rw [natural_toDigits] at whole
  have unsigned := Format.hasLevel_add Format.double_holdsBytes whole (Format.hasLevel_zero double)
  simp only [value, ofInt, decide_eq_true_eq]
  split
  next negative => exact .negative negative unsigned.minus_negate
  next natural =>
    have size : z = z.natAbs := by omega
    rw [size]
    exact .natural unsigned

/-! ## Lists of components -/

def Component.ofInt (z : ℤ) : Component := .number (single.convert (Numeral.ofInt z).value)

theorem Component.gives_ofInt (z : ℤ) : (ofInt z).Gives (Channel.level z) := by
  rw [gives_iff]
  exact (Channel.ofLevel_of_shows (Format.shows_convert Format.single_holdsBytes (Numeral.shows_value_ofInt z))).symm

theorem Component.givesAlpha_ofInt (z : ℤ) : (ofInt z).GivesAlpha (Channel.alphaLevel z) := by
  rw [givesAlpha_iff]
  exact (Channel.ofAlpha_of_shows (Format.shows_convert Format.single_holdsBytes (Numeral.shows_value_ofInt z))).symm

theorem lists_integers {zs : List ℤ} (some : zs ≠ []) :
    Lists ([','].intercalate (zs.map fun z => (toString z).toList)) (zs.map Component.ofInt) := by
  induction zs with
  | nil => exact absurd rfl some
  | cons z zs ih =>
    have first : (Component.ofInt z).Written (toString z).toList :=
      .number (Numeral.written_ofInt z) ((Numeral.means_iff (Numeral.written_ofInt z)).mpr rfl)
    cases zs with
    | nil =>
      have alone := Lists.last .nil first (.closed .nil)
      simpa using alone
    | cons second rest =>
      have more := Lists.more .nil first .nil (ih (List.cons_ne_nil _ _))
      simpa [List.intercalate_cons_cons] using more

end Functional

namespace Resolver

/-- What the notation reads no other matcher gets to see. -/
theorem resolve_of_encloses {s : String} {body : List Char} {result : Except ColorError Color} (r : Resolver)
    (trimmed : Text.trim s = s) (encloses : Functional.Encloses s body)
    (reads : Functional.parse? s = some result) : r.resolve s = result := by
  have some : s ≠ "" := by
    rintro rfl
    exact absurd (Functional.bracket_of_encloses encloses) (by decide)
  have decided := r.decided_resolution s
  rw [trimmed] at decided
  rw [resolve, decided.unique (.functional some (Functional.matchHex_of_encloses encloses r.bareHex) reads)]

end Resolver

end ColorResolution
