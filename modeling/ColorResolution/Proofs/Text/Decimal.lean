import Mathlib
import ColorResolution.Text.Basic

/-!
# Integers as texts

An integer is written with a hyphen if it is negative, and with the digits of its size, which never begin with a zero
that could be left out. Readers go through the digits from the left, so beside the digits stands what they add up to.
-/
namespace ColorResolution.Text

/-- The hyphen before a negative integer. -/
def hyphen (z : ℤ) : List Char := if z < 0 then ['-'] else []

theorem toList_toString (z : ℤ) : (toString z).toList = hyphen z ++ Nat.toDigits 10 z.natAbs := by
  rw [Int.toString_eq_repr, Int.repr_eq_if, hyphen]
  split
  next natural =>
    have size : z.toNat = z.natAbs := by omega
    rw [if_neg (by omega), Nat.toList_repr, size, List.nil_append]
  next negative =>
    have size : (-z).toNat = z.natAbs := by omega
    rw [if_pos (by omega), String.toList_append, Nat.toList_repr, size]
    rfl

theorem isDigit_of_mem {n : ℕ} {d : Char} (member : d ∈ Nat.toDigits 10 n) : d.isDigit = true :=
  Nat.isDigit_of_mem_toDigits (by decide) (by decide) member

/-- Only zero is written with a zero in front. -/
theorem head_toDigits_ne_zero {n : ℕ} (positive : 0 < n) : (Nat.toDigits 10 n).head? ≠ some '0' := by
  induction n using Nat.strong_induction_on with
  | _ n ih =>
    rcases Nat.lt_or_ge n 10 with short | long
    · rw [Nat.toDigits_of_lt_base short, List.head?_cons, ne_eq, Option.some_inj, Nat.digitChar_eq_zero]
      omega
    · rw [Nat.toDigits_of_base_le (by decide) long, List.head?_append_of_ne_nil _ Nat.toDigits_ne_nil]
      exact ih (n / 10) (by omega) (by omega)

/-- A text is left as it stands if neither of its ends is blank. -/
theorem trim_of_ends {s : String} {first last : Char} (front : s.toList.head? = some first)
    (back : s.toList.getLast? = some last) (solid : isBlank first = false) (solid' : isBlank last = false) :
    trim s = s := by
  have kept {cs : List Char} {c : Char} (head : cs.head? = some c) (solid : isBlank c = false) :
      cs.dropWhile isBlank = cs := by
    rw [List.eq_cons_of_mem_head? head]
    exact List.dropWhile_cons_of_neg (by simp [solid])
  rw [← List.head?_reverse] at back
  rw [trim, dropEnds, kept front solid, kept back solid', List.reverse_reverse, String.ofList_toList]

end ColorResolution.Text
