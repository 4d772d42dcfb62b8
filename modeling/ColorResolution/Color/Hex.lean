import ColorResolution.Error
import ColorResolution.Color.Basic
import ColorResolution.Text.Basic

/-!
# Hexadecimal colours

A colour is written `#rrggbb`, or `#rrggbbaa` when it is not opaque, in small letters. Read are three, four, six or
eight digits of either case, of which three and four stand for doubled digits. Every written form reads back as its
colour.

Embedded are `parse_hex` with `is_hex_digits`, `from_hex`, and the `to_hex` by which a `Color` is displayed.
-/
namespace ColorResolution.Hex

def isDigit (c : Char) : Bool :=
  let n := c.toNat
  (0x30 ≤ n && n ≤ 0x39) || (0x41 ≤ n && n ≤ 0x46) || (0x61 ≤ n && n ≤ 0x66)

/-- The value of a digit; of any other character nothing is said. -/
def digitValue (c : Char) : Nat :=
  let n := c.toNat
  if n ≤ 0x39 then n - 0x30 else if n ≤ 0x46 then n - 0x37 else n - 0x57

/-- The digit of a value below sixteen. -/
def digit (n : Nat) : Char := if n < 10 then Char.ofNat (0x30 + n) else Char.ofNat (0x57 + n)

/-- The two digits of a byte. -/
def byteDigits (b : UInt8) : List Char := [digit (b.toNat / 16), digit (b.toNat % 16)]

/-- The written form, with the alpha byte only where it is not 255. -/
def encode (c : Color) : List Char :=
  '#' :: (byteDigits c.r ++ byteDigits c.g ++ byteDigits c.b ++ if c.isOpaque then [] else byteDigits c.a)

/-- The byte of two digit values. -/
def byte (high low : Nat) : UInt8 := UInt8.ofNat (16 * high + low)

/-- The colour of three, four, six or eight digit values. -/
def ofValues? : List Nat → Option Color
  | [r, g, b] => some ⟨byte r r, byte g g, byte b b, 255⟩
  | [r, g, b, a] => some ⟨byte r r, byte g g, byte b b, byte a a⟩
  | [r, r', g, g', b, b'] => some ⟨byte r r', byte g g', byte b b', 255⟩
  | [r, r', g, g', b, b', a, a'] => some ⟨byte r r', byte g g', byte b b', byte a a'⟩
  | _ => none

/-- The colour of a run of digits, without a leading mark. -/
def decode? (cs : List Char) : Option Color :=
  if cs.all isDigit then ofValues? (cs.map digitValue) else none

/-- Drops one leading mark. -/
def dropMark : List Char → List Char
  | '#' :: cs => cs
  | cs => cs

/-- Reads a hexadecimal colour, with or without the mark, between blanks. A failure carries the whole text. -/
def parse (s : String) : Except ColorError Color :=
  match decode? (dropMark (Text.trim s).toList) with
  | some c => .ok c
  | none => .error (.invalidHex s)

theorem digitValue_digit : ∀ n < 16, digitValue (digit n) = n := by decide

theorem isDigit_digit : ∀ n < 16, isDigit (digit n) = true := by decide

theorem decode?_isSome_iff (cs : List Char) :
    (decode? cs).isSome = (cs.all isDigit && (cs.length == 3 || cs.length == 4 || cs.length == 6 || cs.length == 8)) := by
  unfold decode?
  split
  · rename_i h
    rw [h, Bool.true_and]
    rcases cs with _ | ⟨_, _ | ⟨_, _ | ⟨_, _ | ⟨_, _ | ⟨_, _ | ⟨_, _ | ⟨_, _ | ⟨_, _ | ⟨_, _⟩⟩⟩⟩⟩⟩⟩⟩⟩ <;>
      simp [ofValues?]
  · rename_i h
    simp [h]

/-- Reading a written byte gives the byte. -/
theorem byte_div_mod (b : UInt8) : byte (b.toNat / 16) (b.toNat % 16) = b := by
  rw [byte, Nat.div_add_mod]
  exact UInt8.ofNat_toNat

end ColorResolution.Hex

namespace ColorResolution.Color

/-- The hexadecimal form as a text. -/
def toHex (c : Color) : String := String.ofList (Hex.encode c)

end ColorResolution.Color
