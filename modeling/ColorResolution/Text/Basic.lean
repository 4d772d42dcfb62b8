/-!
# Characters

The characters that Unicode calls white space, and a text without the blanks at its two ends. The zero width space,
the byte order mark and the four separators of ASCII are no blanks. Digits and signs are those of decimal numbers.

Embedded is the trimming with which `resolve`, `interpret`, `parse_hex` and `named_color` begin.
-/
namespace ColorResolution.Text

/-- Whether the character has the Unicode property White_Space. -/
def isBlank (c : Char) : Bool :=
  let n := c.toNat
  (9 ≤ n && n ≤ 13) || n == 0x20 || n == 0x85 || n == 0xA0 || n == 0x1680 || (0x2000 ≤ n && n ≤ 0x200A) ||
    n == 0x2028 || n == 0x2029 || n == 0x202F || n == 0x205F || n == 0x3000

/-- The characters left when those that satisfy `p` are dropped at both ends. -/
def dropEnds (p : Char → Bool) (cs : List Char) : List Char :=
  ((cs.dropWhile p).reverse.dropWhile p).reverse

/-- The text without the blanks at its ends. -/
def trim (s : String) : String := String.ofList (dropEnds isBlank s.toList)

theorem toList_trim (s : String) : (trim s).toList = dropEnds isBlank s.toList := by
  simp [trim]

/-! ## Decimal numbers -/

/-- The value of a digit. -/
def digitValue (c : Char) : Nat := c.toNat - 0x30

/-- A leading sign, true for minus, and what follows it. -/
def readSign : List Char → Bool × List Char
  | '+' :: cs => (false, cs)
  | '-' :: cs => (true, cs)
  | cs => (false, cs)

end ColorResolution.Text
