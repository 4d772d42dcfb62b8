import ColorResolution.Binary.Basic
import ColorResolution.Text.Basic

/-!
# Numerals of the functional notation

A numeral is an optional sign, digits with an optional fraction, and an optional power of ten; either the digits before
the point or the whole fraction may be missing. Its value is worked out digit by digit in 64 bits, so it carries the
rounding of every step.

Embedded are the numbers that `parse_component` gets from the tokenizer of `cssparser`.
-/
namespace ColorResolution.Functional

open Binary

/-- A numeral by its parts. The power is its sign and its digits. -/
structure Numeral where
  negative : Bool
  whole : List Char
  fraction : List Char
  power : Option (Bool × List Char)
  deriving DecidableEq, Repr

/-- The digits after a point, and what follows them. A point without a digit is left alone. -/
def readFraction : List Char → List Char × List Char
  | '.' :: cs =>
    if (cs.takeWhile Char.isDigit).isEmpty then ([], '.' :: cs)
    else (cs.takeWhile Char.isDigit, cs.dropWhile Char.isDigit)
  | cs => ([], cs)

/-- A power of ten, and what follows it. A letter without a digit after it is left alone. -/
def readPower : List Char → Option (Bool × List Char) × List Char
  | [] => (none, [])
  | c :: cs =>
    let (negative, ds) := Text.readSign cs
    if (c == 'e' || c == 'E') && !(ds.takeWhile Char.isDigit).isEmpty then
      (some (negative, ds.takeWhile Char.isDigit), ds.dropWhile Char.isDigit)
    else (none, c :: cs)

/-- The longest numeral at the front of a text, and what follows it. -/
def Numeral.read? (cs : List Char) : Option (Numeral × List Char) :=
  let (negative, unsigned) := Text.readSign cs
  let whole := unsigned.takeWhile Char.isDigit
  let (fraction, afterFraction) := readFraction (unsigned.dropWhile Char.isDigit)
  if whole.isEmpty && fraction.isEmpty then none
  else
    let (power, rest) := readPower afterFraction
    some (⟨negative, whole, fraction, power⟩, rest)

/-- The value of the digits before the point: ten times what came before, plus the digit. -/
def wholeValue (ds : List Char) : Number :=
  ds.foldl (fun v d => double.add (double.mul v (double.ofNat 10)) (double.ofNat (Text.digitValue d)))
    (double.zero false)

/-- One tenth, rounded. -/
def tenth : Number := double.round false 1 10

/-- One more digit after the point: what it adds is itself times the weight of its place, and the next place has a tenth
of this weight. -/
def addPlace (state : Number × Number) (d : Char) : Number × Number :=
  (double.add state.1 (double.mul (double.ofNat (Text.digitValue d)) state.2), double.mul state.2 tenth)

/-- The value of the digits after the point. -/
def fractionValue (ds : List Char) : Number := (ds.foldl addPlace (double.zero false, tenth)).1

/-- The natural that a run of digits writes. -/
def natural (ds : List Char) : Nat := ds.foldl (fun n d => 10 * n + Text.digitValue d) 0

/-- The power of ten as a whole exponent. -/
def exponent : Option (Bool × List Char) → Int
  | none => 0
  | some (negative, ds) => if negative then -(natural ds : Int) else (natural ds : Int)

/-- The exponents for which the power of ten that numerals are scaled by is not the nearest number but the next larger
one. The first of these powers is a tie, and the second is close to one. -/
def raisedExponents : List Int := [23, 210]

/-- The next larger number, of a positive one whose significand has room. -/
def next : Number → Number
  | .finite s m e => .finite s (m + 1) e
  | x => x

/-- The power of ten that a numeral is scaled by. -/
def powerOfTen (k : Int) : Number :=
  if raisedExponents.contains k then next (double.powerOfTen k) else double.powerOfTen k

/-- The value of the numeral in 64 bits. -/
def Numeral.value (n : Numeral) : Number :=
  let unsigned := double.add (wholeValue n.whole) (fractionValue n.fraction)
  let signed := if n.negative then unsigned.negate else unsigned
  match n.power with
  | none => signed
  | some _ => double.mul signed (powerOfTen (exponent n.power))

end ColorResolution.Functional
