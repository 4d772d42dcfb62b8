import ColorResolution.Json.Basic
import ColorResolution.Json.Fault
import ColorResolution.Text.Basic

/-!
# JSON numbers

Digits are gathered into a significand as long as it fits 64 bits; later digits of the whole part count only as powers
of ten and later digits of the fraction not at all. A number with a point, with an exponent or with too many digits is
then scaled by a power of ten in 64 bits, which rounds twice; other numbers stay integers. Minus zero, and a negative
integer below the range of 64 bits, are floating numbers.

Embedded is how `serde_json` reads a number.
-/
namespace ColorResolution.Json

open Binary

/-- The largest significand. -/
def maxSignificand : Nat := 18446744073709551615

/-- The largest exponent that is told from an infinite one. -/
def maxExponent : Nat := 2147483647

def startsWithDigit : List Char → Bool
  | [] => false
  | c :: _ => c.isDigit

/-- Appends digits to a significand while it stays in range: the significand, how many digits it took, and what
follows them. -/
def gather (significand : Nat) : List Char → Nat × Nat × List Char
  | [] => (significand, 0, [])
  | c :: cs =>
    let next := significand * 10 + Text.digitValue c
    if c.isDigit && next ≤ maxSignificand then
      let (total, count, rest) := gather next cs
      (total, count + 1, rest)
    else (significand, 0, c :: cs)

/-- Divides by `10 ^ n`, in steps of at most 308 powers. -/
def shrink (x : Number) (n : Nat) : Number :=
  if n ≤ 308 then double.div x (double.powerOfTen n)
  else if x.isZero then x
  else shrink (double.div x (double.powerOfTen 308)) (n - 308)
termination_by n

/-- Multiplies by `10 ^ n`; `none` if that leaves the range. -/
def grow? (x : Number) (n : Nat) : Option Number :=
  if n ≤ 308 then
    let y := double.mul x (double.powerOfTen n)
    if y.isInfinite then none else some y
  else if x.isZero then some x
  else none

def withSign (negative : Bool) (x : Number) : Number := if negative then x.negate else x

/-- The number `± significand · 10 ^ exponent`, in front of what is left of the text. -/
def scaled (negative : Bool) (significand : Nat) (exponent : Int) (rest : List Char) :
    Except Fault (Numeral × List Char) :=
  let x := double.ofNat significand
  if exponent < 0 then .ok (.real (withSign negative (shrink x exponent.natAbs)), rest)
  else
    match grow? x exponent.natAbs with
    | some y => .ok (.real (withSign negative y), rest)
    | none => .error (.before .numberOutOfRange rest)

/-- The natural written by the digits of an exponent and what follows them, or, as the error, what follows the digit
that took it out of range. -/
def exponentDigits (n : Nat) : List Char → Except (List Char) (Nat × List Char)
  | [] => .ok (n, [])
  | c :: cs =>
    if c.isDigit then
      let next := n * 10 + Text.digitValue c
      if next ≤ maxExponent then exponentDigits next cs else .error cs
    else .ok (n, c :: cs)

/-- Ends a number with the exponent behind its letter; `shift` is the power of ten already due. -/
def withExponent (negative : Bool) (significand : Nat) (shift : Int) (cs : List Char) :
    Except Fault (Numeral × List Char) :=
  let (down, unsigned) := Text.readSign cs
  if unsigned.isEmpty then .error ⟨.endInValue, 0⟩
  else if !startsWithDigit unsigned then .error (.behind .invalidNumber unsigned)
  else
    match exponentDigits 0 unsigned with
    | .ok (n, rest) => scaled negative significand (if down then shift - n else shift + n) rest
    | .error rest =>
      if significand != 0 && !down then .error (.before .numberOutOfRange rest)
      else .ok (.real (withSign negative (double.zero false)), rest.dropWhile Char.isDigit)

/-- Ends a number with an exponent, if there is one. -/
def withPower (negative : Bool) (significand : Nat) (shift : Int) (cs : List Char) :
    Except Fault (Numeral × List Char) :=
  match cs with
  | 'e' :: rest => withExponent negative significand shift rest
  | 'E' :: rest => withExponent negative significand shift rest
  | rest => scaled negative significand shift rest

/-- Ends a number with the fraction behind its point. -/
def withFraction (negative : Bool) (significand : Nat) (shift : Int) (cs : List Char) :
    Except Fault (Numeral × List Char) :=
  let (total, count, rest) := gather significand cs
  if startsWithDigit rest then withPower negative total (shift - count) (rest.dropWhile Char.isDigit)
  else if count = 0 then .error (.behind (if rest.isEmpty then .endInValue else .invalidNumber) rest)
  else withPower negative total (shift - count) rest

/-- An integer of at most 64 bits, or the floating number next to it. -/
def integer (negative : Bool) (significand : Nat) : Numeral :=
  if negative then
    if significand = 0 || 9223372036854775808 < significand then .real (double.ofNat significand).negate
    else .integer (-(significand : Int))
  else .integer significand

/-- Reads a number behind its sign. -/
def readUnsigned (negative : Bool) (cs : List Char) : Except Fault (Numeral × List Char) :=
  match cs with
  | [] => .error ⟨.endInValue, 0⟩
  | c :: following =>
    if !c.isDigit then .error (.behind .invalidNumber cs)
    else if c = '0' && startsWithDigit following then .error (.behind .invalidNumber following)
    else
      let (significand, _, rest) := gather 0 cs
      let long := rest.takeWhile Char.isDigit
      match rest.dropWhile Char.isDigit with
      | '.' :: more => withFraction negative significand long.length more
      | more =>
        if long.isEmpty && more.head? != some 'e' && more.head? != some 'E' then
          .ok (integer negative significand, more)
        else withPower negative significand long.length more

/-- Reads the number at the front of a text, and gives what follows. -/
def readNumeral : List Char → Except Fault (Numeral × List Char)
  | '-' :: cs => readUnsigned true cs
  | cs => readUnsigned false cs

end ColorResolution.Json
