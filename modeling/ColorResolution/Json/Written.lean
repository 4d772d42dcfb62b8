import ColorResolution.Decimal.Shortest
import ColorResolution.Json.Basic
import ColorResolution.Text.Quoted

/-!
# Values as messages name them

A message about a value of the wrong kind names the kind and, for a value without parts, the value. Floating numbers
are written with the fewest digits that read back: positionally while the leading digit stands between the fifth place
after the point and the sixteenth before it, and with an exponent otherwise.

Embedded is how `serde_json` names the value that `from_json` did not expect.
-/
namespace ColorResolution.Json

open Binary

/-- The leading digits whose exponents are written positionally. -/
def leastPositional : Int := -5

def greatestPositional : Int := 15

def zeros (n : Int) : List Char := List.replicate n.toNat '0'

/-- A decimal written positionally, with at least one digit on each side of the point. -/
def positional (d : Decimal.Digits) : List Char :=
  if d.point ≤ 0 then ['0', '.'] ++ zeros (-d.point) ++ d.digits
  else
    let whole := d.digits.take d.point.toNat
    let fraction := d.digits.drop d.point.toNat
    whole ++ zeros (d.point - whole.length) ++ ['.'] ++ (if fraction.isEmpty then ['0'] else fraction)

/-- A decimal written with an exponent, whose sign is always shown. -/
def scientific (d : Decimal.Digits) : List Char :=
  let exponent := d.point - 1
  let fraction := d.digits.drop 1
  d.digits.take 1 ++ (if fraction.isEmpty then [] else '.' :: fraction) ++
    ['e', if exponent < 0 then '-' else '+'] ++ Nat.toDigits 10 exponent.natAbs

/-- A floating number of 64 bits as a text. -/
def writtenReal : Number → String
  | .nan => "NaN"
  | .infinite s => if s then "-inf" else "inf"
  | .finite s m e =>
    let unsigned :=
      if m = 0 then ['0', '.', '0']
      else
        let d := Decimal.shortest double m e
        if leastPositional ≤ d.point - 1 && d.point - 1 ≤ greatestPositional then positional d else scientific d
    String.ofList (if s then '-' :: unsigned else unsigned)

/-- What a message calls a value. -/
def Value.described : Value → String
  | .null => "null"
  | .boolean b => s!"boolean `{b}`"
  | .number (.integer n) => s!"integer `{n}`"
  | .number (.real x) => s!"floating point `{writtenReal x}`"
  | .string s => s!"string {Text.quote s}"
  | .array _ => "sequence"
  | .object _ => "map"

example : writtenReal (double.round false 3 2) = "1.5" := by decide +kernel

example : writtenReal (double.ofNat 18446744073709551616) = "1.8446744073709552e+19" := by decide +kernel

example : writtenReal (double.ofNat ((1 <<< 102) - 1)) = "5.070602400912918e+30" := by decide +kernel

example : writtenReal (double.zero true) = "-0.0" := by decide +kernel

end ColorResolution.Json
