import ColorResolution.Binary.Basic

/-!
# Shortest decimals

The shortest decimal that rounds to a given binary number. The decimals of one digit are tried first, then those of
two, and so on: on each grid only the two neighbours of the number matter. Of two hits the nearer one is taken, of two
equally near ones the even one.

So `serde_json` writes the floating numbers that its messages name.
-/
namespace ColorResolution.Decimal

open Binary

/-- The decimal `0.d₁d₂… · 10 ^ point`. -/
structure Digits where
  digits : List Char
  point : Int
  deriving DecidableEq, Repr

def pow10 (k : Int) : Nat := Nat.pow 10 k.toNat

/-- The numbers that round to a given one, as multiples of `num`-quarters over a common denominator: `low` and `high`
are the ends, which belong to the interval where `closed` says so. -/
structure Interval where
  low : Nat
  middle : Nat
  high : Nat
  closed : Bool

/-- The interval of `m · 2 ^ e`, in units of `2 ^ (e - 2)`; it is narrower below the least number of a power of two. -/
def interval (f : Format) (m : Nat) (e : Int) : Interval :=
  let narrow := m == 1 <<< (f.precision - 1) && f.leastUnit < e
  ⟨4 * m - (if narrow then 1 else 2), 4 * m, 4 * m + 2, m % 2 == 0⟩

/-- The exponent `p` with `10 ^ (p - 1) ≤ m · 2 ^ e < 10 ^ p`, for a positive `m`. -/
def magnitude (m : Nat) (e : Int) : Int :=
  let guess := ((m.log2 : Int) + e) * 30103 / 100000 + 1
  let num := scaleUp m e
  let den := scaleUp 1 (-e)
  if pow10 guess * den ≤ num * pow10 (-guess) then guess + 1
  else if num * pow10 (1 - guess) < pow10 (guess - 1) * den then guess - 1
  else guess

/-- The multiple of `10 ^ (p - n)` that rounds to the number, if there is one. -/
def hit? (i : Interval) (e p : Int) (n : Nat) : Option Nat :=
  let up := scaleUp 1 (e - 2) * pow10 ((n : Int) - p)
  let den := scaleUp 1 (2 - e) * pow10 (p - n)
  let value := i.middle * up
  let q := value / den
  let below := if i.closed then i.low * up ≤ q * den else i.low * up < q * den
  let above := if i.closed then (q + 1) * den ≤ i.high * up else (q + 1) * den < i.high * up
  let down := value - q * den
  let rise := (q + 1) * den - value
  if below && above then
    if down < rise then some q else if rise < down then some (q + 1) else some (q + q % 2)
  else if below then some q
  else if above then some (q + 1)
  else none

/-- The digits of a multiple of `10 ^ (p - n)`, without the zeros at the end. -/
def ofMultiple (p : Int) (n c : Nat) : Digits :=
  let ds := Nat.toDigits 10 c
  ⟨(ds.reverse.dropWhile (· == '0')).reverse, p - n + ds.length⟩

/-- Tries the grids of `n`, `n + 1`, … digits, at most `tries` of them. -/
def search (i : Interval) (e p : Int) (n : Nat) : Nat → Digits
  | 0 => ⟨[], 0⟩
  | tries + 1 =>
    match hit? i e p n with
    | some c => ofMultiple p n c
    | none => search i e p (n + 1) tries

/-- The shortest decimal of `m · 2 ^ e`, for a positive `m`. Seventeen digits are enough for 64 bits. -/
def shortest (f : Format) (m : Nat) (e : Int) : Digits := search (interval f m e) e (magnitude m e) 1 17

end ColorResolution.Decimal
