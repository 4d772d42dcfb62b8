/-!
# Binary floating numbers

A finite number is a sign, a whole significand and an exponent of two. Every operation forms the exact result as a
quotient of naturals and rounds it once, to the nearest number of the format, a tie going to the even significand.
Flags, payloads of not-a-number and the other rounding directions are not covered.

Embedded is the arithmetic with which components, channels and JSON numbers are read and with which `clamp_to_byte`,
`unit_to_byte` and `alpha_to_byte` work.
-/
namespace ColorResolution.Binary

/-- A format: how many bits a significand has, and the exponents of the units in which its smallest and its largest
finite numbers are counted. -/
structure Format where
  precision : Nat
  leastUnit : Int
  greatestUnit : Int
  deriving DecidableEq, Repr

/-- The format of 32 bits. -/
def single : Format := ⟨24, -149, 104⟩

/-- The format of 64 bits. -/
def double : Format := ⟨53, -1074, 971⟩

/-- A floating number; `finite s m e` stands for `± m · 2 ^ e`. -/
inductive Number where
  | nan
  | infinite (negative : Bool)
  | finite (negative : Bool) (significand : Nat) (exponent : Int)
  deriving DecidableEq, Repr

/-- `n · 2 ^ k` for `k ≥ 0`, and `n` itself for a negative `k`. -/
def scaleUp (n : Nat) (k : Int) : Nat := n <<< k.toNat

/-- The exponent of the largest power of two not above `num / den`, for positive operands. -/
def floorLog (num den : Nat) : Int :=
  let k : Int := (num.log2 : Int) - (den.log2 : Int)
  if scaleUp den k ≤ scaleUp num (-k) then k else k - 1

/-- The natural nearest to `num / den`; of two equally near the even one. -/
def nearestEven (num den : Nat) : Nat :=
  let q := num / den
  let r := num % den
  if 2 * r < den then q
  else if den < 2 * r then q + 1
  else q + q % 2

namespace Format

/-- The exponent of the unit in which the format counts numbers of the size of `num / den`. -/
def unit (f : Format) (num den : Nat) : Int :=
  max f.leastUnit (floorLog num den - ((f.precision : Int) - 1))

/-- A number counted in units `2 ^ u`; what is too large becomes infinite. -/
def bounded (f : Format) (negative : Bool) (m : Nat) (u : Int) : Number :=
  if f.greatestUnit < u then .infinite negative else .finite negative m u

/-- `± num / den`, for a positive `den`, rounded to the format. A count that rounding takes to the next power of two is
written in the next larger unit. -/
def round (f : Format) (negative : Bool) (num den : Nat) : Number :=
  if num = 0 then .finite negative 0 f.leastUnit
  else
    let u := f.unit num den
    let m := nearestEven (scaleUp num (-u)) (scaleUp den u)
    if m = 1 <<< f.precision then f.bounded negative (1 <<< (f.precision - 1)) (u + 1) else f.bounded negative m u

/-- `± m · 2 ^ e` rounded to the format. -/
def roundScaled (f : Format) (negative : Bool) (m : Nat) (e : Int) : Number :=
  f.round negative (scaleUp m e) (scaleUp 1 (-e))

/-- Zero, with a sign. -/
def zero (f : Format) (negative : Bool) : Number := .finite negative 0 f.leastUnit

/-- A natural rounded to the format. -/
def ofNat (f : Format) (n : Nat) : Number := f.round false n 1

/-- An integer rounded to the format. -/
def ofInt (f : Format) (n : Int) : Number := f.round (n < 0) n.natAbs 1

/-- A number of any format, rounded to this one. -/
def convert (f : Format) : Number → Number
  | .nan => .nan
  | .infinite s => .infinite s
  | .finite s m e => f.roundScaled s m e

/-- The signed whole count of units `2 ^ u` in `± m · 2 ^ e`, for `u ≤ e`. -/
def signedCount (negative : Bool) (m : Nat) (e u : Int) : Int :=
  if negative then -(scaleUp m (e - u) : Int) else (scaleUp m (e - u) : Int)

/-- The sum; an exact zero is negative only if both operands are. -/
def add (f : Format) : Number → Number → Number
  | .nan, _ => .nan
  | _, .nan => .nan
  | .infinite s, .infinite t => if s = t then .infinite s else .nan
  | .infinite s, .finite _ _ _ => .infinite s
  | .finite _ _ _, .infinite t => .infinite t
  | .finite s m e, .finite t n k =>
    let u := min e k
    let sum := signedCount s m e u + signedCount t n k u
    if sum = 0 then f.zero (s && t) else f.roundScaled (sum < 0) sum.natAbs u

/-- The product; zero times infinity is not a number. -/
def mul (f : Format) : Number → Number → Number
  | .nan, _ => .nan
  | _, .nan => .nan
  | .infinite s, .infinite t => .infinite (s != t)
  | .infinite s, .finite t n _ => if n = 0 then .nan else .infinite (s != t)
  | .finite s m _, .infinite t => if m = 0 then .nan else .infinite (s != t)
  | .finite s m e, .finite t n k => f.roundScaled (s != t) (m * n) (e + k)

/-- The quotient; a number over zero is infinite, and zero over zero is not a number. -/
def div (f : Format) : Number → Number → Number
  | .nan, _ => .nan
  | _, .nan => .nan
  | .infinite _, .infinite _ => .nan
  | .infinite s, .finite t _ _ => .infinite (s != t)
  | .finite s _ _, .infinite t => f.zero (s != t)
  | .finite s m e, .finite t n k =>
    if n = 0 then if m = 0 then .nan else .infinite (s != t)
    else f.round (s != t) (scaleUp m (e - k)) (scaleUp n (k - e))

/-- The power of ten rounded to the format. Beyond four hundred either way every format here has only infinity or
zero to give, so larger exponents count as four hundred. -/
def powerOfTen (f : Format) (k : Int) : Number :=
  if 0 ≤ k then f.round false (Nat.pow 10 (min k 400).toNat) 1
  else f.round false 1 (Nat.pow 10 (min (-k) 400).toNat)

end Format

namespace Number

def negate : Number → Number
  | .nan => .nan
  | .infinite s => .infinite (!s)
  | .finite s m e => .finite (!s) m e

def isZero : Number → Bool
  | .finite _ m _ => m == 0
  | _ => false

def isInfinite : Number → Bool
  | .infinite _ => true
  | _ => false

/-- Whether the number is one or less; not-a-number is not. -/
def isAtMostOne : Number → Bool
  | .nan => false
  | .infinite s => s
  | .finite s m e => s || scaleUp m e ≤ scaleUp 1 (-e)

end Number

/-- Half a unit is the most that rounding to a natural moves a quotient. -/
theorem nearestEven_bounds (num den : Nat) (h : 0 < den) :
    2 * num ≤ 2 * (nearestEven num den * den) + den ∧ 2 * (nearestEven num den * den) ≤ 2 * num + den := by
  have hdiv := Nat.div_add_mod num den
  have hlt := Nat.mod_lt num h
  have hcomm : den * (num / den) = num / den * den := Nat.mul_comm _ _
  simp only [nearestEven]
  split
  · constructor <;> omega
  · split
    · rw [Nat.add_mul, Nat.one_mul]
      constructor <;> omega
    · rcases Nat.mod_two_eq_zero_or_one (num / den) with parity | parity <;> rw [parity] <;>
        simp only [Nat.add_zero, Nat.add_mul, Nat.one_mul] <;> constructor <;> omega

/-- A quotient that is a natural is rounded to itself. -/
theorem nearestEven_mul (n den : Nat) (h : 0 < den) : nearestEven (n * den) den = n := by
  unfold nearestEven
  simp [Nat.mul_div_cancel _ h, h]

end ColorResolution.Binary
