import ColorResolution.Binary.Basic

/-!
# Bit patterns of floating numbers

The pattern of a number is its sign bit, its exponent field and the significand without its leading bit. In a
format's own units both fields together are one natural, so that patterns of positive numbers are ordered as the
numbers are.

By their patterns numbers are given to `white` and `from_rgba_f32` and are answered by `to_rgba_f32`.
-/
namespace ColorResolution.Binary.Format

/-- The number of significand bits that a pattern stores. -/
def storedBits (f : Format) : Nat := f.precision - 1

/-- The exponent field shared by the infinities and not-a-number. -/
def topField (f : Format) : Nat := (f.greatestUnit - f.leastUnit).toNat + 2

/-- The weight of the sign bit. -/
def signWeight (f : Format) : Nat := (f.topField + 1) <<< f.storedBits

def signed (f : Format) (negative : Bool) (magnitude : Nat) : Nat :=
  if negative then f.signWeight + magnitude else magnitude

/-- The pattern of a number of the format; not-a-number gets the positive quiet pattern. -/
def toBits (f : Format) : Number → Nat
  | .nan => (f.topField <<< f.storedBits) + (1 <<< (f.storedBits - 1))
  | .infinite s => f.signed s (f.topField <<< f.storedBits)
  | .finite s m e => f.signed s (((e - f.leastUnit).toNat <<< f.storedBits) + m)

def ofMagnitude (f : Format) (negative : Bool) (magnitude : Nat) : Number :=
  let field := magnitude >>> f.storedBits
  let rest := magnitude % (1 <<< f.storedBits)
  if field = f.topField then if rest = 0 then .infinite negative else .nan
  else if field = 0 then .finite negative rest f.leastUnit
  else .finite negative ((1 <<< f.storedBits) + rest) (f.leastUnit + ((field : Int) - 1))

/-- The number that a pattern stands for. -/
def ofBits (f : Format) (bits : Nat) : Number :=
  f.ofMagnitude (f.signWeight ≤ bits) (bits % f.signWeight)

end ColorResolution.Binary.Format
