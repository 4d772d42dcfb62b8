import Mathlib
import ColorResolution.Binary.Bits
import ColorResolution.Proofs.Binary.Rounding

/-!
# What numbers and patterns stand for

Every number but not-a-number stands for a rational number or for one of the two infinities. By these values numbers are
compared, moved between bounds and taken over into another format. Main statement: a pattern of 32 bits is read as the
value that its three fields say, the sign, the exponent and the digits behind the point.
-/
namespace ColorResolution.Binary

/-- The rational number to which a value is moved between two bounds. -/
def clamp (low high : ℚ) : WithBotTop ℚ → ℚ
  | ⊥ => low
  | (q : ℚ) => min (max q low) high
  | ⊤ => high

section
variable {low high : ℚ} {u v : WithBotTop ℚ}

@[simp] theorem clamp_bot (low high : ℚ) : clamp low high ⊥ = low := rfl

@[simp] theorem clamp_coe (low high q : ℚ) : clamp low high q = min (max q low) high := rfl

@[simp] theorem clamp_top (low high : ℚ) : clamp low high ⊤ = high := rfl

theorem coe_clamp (order : low ≤ high) (v : WithBotTop ℚ) :
    (clamp low high v : WithBotTop ℚ) = min (max v low) high := by
  have monotone : Monotone (WithBotTop.coe : ℚ → WithBotTop ℚ) := WithBotTop.coe_monotone
  cases v using WithBotTop.rec with
  | bot => rw [max_eq_right bot_le, min_eq_left (monotone order), clamp_bot]
  | coe q => rw [clamp_coe, monotone.map_min, monotone.map_max]
  | top => rw [max_eq_left le_top, min_eq_right le_top, clamp_top]

theorem clamp_mono (order : low ≤ high) (le : u ≤ v) : clamp low high u ≤ clamp low high v := by
  rw [← WithBotTop.coe_le_coe, coe_clamp order, coe_clamp order]
  exact min_le_min_right _ (max_le_max_right _ le)

theorem le_clamp (order : low ≤ high) (v : WithBotTop ℚ) : low ≤ clamp low high v := by
  rw [← WithBotTop.coe_le_coe, coe_clamp order]
  exact le_min (le_max_right _ _) (WithBotTop.coe_monotone order)

theorem clamp_le (order : low ≤ high) (v : WithBotTop ℚ) : clamp low high v ≤ high := by
  rw [← WithBotTop.coe_le_coe, coe_clamp order]
  exact min_le_right _ _

theorem clamp_coe_of_le {q : ℚ} (order : low ≤ high) (below : q ≤ low) : clamp low high q = low := by
  rw [clamp_coe, max_eq_right below, min_eq_left order]

theorem clamp_coe_of_ge {q : ℚ} (above : high ≤ q) : clamp low high q = high := by
  rw [clamp_coe, min_eq_right (above.trans (le_max_left _ _))]

theorem clamp_coe_of_mem {q : ℚ} (above : low ≤ q) (below : q ≤ high) : clamp low high q = q := by
  rw [clamp_coe, max_eq_left above, min_eq_left below]

end

/-! ## The values of numbers -/

/-- A size with a sign. -/
def withSign (negative : Bool) (q : ℚ) : ℚ := if negative then -q else q

@[simp] theorem withSign_false (q : ℚ) : withSign false q = q := rfl

@[simp] theorem withSign_true (q : ℚ) : withSign true q = -q := rfl

/-- What a number stands for; not-a-number stands for nothing. -/
def Number.value? : Number → Option (WithBotTop ℚ)
  | .nan => none
  | .infinite s => some (if s then ⊥ else ⊤)
  | .finite s m e => some (withSign s (m * 2 ^ e) : ℚ)

/-- Whether the first number is below the second; with not-a-number it never is. -/
def Number.isBelow : Number → Number → Bool
  | .nan, _ => false
  | _, .nan => false
  | .infinite s, .infinite t => s && !t
  | .infinite s, .finite _ _ _ => s
  | .finite _ _ _, .infinite t => !t
  | .finite s m e, .finite t n k =>
    Format.signedCount s m e (min e k) < Format.signedCount t n k (min e k)

/-- The number moved between two bounds; not-a-number stays. -/
def Number.clamp (x low high : Number) : Number :=
  let raised := if x.isBelow low then low else x
  if high.isBelow raised then high else raised

section
variable {x y : Number} {u v : WithBotTop ℚ} {m : ℕ} {e : ℤ}

theorem Number.value?_eq_none_iff : x.value? = none ↔ x = .nan := by
  cases x <;> simp [value?]

theorem Number.ne_nan (value : x.value? = some v) : x ≠ .nan := by
  rintro rfl
  cases value

theorem natCast_mul_zpow_nonneg (m : ℕ) (e : ℤ) : (0 : ℚ) ≤ m * 2 ^ e :=
  mul_nonneg (Nat.cast_nonneg m) (two_zpow_pos e).le

/-- A number that is not below zero is unsigned or zero. -/
theorem Number.exists_finite {q : ℚ} (value : x.value? = some (q : WithBotTop ℚ)) (nonneg : 0 ≤ q) :
    ∃ s m e, x = .finite s m e ∧ (m * 2 ^ e : ℚ) = q ∧ (s = true → q = 0) := by
  cases x with
  | nan => cases value
  | infinite s => cases s <;> cases value
  | finite s m e =>
    have signed : withSign s (m * 2 ^ e) = q := WithBotTop.coe_injective (Option.some.inj value)
    have size := natCast_mul_zpow_nonneg m e
    cases s with
    | false => exact ⟨false, m, e, rfl, signed, fun below => absurd below Bool.false_ne_true⟩
    | true =>
      rw [withSign_true] at signed
      exact ⟨true, m, e, rfl, by linarith, fun _ => by linarith⟩

theorem signedCount_mul (negative : Bool) {unit : ℤ} (fine : unit ≤ e) :
    (Format.signedCount negative m e unit : ℚ) * 2 ^ unit = withSign negative (m * 2 ^ e) := by
  have count : (scaleUp m (e - unit) : ℚ) * 2 ^ unit = m * 2 ^ e := scaleUp_sub_mul fine
  cases negative <;> simpa [Format.signedCount] using count

/-- Numbers are compared by their values. -/
theorem Number.isBelow_iff (left : x.value? = some u) (right : y.value? = some v) : x.isBelow y = true ↔ u < v := by
  cases x with
  | nan => cases left
  | infinite s =>
    cases left
    cases y with
    | nan => cases right
    | infinite t =>
      cases right
      cases s <;> cases t <;> simp [isBelow]
    | finite t n k =>
      cases right
      cases s <;> simp [isBelow, bot_lt_iff_ne_bot]
  | finite s m e =>
    cases left
    cases y with
    | nan => cases right
    | infinite t =>
      cases right
      cases t <;> simp [isBelow, lt_top_iff_ne_top]
    | finite t n k =>
      cases right
      have unit := two_zpow_pos (min e k)
      rw [isBelow, decide_eq_true_eq, WithBotTop.coe_lt_coe, ← signedCount_mul s (min_le_left e k),
        ← signedCount_mul t (min_le_right e k), mul_lt_mul_iff_left₀ unit, Int.cast_lt]

theorem Number.isAtMostOne_iff (value : x.value? = some v) : x.isAtMostOne = true ↔ v ≤ (1 : ℚ) := by
  cases x with
  | nan => cases value
  | infinite s =>
    cases value
    cases s <;> simp [isAtMostOne]
  | finite s m e =>
    cases value
    have size := natCast_mul_zpow_nonneg m e
    rw [isAtMostOne, Bool.or_eq_true, decide_eq_true_eq, scaleUp_le_one_iff, WithBotTop.coe_le_coe]
    cases s with
    | false => simp
    | true =>
      have below : withSign true (m * 2 ^ e : ℚ) ≤ 1 := by
        rw [withSign_true]
        linarith
      exact iff_of_true (.inl rfl) below

/-- Two comparisons move a number as its value is moved. -/
theorem Number.value?_clamp {low high : Number} {l h : ℚ} (lower : low.value? = some (l : WithBotTop ℚ))
    (upper : high.value? = some (h : WithBotTop ℚ)) (order : l ≤ h) (value : x.value? = some v) :
    (x.clamp low high).value? = some (Binary.clamp l h v : WithBotTop ℚ) := by
  have raised : (if x.isBelow low then low else x).value? = some (max v l) := by
    by_cases below : v < l
    · rw [if_pos ((isBelow_iff value lower).mpr below), lower, max_eq_right below.le]
    · rw [if_neg (mt (isBelow_iff value lower).mp below), value, max_eq_left (not_lt.mp below)]
  rw [clamp, coe_clamp order]
  by_cases above : (h : WithBotTop ℚ) < max v l
  · rw [if_pos ((isBelow_iff upper raised).mpr above), upper, min_eq_right above.le]
  · rw [if_neg (mt (isBelow_iff upper raised).mp above), raised, min_eq_left (not_lt.mp above)]

end

/-! ## Values in a format -/

namespace Format

variable {f : Format} {negative : Bool} {q : ℚ} {x : Number}

/-- What is kept of a rounded size with a sign; whatever is too large is infinite. -/
def kept (f : Format) (negative : Bool) (q : ℚ) : WithBotTop ℚ :=
  if 2 ^ (f.greatestUnit + f.precision) ≤ q then if negative then ⊥ else ⊤ else (withSign negative q : ℚ)

/-- The value that the format has for a value. -/
def narrowed (f : Format) : WithBotTop ℚ → WithBotTop ℚ
  | ⊥ => ⊥
  | (q : ℚ) => f.kept (q < 0) (f.rounded |q|)
  | ⊤ => ⊤

@[simp] theorem narrowed_coe (f : Format) (q : ℚ) : f.narrowed q = f.kept (q < 0) (f.rounded |q|) := rfl

theorem Stands.value? (stands : f.Stands negative q x) : x.value? = some (f.kept negative q) := by
  cases stands with
  | finite value small => rw [Number.value?, value, kept, if_neg (not_le.mpr small)]
  | infinite large => rw [Number.value?, kept, if_pos large]

theorem kept_zero (f : Format) (negative : Bool) : f.kept negative 0 = (0 : ℚ) := by
  have small : ¬ (2 : ℚ) ^ (f.greatestUnit + f.precision) ≤ 0 := not_le.mpr (two_zpow_pos _)
  rw [kept, if_neg small]
  cases negative <;> simp

/-- The sign of a size does not take part in rounding. -/
theorem narrowed_withSign (nonneg : 0 ≤ q) : f.narrowed (withSign negative q : ℚ) = f.kept negative (f.rounded q) := by
  rcases nonneg.eq_or_lt with rfl | positive
  · cases negative <;> simp [kept_zero]
  cases negative with
  | false => rw [withSign_false, narrowed_coe, abs_of_nonneg nonneg, decide_eq_false (not_lt.mpr nonneg)]
  | true => rw [withSign_true, narrowed_coe, abs_neg, abs_of_nonneg nonneg, decide_eq_true (neg_lt_zero.mpr positive)]

/-- A number of any format is converted to the one with the value that the format has for its own. -/
theorem value?_convert (holds : f.HoldsBytes) (x : Number) : (f.convert x).value? = x.value?.map f.narrowed := by
  cases x with
  | nan => rfl
  | infinite s => cases s <;> rfl
  | finite s m e =>
    have stands : f.Stands s _ (f.roundScaled s m e) := stands_round holds s (scaleUp_pos one_pos (-e))
    rw [scaleUp_div_one] at stands
    rw [convert, stands.value?, Number.value?, Option.map_some, narrowed_withSign (natCast_mul_zpow_nonneg m e)]

theorem value?_ofInt (holds : f.HoldsBytes) (z : ℤ) : (f.ofInt z).value? = some (f.narrowed (z : ℚ)) := by
  have stands : f.Stands (z < 0) _ (f.ofInt z) := stands_round holds _ one_pos
  rw [Nat.cast_one, div_one] at stands
  have size : ((z.natAbs : ℕ) : ℚ) = |(z : ℚ)| := by rw [Nat.cast_natAbs, Int.cast_abs]
  rw [stands.value?, narrowed_coe, size]
  simp only [Int.cast_lt_zero]

end Format

/-! ## Patterns -/

/-- What a pattern of 32 bits stands for. The fields are one bit of sign, eight of exponent and 23 behind the point;
before the point is one, or nothing under the least exponent, and the greatest is left to what is no rational number. -/
def pattern? (bits : UInt32) : Option (WithBotTop ℚ) :=
  let negative : Bool := bits.toNat / 2 ^ 31 = 1
  let exponent : ℕ := bits.toNat / 2 ^ 23 % 2 ^ 8
  let behind : ℕ := bits.toNat % 2 ^ 23
  if exponent = 255 then if behind = 0 then some (if negative then ⊥ else ⊤) else none
  else if exponent = 0 then some (withSign negative (behind / 2 ^ 23 * 2 ^ (-126 : ℤ)) : ℚ)
  else some (withSign negative ((1 + behind / 2 ^ 23) * 2 ^ ((exponent : ℤ) - 127)) : ℚ)

theorem value_least (behind : ℕ) : (behind * 2 ^ (-149 : ℤ) : ℚ) = behind / 2 ^ 23 * 2 ^ (-126 : ℤ) := by
  norm_num
  ring

theorem value_digits (behind : ℕ) (exponent : ℤ) :
    (((1 <<< 23 + behind : ℕ) : ℚ) * 2 ^ (-149 + (exponent - 1))) = (1 + behind / 2 ^ 23) * 2 ^ (exponent - 127) := by
  have split : -149 + (exponent - 1) = exponent - 127 + (-23 : ℤ) := by omega
  rw [split, zpow_add₀ two_ne_zero, Nat.one_shiftLeft]
  norm_num
  ring

/-- The number of 32 bits with a pattern. -/
def Number.ofPattern (bits : UInt32) : Number := single.ofBits bits.toNat

/-- Main statement: a pattern is read as the number of its value. -/
theorem value?_ofPattern (bits : UInt32) : (Number.ofPattern bits).value? = pattern? bits := by
  have weight : single.signWeight = 2 ^ 31 := rfl
  have stored : single.storedBits = 23 := rfl
  have top : single.topField = 255 := rfl
  have least : single.leastUnit = -149 := rfl
  have bound : bits.toNat < 2 ^ 32 := bits.toNat_lt
  have sign : decide (2 ^ 31 ≤ bits.toNat) = decide (bits.toNat / 2 ^ 31 = 1) := by
    rw [decide_eq_decide]
    omega
  have field : (bits.toNat % 2 ^ 31) >>> 23 = bits.toNat / 2 ^ 23 % 2 ^ 8 := by
    rw [Nat.shiftRight_eq_div_pow]
    omega
  have rest : bits.toNat % 2 ^ 31 % 1 <<< 23 = bits.toNat % 2 ^ 23 := by
    rw [Nat.one_shiftLeft]
    omega
  simp only [Number.ofPattern, Format.ofBits, Format.ofMagnitude, weight, stored, top, least, sign, field, rest, pattern?]
  split
  next =>
    split
    · rfl
    · rfl
  next =>
    split
    next => rw [Number.value?, value_least]
    next => rw [Number.value?, value_digits]

end ColorResolution.Binary
