import Mathlib
import ColorResolution.Proofs.Binary.Values
import ColorResolution.Proofs.Color.Levels

/-!
# Bytes of floating numbers

A level is moved into its range and rounded once. A share is rounded twice, in its product with 255 and to a whole
number. Each of these steps preserves the order of values, so that bytes come in the order of their numbers, and no more
than the roundings stands between a byte and its number. Alpha values are in order on each side of one. Main statement:
this holds of every pattern of 32 bits, and the conversions, taken step by step, never narrow what is no byte.

Embedded beside them are `clamp_to_byte`, `unit_to_byte` and `alpha_to_byte` step by step.
-/
namespace ColorResolution

open Binary

namespace Binary.Format

variable {f : Format} {x : Number} {q : ℚ} {k : ℕ} {negative : Bool}

theorem rounded_le_255 (holds : f.HoldsBytes) (nonneg : 0 ≤ q) (le : q ≤ 255) : f.rounded q ≤ 255 := by
  have capacity := holds.capacity
  have bound : f.rounded (255 : ℕ) = (255 : ℕ) := rounded_natCast (by omega) holds.least
  have precision : 0 < f.precision := by have := holds.precision; omega
  have order : f.rounded q ≤ f.rounded (255 : ℕ) := rounded_mono precision nonneg (by exact_mod_cast le)
  rw [bound] at order
  exact_mod_cast order

theorem Stands.value?_eq (stands : f.Stands negative q x) (holds : f.HoldsBytes) (small : q ≤ 255) :
    x.value? = some (withSign negative q : WithBotTop ℚ) := by
  cases stands with
  | finite value _ => rw [Number.value?, value]
  | infinite large => linarith [holds.range]

theorem value?_zero (f : Format) : (f.zero false).value? = some ((0 : ℚ) : WithBotTop ℚ) := by
  simp [zero, Number.value?]

theorem value?_ofNat (holds : f.HoldsBytes) (small : k < 256) : (f.ofNat k).value? = some ((k : ℚ) : WithBotTop ℚ) := by
  obtain ⟨m, e, written, value⟩ := ofNat_eq_finite holds small
  rw [written, Number.value?, withSign_false, value]

/-- A product in the range of bytes stands for its rounded value. -/
theorem value?_mul_ofNat (holds : f.HoldsBytes) (value : x.value? = some (q : WithBotTop ℚ)) (nonneg : 0 ≤ q)
    (small : k < 256) (inRange : q * k ≤ 255) :
    (f.mul x (f.ofNat k)).value? = some (f.rounded (q * k) : WithBotTop ℚ) := by
  obtain ⟨n, l, written, factor⟩ := ofNat_eq_finite holds small
  obtain ⟨s, m, e, rfl, size, zero⟩ := Number.exists_finite value nonneg
  have product : ((m * n : ℕ) : ℚ) * 2 ^ (e + l) = q * k := by
    rw [← size, ← factor, zpow_add₀ two_ne_zero]
    push_cast
    ring
  have below : 0 < scaleUp 1 (-(e + l)) := scaleUp_pos one_pos _
  have stands : f.Stands s _ (f.roundScaled s (m * n) (e + l)) := stands_round holds s below
  rw [scaleUp_div_one, product] at stands
  have bound := rounded_le_255 holds (mul_nonneg nonneg (Nat.cast_nonneg k)) inRange
  -- minus zero is within the bounds as well, and its product stays zero
  have unsigned : withSign s (f.rounded (q * k)) = f.rounded (q * k) := by
    cases s with
    | false => rfl
    | true => rw [zero rfl, zero_mul, rounded_zero, withSign_true, neg_zero]
  rw [written, mul, Bool.bne_false, stands.value?_eq holds bound, unsigned]

/-- Below 256 no unit of 32 bits is larger than 2 to the power of -16, and half of it is the most that is lost. -/
theorem abs_single_rounded_sub_le (nonneg : 0 ≤ q) (small : q < 256) : |single.rounded q - q| ≤ 1 / 2 ^ 17 := by
  have unit : single.unitOf q ≤ -16 := by
    rcases nonneg.eq_or_lt with rfl | positive
    · decide +kernel
    · have log : Int.log 2 q < 8 := (Int.lt_zpow_iff_log_lt one_lt_two positive).mp (by norm_num; exact small)
      have precision : (single.precision : ℤ) = 24 := rfl
      have least : single.leastUnit = -149 := rfl
      rw [unitOf, precision, least]
      omega
  calc |single.rounded q - q| ≤ 2 ^ single.unitOf q / 2 := abs_rounded_sub_le nonneg
    _ ≤ 2 ^ (-16 : ℤ) / 2 := div_le_div_of_nonneg_right (zpow_le_zpow_right₀ one_le_two unit) two_pos.le
    _ = 1 / 2 ^ 17 := by norm_num

end Binary.Format

namespace Channel

/-! ## Levels -/

section
variable {x y : Number} {u v : WithBotTop ℚ} {q : ℚ}

theorem toNat_ofLevel (value : x.value? = some v) : (ofLevel x).toNat = ⌊clamp 0 255 v + 1 / 2⌋₊ := by
  have top : ⌊(255 : ℚ) + 1 / 2⌋₊ = 255 := by norm_num
  have bottom : ⌊(0 : ℚ) + 1 / 2⌋₊ = 0 := by norm_num
  cases x with
  | nan => cases value
  | infinite s =>
    cases value
    cases s with
    | false => exact top.symm
    | true => exact bottom.symm
  | finite s m e =>
    cases value
    have size := natCast_mul_zpow_nonneg m e
    cases s with
    | false =>
      -- a number may be moved under the bound before it is rounded or after
      have clamped : clamp 0 255 (withSign false (m * 2 ^ e) : ℚ) + 1 / 2 =
          min ((m : ℚ) * 2 ^ e + 1 / 2) (255 + 1 / 2) := by
        rw [withSign_false, clamp_coe, max_eq_left size, min_add_add_right]
      have small : min 255 ⌊(m * 2 ^ e : ℚ) + 1 / 2⌋₊ < 2 ^ 8 := by omega
      rw [clamped, Nat.floor_mono.map_min, top, ofLevel_finite, UInt8.toNat_ofNat', Nat.mod_eq_of_lt small, min_comm]
    | true =>
      rw [withSign_true, clamp_coe_of_le (by norm_num) (neg_nonpos.mpr size), bottom]
      rfl

/-- Numbers of one value have one byte. -/
theorem ofLevel_congr (same : x.value? = y.value?) : ofLevel x = ofLevel y := by
  cases value : y.value? with
  | none => rw [Number.value?_eq_none_iff.mp value, Number.value?_eq_none_iff.mp (same.trans value)]
  | some v =>
    apply UInt8.toNat_inj.mp
    rw [toNat_ofLevel (same.trans value), toNat_ofLevel value]

theorem ofLevel_mono (left : x.value? = some u) (right : y.value? = some v) (le : u ≤ v) : ofLevel x ≤ ofLevel y := by
  rw [UInt8.le_iff_toNat_le, toNat_ofLevel left, toNat_ofLevel right]
  have order : clamp 0 255 u ≤ clamp 0 255 v := clamp_mono (by norm_num) le
  exact Nat.floor_mono (by linarith)

/-! ## Shares -/

theorem clamp_mul_255_mem (v : WithBotTop ℚ) : 0 ≤ clamp 0 1 v * 255 ∧ clamp 0 1 v * 255 ≤ 255 := by
  have low : 0 ≤ clamp 0 1 v := le_clamp (by norm_num) v
  have high : clamp 0 1 v ≤ 1 := clamp_le (by norm_num) v
  constructor <;> linarith

theorem value?_clampShare (value : x.value? = some v) :
    (clampShare x).value? = some (clamp 0 1 v : WithBotTop ℚ) := by
  have one : (single.ofNat 1).value? = some ((1 : ℚ) : WithBotTop ℚ) := by
    rw [Format.value?_ofNat Format.single_holdsBytes (by omega), Nat.cast_one]
  have zero := Format.value?_zero single
  cases x with
  | nan => cases value
  | infinite s =>
    cases value
    cases s with
    | false => exact one
    | true => exact zero
  | finite s m e =>
    have share := Number.isAtMostOne_iff value
    cases value
    have size := natCast_mul_zpow_nonneg m e
    cases s with
    | true =>
      rw [withSign_true, clamp_coe_of_le (by norm_num) (neg_nonpos.mpr size)]
      exact zero
    | false =>
      rw [withSign_false] at share ⊢
      rw [WithBotTop.coe_le_coe] at share
      simp only [clampShare, Bool.false_eq_true, if_false, share]
      split
      next small => rw [clamp_coe_of_mem size small, Number.value?, withSign_false]
      next large => rw [clamp_coe_of_ge (not_le.mp large).le, one]

theorem toNat_ofShare (value : x.value? = some v) :
    (ofShare x).toNat = ⌊single.rounded (clamp 0 1 v * 255) + 1 / 2⌋₊ := by
  obtain ⟨nonneg, le⟩ := clamp_mul_255_mem v
  have share : 0 ≤ clamp 0 1 v := le_clamp (by norm_num) v
  have product := Format.value?_mul_ofNat Format.single_holdsBytes (value?_clampShare value) share (k := 255) (by omega)
    (by exact_mod_cast le)
  have bound := Format.rounded_le_255 Format.single_holdsBytes nonneg le
  rw [ofShare, toNat_ofLevel product, Nat.cast_ofNat, clamp_coe_of_mem (Format.rounded_nonneg _ _) bound]

theorem ofShare_congr (same : x.value? = y.value?) : ofShare x = ofShare y := by
  cases value : y.value? with
  | none => rw [Number.value?_eq_none_iff.mp value, Number.value?_eq_none_iff.mp (same.trans value)]
  | some v =>
    apply UInt8.toNat_inj.mp
    rw [toNat_ofShare (same.trans value), toNat_ofShare value]

theorem ofShare_mono (left : x.value? = some u) (right : y.value? = some v) (le : u ≤ v) : ofShare x ≤ ofShare y := by
  have share : clamp 0 1 u ≤ clamp 0 1 v := clamp_mono (by norm_num) le
  have product : single.rounded (clamp 0 1 u * 255) ≤ single.rounded (clamp 0 1 v * 255) :=
    Format.rounded_mono (by decide) (clamp_mul_255_mem u).1 (by linarith)
  rw [UInt8.le_iff_toNat_le, toNat_ofShare left, toNat_ofShare right]
  exact Nat.floor_mono (by linarith)

theorem abs_floor_sub_le (nonneg : 0 ≤ q) : |(⌊q + 1 / 2⌋₊ : ℚ) - q| ≤ 1 / 2 := by
  have whole : (⌊q + 1 / 2⌋₊ : ℚ) = round q := by rw [round_eq, natCast_floor_eq_intCast_floor (by linarith)]
  rw [whole, abs_sub_comm]
  exact abs_sub_round q

/-- Half a byte for the whole number, and half a unit for the product. -/
theorem abs_ofShare_sub_le (value : x.value? = some v) :
    |((ofShare x).toNat : ℚ) - 255 * clamp 0 1 v| ≤ 1 / 2 + 1 / 2 ^ 17 := by
  obtain ⟨nonneg, le⟩ := clamp_mul_255_mem v
  have whole := abs_floor_sub_le (Format.rounded_nonneg single (clamp 0 1 v * 255))
  have product := Format.abs_single_rounded_sub_le nonneg (by linarith)
  rw [toNat_ofShare value, mul_comm 255]
  exact (abs_sub_le _ _ _).trans (add_le_add whole product)

/-! ## Alpha values -/

theorem ofAlpha_of_le_one (value : x.value? = some v) (share : v ≤ (1 : ℚ)) : ofAlpha x = ofShare x := by
  rw [ofAlpha, if_pos ((Number.isAtMostOne_iff value).mpr share)]

theorem ofAlpha_of_one_lt (value : x.value? = some v) (level : (1 : ℚ) < v) : ofAlpha x = ofLevel x := by
  rw [ofAlpha, if_neg (mt (Number.isAtMostOne_iff value).mp (not_le.mpr level))]

theorem ofAlpha_congr (same : x.value? = y.value?) : ofAlpha x = ofAlpha y := by
  cases value : y.value? with
  | none => rw [Number.value?_eq_none_iff.mp value, Number.value?_eq_none_iff.mp (same.trans value)]
  | some v =>
    rcases le_or_gt v (1 : ℚ) with share | level
    · rw [ofAlpha_of_le_one (same.trans value) share, ofAlpha_of_le_one value share, ofShare_congr same]
    · rw [ofAlpha_of_one_lt (same.trans value) level, ofAlpha_of_one_lt value level, ofLevel_congr same]

end

/-! ## Step by step -/

/-- The whole number nearest to a number, of two equally near the one farther from zero. -/
def whole? : Number → Option ℤ
  | .finite s m e =>
    let size : ℤ := halfUp (scaleUp m e) (scaleUp 1 (-e))
    some (if s then -size else size)
  | _ => none

/-- The byte that a whole number is; no other number is narrowed. -/
def narrow? (z : ℤ) : Option UInt8 := if 0 ≤ z ∧ z ≤ 255 then some (UInt8.ofNat z.toNat) else none

/-- The byte of a level step by step: bounds, whole number, byte. -/
def ofLevel? (x : Number) : Option UInt8 :=
  if x = .nan then some 0 else (whole? (x.clamp (single.zero false) (single.ofNat 255))).bind narrow?

/-- The byte of a share step by step, with the product before the whole number. -/
def ofShare? (x : Number) : Option UInt8 :=
  if x = .nan then some 0
  else (whole? (single.mul (x.clamp (single.zero false) (single.ofNat 1)) (single.ofNat 255))).bind narrow?

def ofAlpha? (x : Number) : Option UInt8 := if x.isAtMostOne then ofShare? x else ofLevel? x

section
variable {x : Number} {q : ℚ} {b : UInt8}

theorem whole?_eq (value : x.value? = some (q : WithBotTop ℚ)) (nonneg : 0 ≤ q) :
    whole? x = some (⌊q + 1 / 2⌋₊ : ℤ) := by
  obtain ⟨s, m, e, rfl, size, zero⟩ := Number.exists_finite value nonneg
  have nearest : halfUp (scaleUp m e) (scaleUp 1 (-e)) = ⌊q + 1 / 2⌋₊ := by
    rw [halfUp_eq_floor (scaleUp_pos one_pos _), scaleUp_div_one, size]
  rw [whole?, nearest]
  cases s with
  | false => rfl
  | true =>
    have nothing : ⌊q + 1 / 2⌋₊ = 0 := by
      rw [zero rfl]
      norm_num
    rw [nothing]
    rfl

/-- A whole number that is a byte is narrowed to it. -/
theorem narrow?_whole? (value : x.value? = some (q : WithBotTop ℚ)) (nonneg : 0 ≤ q) (byte : b.toNat = ⌊q + 1 / 2⌋₊) :
    (whole? x).bind narrow? = some b := by
  have bound : b.toNat < 256 := b.toNat_lt
  have inRange : 0 ≤ (b.toNat : ℤ) ∧ (b.toNat : ℤ) ≤ 255 := by omega
  rw [whole?_eq value nonneg, ← byte, Option.bind_some, narrow?, if_pos inRange, Int.toNat_natCast, UInt8.ofNat_toNat]

theorem value?_clamp_ofNat {v : WithBotTop ℚ} {k : ℕ} (value : x.value? = some v) (small : k < 256) :
    (x.clamp (single.zero false) (single.ofNat k)).value? = some (clamp 0 k v : WithBotTop ℚ) :=
  Number.value?_clamp (Format.value?_zero single) (Format.value?_ofNat Format.single_holdsBytes small)
    (Nat.cast_nonneg k) value

theorem ofLevel?_eq (x : Number) : ofLevel? x = some (ofLevel x) := by
  cases value : x.value? with
  | none =>
    rw [Number.value?_eq_none_iff.mp value]
    rfl
  | some v =>
    have moved := value?_clamp_ofNat value (k := 255) (by omega)
    rw [Nat.cast_ofNat] at moved
    rw [ofLevel?, if_neg (Number.ne_nan value)]
    exact narrow?_whole? moved (le_clamp (by norm_num) v) (toNat_ofLevel value)

theorem ofShare?_eq (x : Number) : ofShare? x = some (ofShare x) := by
  cases value : x.value? with
  | none =>
    rw [Number.value?_eq_none_iff.mp value]
    rfl
  | some v =>
    have moved := value?_clamp_ofNat value (k := 1) (by omega)
    rw [Nat.cast_one] at moved
    have product := Format.value?_mul_ofNat Format.single_holdsBytes moved (le_clamp (by norm_num) v) (k := 255)
      (by omega) (by exact_mod_cast (clamp_mul_255_mem v).2)
    rw [Nat.cast_ofNat] at product
    rw [ofShare?, if_neg (Number.ne_nan value)]
    exact narrow?_whole? product (Format.rounded_nonneg _ _) (toNat_ofShare value)

theorem ofAlpha?_eq (x : Number) : ofAlpha? x = some (ofAlpha x) := by
  rw [ofAlpha?, ofAlpha, ofShare?_eq, ofLevel?_eq, ← apply_ite some]

end

/-! ## Patterns -/

/-- The bytes of two numbers come in the order of their values, those of alpha values on each side of one. -/
structure InOrder (x y : Number) (u v : WithBotTop ℚ) : Prop where
  level : ofLevel x ≤ ofLevel y
  share : ofShare x ≤ ofShare y
  alphaShare : v ≤ (1 : ℚ) → ofAlpha x ≤ ofAlpha y
  alphaLevel : (1 : ℚ) < u → ofAlpha x ≤ ofAlpha y

/-- The bytes of a number are as near to its value as the roundings leave them. -/
structure Near (x : Number) (v : WithBotTop ℚ) : Prop where
  level : (ofLevel x).toNat = ⌊clamp 0 255 v + 1 / 2⌋₊
  product : (ofShare x).toNat = ⌊single.rounded (255 * clamp 0 1 v) + 1 / 2⌋₊
  share : |((ofShare x).toNat : ℚ) - 255 * clamp 0 1 v| ≤ 1 / 2 + 1 / 2 ^ 17

section
variable {x y : Number} {u v : WithBotTop ℚ}

theorem inOrder_of_le (left : x.value? = some u) (right : y.value? = some v) (le : u ≤ v) : InOrder x y u v where
  level := ofLevel_mono left right le
  share := ofShare_mono left right le
  alphaShare share := by
    rw [ofAlpha_of_le_one left (le.trans share), ofAlpha_of_le_one right share]
    exact ofShare_mono left right le
  alphaLevel level := by
    rw [ofAlpha_of_one_lt left level, ofAlpha_of_one_lt right (level.trans_le le)]
    exact ofLevel_mono left right le

theorem near_of_value (value : x.value? = some v) : Near x v where
  level := toNat_ofLevel value
  product := by rw [mul_comm, toNat_ofShare value]
  share := abs_ofShare_sub_le value

end

/-- Main statement: on the patterns of 32 bits the conversions preserve the order and are as near as their roundings,
not-a-number is 0, and no number but a byte is narrowed. -/
theorem bytes_follow_patterns (bits other : UInt32) :
    (∀ u v, pattern? bits = some u → pattern? other = some v → u ≤ v →
      InOrder (.ofPattern bits) (.ofPattern other) u v) ∧
    (∀ v, pattern? bits = some v → Near (.ofPattern bits) v) ∧
    (pattern? bits = none →
      ofLevel (.ofPattern bits) = 0 ∧ ofShare (.ofPattern bits) = 0 ∧ ofAlpha (.ofPattern bits) = 0) ∧
    ofLevel? (.ofPattern bits) = some (ofLevel (.ofPattern bits)) ∧
    ofShare? (.ofPattern bits) = some (ofShare (.ofPattern bits)) ∧
    ofAlpha? (.ofPattern bits) = some (ofAlpha (.ofPattern bits)) := by
  simp only [← value?_ofPattern]
  refine ⟨fun u v => inOrder_of_le, fun v => near_of_value, ?_, ofLevel?_eq _, ofShare?_eq _, ofAlpha?_eq _⟩
  intro none
  rw [Number.value?_eq_none_iff.mp none]
  exact ⟨rfl, rfl, rfl⟩

/-- From minus infinity to a half, from 254.5 to infinity, and not-a-number with a sign. -/
theorem bytes_follow_patterns_to_ends :
    pattern? 0xFF800000 = some ⊥ ∧ pattern? 0x3F000000 = some ((1 / 2 : ℚ) : WithBotTop ℚ) ∧
      pattern? 0x437E8000 = some ((509 / 2 : ℚ) : WithBotTop ℚ) ∧ pattern? 0x7F800000 = some ⊤ ∧
      pattern? 0xFF800001 = none ∧
      ofAlpha (.ofPattern 0xFF800000) ≤ ofAlpha (.ofPattern 0x3F000000) ∧
      ofAlpha (.ofPattern 0x437E8000) ≤ ofAlpha (.ofPattern 0x7F800000) ∧
      Near (.ofPattern 0x437E8000) ((509 / 2 : ℚ) : WithBotTop ℚ) ∧ ofAlpha (.ofPattern 0xFF800001) = 0 := by
  have least : pattern? 0xFF800000 = some ⊥ := by decide +kernel
  have half : pattern? 0x3F000000 = some ((1 / 2 : ℚ) : WithBotTop ℚ) := by decide +kernel
  have high : pattern? 0x437E8000 = some ((509 / 2 : ℚ) : WithBotTop ℚ) := by decide +kernel
  have greatest : pattern? 0x7F800000 = some ⊤ := by decide +kernel
  have none : pattern? 0xFF800001 = none := by decide +kernel
  have small : ((1 / 2 : ℚ) : WithBotTop ℚ) ≤ (1 : ℚ) := WithBotTop.coe_le_coe.mpr (by norm_num)
  have large : ((1 : ℚ) : WithBotTop ℚ) < (509 / 2 : ℚ) := WithBotTop.coe_lt_coe.mpr (by norm_num)
  have up := (bytes_follow_patterns 0xFF800000 0x3F000000).1 _ _ least half bot_le
  have past := (bytes_follow_patterns 0x437E8000 0x7F800000).1 _ _ high greatest le_top
  exact ⟨least, half, high, greatest, none, up.alphaShare small, past.alphaLevel large,
    (bytes_follow_patterns 0x437E8000 0).2.1 _ high, ((bytes_follow_patterns 0xFF800001 0).2.2.1 none).2.2⟩

/-- The two greys of the palette are a third and two thirds of white. -/
example : Color.ofWhite (single.div (single.ofNat 1) (single.ofNat 3)) = .grey 85 ∧
    Color.ofWhite (single.div (single.ofNat 2) (single.ofNat 3)) = .grey 170 := by decide +kernel

end Channel

end ColorResolution
