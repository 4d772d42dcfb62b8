import Mathlib
import ColorResolution.Binary.Basic

/-!
# Rounding to a format

A number of a format stands for a rational number, and so does the quotient that an operation forms. Rounding is a
function between the two that preserves the order and leaves alone every number that the format holds; nothing else
about a format is needed where results are compared. Main statement: what the rounding of a quotient stands for.
-/
namespace ColorResolution.Binary

theorem two_zpow_pos (k : ℤ) : (0 : ℚ) < 2 ^ k := zpow_pos (by norm_num) k

theorem natCast_two_pow_mul (n : ℕ) (u : ℤ) : ((2 ^ n : ℕ) : ℚ) * 2 ^ u = 2 ^ (n + u) := by
  push_cast
  rw [← zpow_natCast, ← zpow_add₀ two_ne_zero]

/-! ## Scaled quotients -/

section
variable {num den : ℕ}

theorem cast_scaleUp (n : ℕ) (k : ℤ) : (scaleUp n k : ℚ) = n * 2 ^ k.toNat := by
  rw [scaleUp, Nat.shiftLeft_eq]
  push_cast
  rfl

/-- A number counted in a finer unit. -/
theorem scaleUp_sub_mul {m : ℕ} {e u : ℤ} (fine : u ≤ e) : (scaleUp m (e - u) : ℚ) * 2 ^ u = m * 2 ^ e := by
  rw [cast_scaleUp, mul_assoc, ← zpow_natCast, ← zpow_add₀ two_ne_zero]
  congr 2
  omega

theorem scaleUp_pos (positive : 0 < num) (k : ℤ) : 0 < scaleUp num k := by
  rw [scaleUp, Nat.shiftLeft_eq]
  exact Nat.mul_pos positive (Nat.two_pow_pos _)

/-- One of the two counts is scaled and the other is left as it is. -/
theorem scaleUp_div_scaleUp (num den : ℕ) (k : ℤ) : (scaleUp num (-k) : ℚ) / scaleUp den k = num / den / 2 ^ k := by
  rw [cast_scaleUp, cast_scaleUp]
  rcases Int.le_total 0 k with up | down
  · have left : (-k).toNat = 0 := by omega
    have power : (2 : ℚ) ^ k = 2 ^ k.toNat := by rw [← zpow_natCast, Int.toNat_of_nonneg up]
    rw [left, power, pow_zero, mul_one, div_div]
  · have left : k.toNat = 0 := by omega
    have power : (2 : ℚ) ^ k = (2 ^ (-k).toNat)⁻¹ := by
      rw [← zpow_natCast, Int.toNat_of_nonneg (by omega), ← zpow_neg, neg_neg]
    rw [left, power, pow_zero, mul_one, div_inv_eq_mul, div_mul_eq_mul_div]

/-- A number as the quotient by which it is worked with. -/
theorem scaleUp_div_one (m : ℕ) (e : ℤ) : (scaleUp m e : ℚ) / scaleUp 1 (-e) = m * 2 ^ e := by
  have quotient := scaleUp_div_scaleUp m 1 (-e)
  rwa [neg_neg, zpow_neg, div_inv_eq_mul, Nat.cast_one, div_one] at quotient

theorem scaleUp_le_one_iff (m : ℕ) (e : ℤ) : scaleUp m e ≤ scaleUp 1 (-e) ↔ (m * 2 ^ e : ℚ) ≤ 1 := by
  have below : (0 : ℚ) < scaleUp 1 (-e) := Nat.cast_pos.mpr (scaleUp_pos one_pos _)
  rw [← Nat.cast_le (α := ℚ), ← div_le_one below, scaleUp_div_one]

theorem scaleUp_le_iff (positive : 0 < den) (k : ℤ) :
    scaleUp den k ≤ scaleUp num (-k) ↔ (2 : ℚ) ^ k ≤ num / den := by
  have below : (0 : ℚ) < scaleUp den k := Nat.cast_pos.mpr (scaleUp_pos positive k)
  rw [← Nat.cast_le (α := ℚ), ← one_le_div below, scaleUp_div_scaleUp, one_le_div (two_zpow_pos k)]

theorem zpow_log2_le (positive : 0 < num) : (2 : ℚ) ^ (num.log2 : ℤ) ≤ num := by
  rw [zpow_natCast]
  exact_mod_cast Nat.log2_self_le positive.ne'

theorem lt_zpow_log2_succ (num : ℕ) : (num : ℚ) < 2 ^ ((num.log2 : ℤ) + 1) := by
  rw [← Nat.cast_succ, zpow_natCast]
  exact_mod_cast Nat.lt_log2_self

/-- The lengths of the two alone leave the exponent of a quotient open between two neighbours. -/
theorem zpow_le_div (hNum : 0 < num) (hDen : 0 < den) : (2 : ℚ) ^ ((num.log2 : ℤ) - den.log2 - 1) ≤ num / den := by
  rw [le_div_iff₀ (Nat.cast_pos.mpr hDen)]
  calc (2 : ℚ) ^ ((num.log2 : ℤ) - den.log2 - 1) * den
      ≤ 2 ^ ((num.log2 : ℤ) - den.log2 - 1) * 2 ^ ((den.log2 : ℤ) + 1) :=
        mul_le_mul_of_nonneg_left (lt_zpow_log2_succ den).le (two_zpow_pos _).le
    _ = 2 ^ (num.log2 : ℤ) := by rw [← zpow_add₀ two_ne_zero]; congr 1; omega
    _ ≤ num := zpow_log2_le hNum

theorem div_lt_zpow (hDen : 0 < den) : (num / den : ℚ) < 2 ^ ((num.log2 : ℤ) - den.log2 + 1) := by
  rw [div_lt_iff₀ (Nat.cast_pos.mpr hDen)]
  calc (num : ℚ) < 2 ^ ((num.log2 : ℤ) + 1) := lt_zpow_log2_succ num
    _ = 2 ^ ((num.log2 : ℤ) - den.log2 + 1) * 2 ^ (den.log2 : ℤ) := by rw [← zpow_add₀ two_ne_zero]; congr 1; omega
    _ ≤ 2 ^ ((num.log2 : ℤ) - den.log2 + 1) * den :=
        mul_le_mul_of_nonneg_left (zpow_log2_le hDen) (two_zpow_pos _).le

theorem floorLog_eq_log (hNum : 0 < num) (hDen : 0 < den) : floorLog num den = Int.log 2 (num / den : ℚ) := by
  have quotient : (0 : ℚ) < num / den := div_pos (Nat.cast_pos.mpr hNum) (Nat.cast_pos.mpr hDen)
  have lower := (Int.zpow_le_iff_le_log (b := 2) one_lt_two quotient).mp (zpow_le_div hNum hDen)
  have upper := (Int.lt_zpow_iff_log_lt (b := 2) one_lt_two quotient).mp (div_lt_zpow hDen)
  simp only [floorLog, scaleUp_le_iff hDen]
  split
  next fits =>
    have := (Int.zpow_le_iff_le_log (b := 2) one_lt_two quotient).mp fits
    omega
  next exceeds =>
    have := (Int.lt_zpow_iff_log_lt (b := 2) one_lt_two quotient).mp (not_le.mp exceeds)
    omega

/-! ## The nearest natural -/

theorem abs_nearestEven_sub_le (num : ℕ) (positive : 0 < den) : |(nearestEven num den : ℚ) - num / den| ≤ 1 / 2 := by
  have pos : (0 : ℚ) < den := Nat.cast_pos.mpr positive
  have cancel : (num / den : ℚ) * den = num := div_mul_cancel₀ _ pos.ne'
  obtain ⟨low, high⟩ := nearestEven_bounds num den positive
  have low' : 2 * (num : ℚ) ≤ 2 * (nearestEven num den * den) + den := by exact_mod_cast low
  have high' : 2 * (nearestEven num den * den) ≤ 2 * (num : ℚ) + den := by exact_mod_cast high
  rw [abs_le]
  constructor <;> nlinarith

theorem even_nearestEven_of_tie (tie : 2 * (num % den) = den) : Even (nearestEven num den) := by
  have noLess : ¬ 2 * (num % den) < den := by omega
  have noMore : ¬ den < 2 * (num % den) := by omega
  simp only [nearestEven, if_neg noLess, if_neg noMore]
  rw [Nat.even_iff]
  omega

/-- Halfway between two naturals the quotient is a tie. -/
theorem tie_of_eq (positive : 0 < den) {n : ℕ} (half : (num / den : ℚ) = n + 1 / 2) : 2 * (num % den) = den := by
  have pos : (den : ℚ) ≠ 0 := Nat.cast_ne_zero.mpr positive.ne'
  have double : 2 * (num : ℚ) = den * (2 * n + 1) := by
    rw [div_eq_iff pos] at half
    rw [half]
    ring
  have whole : 2 * num = den * (2 * n + 1) := by exact_mod_cast double
  have split : 2 * (num % den) = 2 * num % (2 * den) := (Nat.mul_mod_mul_left 2 num den).symm
  rw [split, whole, Nat.mul_add, mul_one, ← mul_assoc, mul_comm den 2, Nat.mul_add_mod]
  exact Nat.mod_eq_of_lt (by omega)

theorem nearestEven_le_nearestEven {num' den' : ℕ} (hDen : 0 < den) (hDen' : 0 < den')
    (le : (num / den : ℚ) ≤ num' / den') : nearestEven num den ≤ nearestEven num' den' := by
  by_contra more
  -- only two ties around the same half could be rounded the wrong way, and both of them go to even
  have next : (nearestEven num' den' : ℚ) + 1 ≤ nearestEven num den := by exact_mod_cast not_le.mp more
  have near := abs_le.mp (abs_nearestEven_sub_le num hDen)
  have near' := abs_le.mp (abs_nearestEven_sub_le num' hDen')
  have consecutive : nearestEven num den = nearestEven num' den' + 1 := by
    have : (nearestEven num den : ℚ) = nearestEven num' den' + 1 := by linarith
    exact_mod_cast this
  have half : (num / den : ℚ) = (nearestEven num' den' : ℕ) + 1 / 2 := by linarith
  have half' : (num' / den' : ℚ) = (nearestEven num' den' : ℕ) + 1 / 2 := by linarith
  have even := even_nearestEven_of_tie (tie_of_eq hDen half)
  have even' := even_nearestEven_of_tie (tie_of_eq hDen' half')
  rw [consecutive] at even
  exact Nat.not_even_iff_odd.mpr even'.add_one even

end

/-- The natural nearest to a rational number that is not negative; of two equally near the even one. -/
def nearest (q : ℚ) : ℕ := nearestEven q.num.natAbs q.den

section
variable {q q' : ℚ}

theorem natAbs_num_div_den (nonneg : 0 ≤ q) : (q.num.natAbs : ℚ) / q.den = q := by
  have whole : ((q.num.natAbs : ℤ) : ℚ) = q.num := by rw [Int.natAbs_of_nonneg (Rat.num_nonneg.mpr nonneg)]
  rw [← Int.cast_natCast, whole, Rat.num_div_den]

theorem nearestEven_eq_nearest (num : ℕ) {den : ℕ} (positive : 0 < den) :
    nearestEven num den = nearest (num / den) := by
  have same := natAbs_num_div_den (q := num / den) (by positivity)
  apply le_antisymm
  · exact nearestEven_le_nearestEven positive (Rat.den_pos _) same.ge
  · exact nearestEven_le_nearestEven (Rat.den_pos _) positive same.le

theorem abs_nearest_sub_le (nonneg : 0 ≤ q) : |(nearest q : ℚ) - q| ≤ 1 / 2 := by
  have near := abs_nearestEven_sub_le q.num.natAbs q.den_pos
  rwa [natAbs_num_div_den nonneg] at near

theorem nearest_mono (nonneg : 0 ≤ q) (le : q ≤ q') : nearest q ≤ nearest q' := by
  apply nearestEven_le_nearestEven q.den_pos q'.den_pos
  rwa [natAbs_num_div_den nonneg, natAbs_num_div_den (nonneg.trans le)]

@[simp] theorem nearest_natCast (n : ℕ) : nearest n = n := by
  have quotient := nearestEven_eq_nearest (n * 1) one_pos
  rw [nearestEven_mul n 1 one_pos, mul_one, Nat.cast_one, div_one] at quotient
  exact quotient.symm

end

/-! ## The value that rounding gives -/

namespace Format

/-- The exponent of the unit in which the format counts numbers of this size. -/
def unitOf (f : Format) (q : ℚ) : ℤ := max f.leastUnit (Int.log 2 q - ((f.precision : ℤ) - 1))

/-- The value that a number has after rounding, before what is too large becomes infinite. -/
def rounded (f : Format) (q : ℚ) : ℚ := nearest (q / 2 ^ f.unitOf q) * 2 ^ f.unitOf q

/-- The format counts whole numbers by more than eight bits, and units on both sides of one. -/
structure HoldsBytes (f : Format) : Prop where
  precision : 9 ≤ f.precision
  least : f.leastUnit ≤ 0
  greatest : 0 ≤ f.greatestUnit

theorem single_holdsBytes : single.HoldsBytes := ⟨by decide, by decide, by decide⟩

theorem double_holdsBytes : double.HoldsBytes := ⟨by decide, by decide, by decide⟩

section
variable {f : Format} {q q' : ℚ}

theorem leastUnit_le_unitOf : f.leastUnit ≤ f.unitOf q := le_max_left _ _

theorem unitOf_mono (positive : 0 < q) (le : q ≤ q') : f.unitOf q ≤ f.unitOf q' :=
  max_le_max_left _ (Int.sub_le_sub_right (Int.log_mono_right positive le) _)

/-- A number is counted with no more digits than the precision has. -/
theorem lt_zpow_unitOf (f : Format) (q : ℚ) : q < 2 ^ (f.unitOf q + f.precision) := by
  have log : q < 2 ^ (Int.log 2 q + 1) := Int.lt_zpow_succ_log_self one_lt_two q
  have within : Int.log 2 q + 1 ≤ f.unitOf q + f.precision := by
    have := le_max_right f.leastUnit (Int.log 2 q - ((f.precision : ℤ) - 1))
    rw [unitOf]
    omega
  exact log.trans_le (zpow_le_zpow_right₀ one_le_two within)

/-- Above the least unit it is counted with just as many. -/
theorem zpow_unitOf_le (positive : 0 < q) (above : f.leastUnit < f.unitOf q) :
    2 ^ (f.unitOf q + f.precision - 1) ≤ q := by
  have log : (2 : ℚ) ^ Int.log 2 q ≤ q := Int.zpow_log_le_self one_lt_two positive
  have reached : f.unitOf q = Int.log 2 q - ((f.precision : ℤ) - 1) := by
    rw [unitOf] at above ⊢
    omega
  have same : f.unitOf q + f.precision - 1 = Int.log 2 q := by omega
  rwa [same]

/-- A whole multiple of a unit that is not finer than the number's own is counted exactly. -/
theorem rounded_eq_of_unitOf_le {m : ℕ} {k : ℤ} (split : q = m * 2 ^ k) (fine : f.unitOf q ≤ k) : f.rounded q = q := by
  have count : q / 2 ^ f.unitOf q = (m * 2 ^ (k - f.unitOf q).toNat : ℕ) := by
    have power : (2 : ℚ) ^ (k - f.unitOf q).toNat = 2 ^ k / 2 ^ f.unitOf q := by
      rw [← zpow_natCast, Int.toNat_of_nonneg (by omega), zpow_sub₀ two_ne_zero]
    push_cast
    rw [power, ← mul_div_assoc, ← split]
  rw [rounded, count, nearest_natCast, ← count, div_mul_cancel₀ _ (two_zpow_pos _).ne']

@[simp] theorem rounded_zero (f : Format) : f.rounded 0 = 0 := by
  have count : nearest 0 = 0 := nearest_natCast 0
  simp [rounded, count]

/-- The numbers of the format are left alone. -/
theorem rounded_eq_self {m : ℕ} {k : ℤ} (short : m < 2 ^ f.precision) (least : f.leastUnit ≤ k) :
    f.rounded (m * 2 ^ k) = m * 2 ^ k := by
  rcases Nat.eq_zero_or_pos m with rfl | positive
  · simp
  have value : (0 : ℚ) < m * 2 ^ k := mul_pos (Nat.cast_pos.mpr positive) (two_zpow_pos k)
  have log : Int.log 2 ((m : ℚ) * 2 ^ k) < f.precision + k := by
    rw [← Int.lt_zpow_iff_log_lt one_lt_two value]
    push_cast
    rw [zpow_add₀ two_ne_zero, zpow_natCast]
    exact mul_lt_mul_of_pos_right (by exact_mod_cast short) (two_zpow_pos k)
  apply rounded_eq_of_unitOf_le rfl
  rw [unitOf]
  omega

theorem rounded_natCast {n : ℕ} (short : n < 2 ^ f.precision) (least : f.leastUnit ≤ 0) : f.rounded n = n := by
  have same := rounded_eq_self short least
  rwa [zpow_zero, mul_one] at same

theorem rounded_nonneg (f : Format) (q : ℚ) : 0 ≤ f.rounded q :=
  mul_nonneg (Nat.cast_nonneg _) (two_zpow_pos _).le

/-- No number is moved by more than half its unit. -/
theorem abs_rounded_sub_le (nonneg : 0 ≤ q) : |f.rounded q - q| ≤ 2 ^ f.unitOf q / 2 := by
  have unit := two_zpow_pos (f.unitOf q)
  have near := abs_nearest_sub_le (q := q / 2 ^ f.unitOf q) (div_nonneg nonneg unit.le)
  have whole : q = q / 2 ^ f.unitOf q * 2 ^ f.unitOf q := (div_mul_cancel₀ q unit.ne').symm
  calc |f.rounded q - q| = |(nearest (q / 2 ^ f.unitOf q) : ℚ) - q / 2 ^ f.unitOf q| * 2 ^ f.unitOf q := by
        rw [← abs_of_pos unit, ← abs_mul, abs_of_pos unit, sub_mul, ← whole, rounded]
    _ ≤ 1 / 2 * 2 ^ f.unitOf q := mul_le_mul_of_nonneg_right near unit.le
    _ = 2 ^ f.unitOf q / 2 := by ring

theorem nearest_le_two_pow (nonneg : 0 ≤ q) : nearest (q / 2 ^ f.unitOf q) ≤ 2 ^ f.precision := by
  have unit := two_zpow_pos (f.unitOf q)
  have bound : q / 2 ^ f.unitOf q ≤ (2 ^ f.precision : ℕ) := by
    rw [div_le_iff₀ unit, natCast_two_pow_mul, add_comm]
    exact (lt_zpow_unitOf f q).le
  have count := nearest_mono (div_nonneg nonneg unit.le) bound
  rwa [nearest_natCast] at count

theorem two_pow_le_nearest (positive : 0 < q) (precision : 0 < f.precision) (above : f.leastUnit < f.unitOf q) :
    2 ^ (f.precision - 1) ≤ nearest (q / 2 ^ f.unitOf q) := by
  have unit := two_zpow_pos (f.unitOf q)
  have bound : ((2 ^ (f.precision - 1) : ℕ) : ℚ) ≤ q / 2 ^ f.unitOf q := by
    have same : ((f.precision - 1 : ℕ) : ℤ) + f.unitOf q = f.unitOf q + f.precision - 1 := by omega
    rw [le_div_iff₀ unit, natCast_two_pow_mul, same]
    exact zpow_unitOf_le positive above
  have count := nearest_mono (Nat.cast_nonneg _) bound
  rwa [nearest_natCast] at count

/-- Rounding preserves the order, also where the unit changes: up to there a number has at most as many digits as the
precision, and from there on at least as many. -/
theorem rounded_mono (precision : 0 < f.precision) (nonneg : 0 ≤ q) (le : q ≤ q') : f.rounded q ≤ f.rounded q' := by
  rcases nonneg.eq_or_lt with rfl | positive
  · rw [rounded_zero]
    exact rounded_nonneg f q'
  have unit := two_zpow_pos (f.unitOf q)
  rcases (unitOf_mono positive le : f.unitOf q ≤ f.unitOf q').eq_or_lt with same | coarser
  · rw [rounded, rounded, ← same]
    have count := nearest_mono (div_nonneg nonneg unit.le) (div_le_div_of_nonneg_right le unit.le)
    exact mul_le_mul_of_nonneg_right (Nat.cast_le.mpr count) unit.le
  have high := two_pow_le_nearest (positive.trans_le le) precision (leastUnit_le_unitOf.trans_lt coarser)
  calc f.rounded q ≤ (2 ^ f.precision : ℕ) * 2 ^ f.unitOf q :=
        mul_le_mul_of_nonneg_right (Nat.cast_le.mpr (nearest_le_two_pow nonneg)) unit.le
    _ = 2 ^ (f.precision + f.unitOf q) := natCast_two_pow_mul _ _
    _ ≤ 2 ^ ((f.precision - 1 : ℕ) + f.unitOf q') := zpow_le_zpow_right₀ one_le_two (by omega)
    _ = (2 ^ (f.precision - 1) : ℕ) * 2 ^ f.unitOf q' := (natCast_two_pow_mul _ _).symm
    _ ≤ f.rounded q' := mul_le_mul_of_nonneg_right (Nat.cast_le.mpr high) (two_zpow_pos _).le

/-! ## Numbers that stand for a rational number -/

/-- The numbers that stand for `± q` in the format; whatever is too large is infinite. -/
inductive Stands (f : Format) (negative : Bool) (q : ℚ) : Number → Prop
  | finite {m : ℕ} {e : ℤ} : m * 2 ^ e = q → q < 2 ^ (f.greatestUnit + f.precision) →
    Stands f negative q (.finite negative m e)
  | infinite : 2 ^ (f.greatestUnit + f.precision) ≤ q → Stands f negative q (.infinite negative)

theorem stands_bounded {m : ℕ} {u : ℤ} (negative : Bool) (precision : 0 < f.precision) (value : m * 2 ^ u = q)
    (short : m < 2 ^ f.precision) (normal : f.greatestUnit < u → 2 ^ (f.precision - 1) ≤ m) :
    f.Stands negative q (f.bounded negative m u) := by
  rw [bounded]
  split
  next exceeds =>
    have count : ((2 ^ (f.precision - 1) : ℕ) : ℚ) ≤ m := Nat.cast_le.mpr (normal exceeds)
    apply Stands.infinite
    calc (2 : ℚ) ^ (f.greatestUnit + f.precision) ≤ 2 ^ ((f.precision - 1 : ℕ) + u) :=
          zpow_le_zpow_right₀ one_le_two (by omega)
      _ = (2 ^ (f.precision - 1) : ℕ) * 2 ^ u := (natCast_two_pow_mul _ _).symm
      _ ≤ m * 2 ^ u := mul_le_mul_of_nonneg_right count (two_zpow_pos u).le
      _ = q := value
  next fits =>
    apply Stands.finite value
    calc q = m * 2 ^ u := value.symm
      _ < (2 ^ f.precision : ℕ) * 2 ^ u := mul_lt_mul_of_pos_right (Nat.cast_lt.mpr short) (two_zpow_pos u)
      _ = 2 ^ (f.precision + u) := natCast_two_pow_mul _ _
      _ ≤ 2 ^ (f.greatestUnit + f.precision) := zpow_le_zpow_right₀ one_le_two (by omega)

theorem unit_eq_unitOf (f : Format) {num den : ℕ} (hNum : 0 < num) (hDen : 0 < den) :
    f.unit num den = f.unitOf (num / den) := by
  rw [unit, floorLog_eq_log hNum hDen, unitOf]

/-- Main statement: a quotient is rounded to a number that stands for its rounded value. -/
theorem stands_round (holds : f.HoldsBytes) (negative : Bool) {num den : ℕ} (positive : 0 < den) :
    f.Stands negative (f.rounded (num / den)) (f.round negative num den) := by
  have precision : 0 < f.precision := by have := holds.precision; omega
  rw [round]
  split
  next zero =>
    rw [zero, Nat.cast_zero, zero_div, rounded_zero]
    exact .finite (by simp) (two_zpow_pos _)
  next some =>
    have some : 0 < num := Nat.pos_of_ne_zero some
    have quotient : (0 : ℚ) < num / den := div_pos (Nat.cast_pos.mpr some) (Nat.cast_pos.mpr positive)
    have count (u : ℤ) : nearestEven (scaleUp num (-u)) (scaleUp den u) = nearest (num / den / 2 ^ u) := by
      rw [nearestEven_eq_nearest _ (scaleUp_pos positive _), scaleUp_div_scaleUp]
    simp only [f.unit_eq_unitOf some positive, count, Nat.one_shiftLeft]
    split
    next full =>
      -- the count has one digit too many, and it is a power of two
      apply stands_bounded negative precision
      · rw [rounded, full, ← pow_sub_one_mul precision.ne', zpow_add_one₀ two_ne_zero]
        push_cast
        ring
      · exact Nat.pow_lt_pow_right one_lt_two (by omega)
      · exact fun _ => le_rfl
    next short =>
      apply stands_bounded negative precision rfl
      · exact lt_of_le_of_ne (nearest_le_two_pow quotient.le) short
      · intro exceeds
        have least : f.leastUnit ≤ f.greatestUnit := holds.least.trans holds.greatest
        exact two_pow_le_nearest quotient precision (least.trans_lt exceeds)

/-- A quotient that is counted in larger units than the format has. -/
theorem round_eq_infinite (negative : Bool) {num den : ℕ} (hNum : 0 < num) (hDen : 0 < den)
    (large : (2 : ℚ) ^ (f.greatestUnit + f.precision) ≤ num / den) : f.round negative num den = .infinite negative := by
  have quotient : (0 : ℚ) < num / den := div_pos (Nat.cast_pos.mpr hNum) (Nat.cast_pos.mpr hDen)
  have log := (Int.zpow_le_iff_le_log (b := 2) one_lt_two quotient).mp large
  have exceeds : f.greatestUnit < f.unitOf (num / den) := by
    rw [unitOf]
    omega
  have next : f.greatestUnit < f.unitOf (num / den) + 1 := by omega
  simp only [round, hNum.ne', f.unit_eq_unitOf hNum hDen, bounded, exceeds, next, if_true, if_false, ite_self]

/-- A quotient of less than half the least unit. -/
theorem round_eq_zero (holds : f.HoldsBytes) (negative : Bool) {num den : ℕ} (hNum : 0 < num) (hDen : 0 < den)
    (small : (num / den : ℚ) < 2 ^ (f.leastUnit - 1)) : f.round negative num den = f.zero negative := by
  have quotient : (0 : ℚ) < num / den := div_pos (Nat.cast_pos.mpr hNum) (Nat.cast_pos.mpr hDen)
  have log := (Int.lt_zpow_iff_log_lt (b := 2) one_lt_two quotient).mp small
  have least : f.unit num den = f.leastUnit := by
    rw [f.unit_eq_unitOf hNum hDen, unitOf]
    omega
  have half : (num / den / 2 ^ f.leastUnit : ℚ) < 1 / 2 := by
    rw [div_lt_iff₀ (two_zpow_pos _), one_div_mul_eq_div, div_eq_mul_inv _ (2 : ℚ), ← zpow_sub_one₀ two_ne_zero]
    exact small
  have none : nearest (num / den / 2 ^ f.leastUnit) = 0 := by
    have near := abs_nearest_sub_le (div_nonneg quotient.le (two_zpow_pos f.leastUnit).le)
    have below : (nearest (num / den / 2 ^ f.leastUnit) : ℚ) < 1 := by linarith [(abs_le.mp near).2]
    exact Nat.lt_one_iff.mp (by exact_mod_cast below)
  have count : nearestEven (scaleUp num (-f.leastUnit)) (scaleUp den f.leastUnit) = 0 := by
    rw [nearestEven_eq_nearest _ (scaleUp_pos hDen _), scaleUp_div_scaleUp, none]
  have short : 0 ≠ 1 <<< f.precision := by
    rw [Nat.one_shiftLeft]
    exact (Nat.two_pow_pos _).ne
  have ordered : ¬ f.greatestUnit < f.leastUnit := not_lt.mpr (holds.least.trans holds.greatest)
  simp only [round, hNum.ne', if_false, least, count, short, bounded, ordered, zero]

end

end Format

end ColorResolution.Binary
