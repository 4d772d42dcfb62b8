import Mathlib
import ColorResolution.Color.Channel
import ColorResolution.Proofs.Binary.Rounding

/-!
# Integers as levels

Of an integer a channel shows no more than what is left of it between 0 and 255. So a floating number may stand for
another integer than the one that was meant, as it does where an integer has too many digits for the format, as long as
both are above the range. Sums, products and roundings respect this: an integer that was taken in by any chain of them
still has its own level.
-/
namespace ColorResolution

open Binary

namespace Binary

theorem Format.HoldsBytes.capacity {f : Format} (holds : f.HoldsBytes) : 512 ≤ 2 ^ f.precision :=
  Nat.pow_le_pow_right two_pos holds.precision

theorem Format.HoldsBytes.range {f : Format} (holds : f.HoldsBytes) :
    (512 : ℚ) ≤ 2 ^ (f.greatestUnit + f.precision) := by
  have := holds.precision
  have := holds.greatest
  calc (512 : ℚ) = 2 ^ (9 : ℤ) := by norm_num
    _ ≤ 2 ^ (f.greatestUnit + f.precision) := zpow_le_zpow_right₀ one_le_two (by omega)

/-- The quotient is this natural, or both are above every level. -/
def SameLevel (q : ℚ) (n : ℕ) : Prop := q = n ∨ 256 ≤ q ∧ 256 ≤ n

namespace SameLevel

variable {q q' : ℚ} {n n' : ℕ}

theorem nonneg (same : SameLevel q n) : 0 ≤ q := by
  rcases same with rfl | ⟨above, _⟩
  · exact Nat.cast_nonneg n
  · linarith

theorem add (same : SameLevel q n) (same' : SameLevel q' n') : SameLevel (q + q') (n + n') := by
  have nonneg := same.nonneg
  have nonneg' := same'.nonneg
  rcases same with rfl | ⟨above, above'⟩
  · rcases same' with rfl | ⟨above, above'⟩
    · exact .inl (Nat.cast_add n n').symm
    · exact .inr ⟨by linarith, by omega⟩
  · exact .inr ⟨by linarith, by omega⟩

theorem mul_natCast {k : ℕ} (same : SameLevel q n) (positive : 0 < k) : SameLevel (q * k) (n * k) := by
  rcases same with rfl | ⟨above, above'⟩
  · exact .inl (Nat.cast_mul n k).symm
  · have least : (1 : ℚ) ≤ k := Nat.one_le_cast.mpr positive
    exact .inr ⟨by nlinarith, above'.trans (Nat.le_mul_of_pos_right n positive)⟩

/-- A number above every level is rounded to one that is, because the next power of two is a number of the format. -/
theorem rounded {f : Format} (holds : f.HoldsBytes) (same : SameLevel q n) : SameLevel (f.rounded q) n := by
  have capacity := holds.capacity
  have order {a b : ℚ} (nonneg : 0 ≤ a) (le : a ≤ b) : f.rounded a ≤ f.rounded b :=
    Format.rounded_mono (by have := holds.precision; omega) nonneg le
  have bound : f.rounded (256 : ℕ) = (256 : ℕ) := Format.rounded_natCast (by omega) holds.least
  have reached (above : 256 ≤ q) : 256 ≤ f.rounded q := by
    have kept := order (Nat.cast_nonneg 256) (by exact_mod_cast above : ((256 : ℕ) : ℚ) ≤ q)
    rw [bound] at kept
    exact_mod_cast kept
  rcases same with rfl | ⟨above, above'⟩
  · rcases Nat.lt_or_ge n 256 with low | high
    · exact .inl (Format.rounded_natCast (by omega) holds.least)
    · exact .inr ⟨reached (by exact_mod_cast high), high⟩
  · exact .inr ⟨reached above, above'⟩

end SameLevel

namespace Number

/-- The numbers that have the level of this natural. -/
inductive HasLevel : Number → ℕ → Prop
  | finite {m : ℕ} {e : ℤ} {n : ℕ} : SameLevel (m * 2 ^ e) n → HasLevel (.finite false m e) n
  | infinite {n : ℕ} : 256 ≤ n → HasLevel (.infinite false) n

/-- The numbers below zero, minus zero among them. -/
inductive Minus : Number → Prop
  | finite (m : ℕ) (e : ℤ) : Minus (.finite true m e)
  | infinite : Minus (.infinite true)

theorem HasLevel.minus_negate {x : Number} {n : ℕ} (level : x.HasLevel n) : x.negate.Minus := by
  cases level with
  | finite => exact .finite _ _
  | infinite => exact .infinite

/-- The numbers that are shown as this integer is. -/
inductive Shows (x : Number) : ℤ → Prop
  | natural {n : ℕ} : x.HasLevel n → Shows x n
  | negative {z : ℤ} : z < 0 → x.Minus → Shows x z

end Number

/-! ## Rounding and arithmetic -/

namespace Format

open Number

variable {f : Format} {x y : Number} {q : ℚ} {n k : ℕ}

theorem Stands.hasLevel (holds : f.HoldsBytes) (stands : f.Stands false q x) (same : SameLevel q n) : x.HasLevel n := by
  cases stands with
  | finite value _ => exact .finite (value ▸ same)
  | infinite large =>
    apply HasLevel.infinite
    rcases same with rfl | ⟨_, above⟩
    · have : (256 : ℚ) ≤ n := by linarith [holds.range]
      exact_mod_cast this
    · exact above

theorem hasLevel_round (holds : f.HoldsBytes) {num den : ℕ} (positive : 0 < den) (same : SameLevel (num / den) n) :
    (f.round false num den).HasLevel n :=
  (stands_round holds false positive).hasLevel holds (same.rounded holds)

theorem hasLevel_ofNat (holds : f.HoldsBytes) (n : ℕ) : (f.ofNat n).HasLevel n := by
  apply hasLevel_round holds one_pos
  rw [Nat.cast_one, div_one]
  exact .inl rfl

theorem hasLevel_zero (f : Format) : (f.zero false).HasLevel 0 := .finite (.inl (by simp))

theorem hasLevel_roundScaled (holds : f.HoldsBytes) {m : ℕ} {e : ℤ} (same : SameLevel (m * 2 ^ e) n) :
    (f.roundScaled false m e).HasLevel n := by
  apply hasLevel_round holds (scaleUp_pos one_pos _)
  rwa [scaleUp_div_one]

theorem minus_round (holds : f.HoldsBytes) {num den : ℕ} (positive : 0 < den) : (f.round true num den).Minus := by
  have stands : f.Stands true (f.rounded (num / den)) (f.round true num den) := stands_round holds true positive
  generalize f.round true num den = x at stands
  cases stands with
  | finite => exact .finite _ _
  | infinite => exact .infinite

/-- Between formats an integer keeps what is shown of it. -/
theorem shows_convert (holds : f.HoldsBytes) {z : ℤ} (shows : x.Shows z) : (f.convert x).Shows z := by
  cases shows with
  | natural level =>
    cases level with
    | finite same => exact .natural (hasLevel_roundScaled holds same)
    | infinite above => exact .natural (.infinite above)
  | negative below minus =>
    cases minus with
    | finite m e => exact .negative below (minus_round holds (scaleUp_pos one_pos _))
    | infinite => exact .negative below .infinite

theorem shows_ofInt (holds : f.HoldsBytes) (z : ℤ) : (f.ofInt z).Shows z := by
  rw [ofInt]
  rcases lt_or_ge z 0 with below | natural
  · rw [decide_eq_true below]
    exact .negative below (minus_round holds one_pos)
  · obtain ⟨n, rfl⟩ := Int.eq_ofNat_of_zero_le natural
    rw [decide_eq_false (by omega), Int.natAbs_natCast]
    exact .natural (hasLevel_ofNat holds n)

/-- Without a sign the sum is that of the two counts in the smaller unit. -/
theorem add_unsigned (f : Format) (m m' : ℕ) (e e' : ℤ) :
    f.add (.finite false m e) (.finite false m' e') =
      let count := scaleUp m (e - min e e') + scaleUp m' (e' - min e e')
      if count = 0 then f.zero false else f.roundScaled false count (min e e') := by
  have sum : signedCount false m e (min e e') + signedCount false m' e' (min e e') =
      (scaleUp m (e - min e e') + scaleUp m' (e' - min e e') : ℕ) := by
    simp [signedCount]
  simp only [add, sum, Int.natCast_eq_zero, Bool.and_self, Int.natAbs_natCast]
  rw [decide_eq_false (by omega)]

theorem hasLevel_add (holds : f.HoldsBytes) (level : x.HasLevel n) (level' : y.HasLevel k) :
    (f.add x y).HasLevel (n + k) := by
  cases level with
  | infinite above => cases level' <;> exact .infinite (by omega)
  | @finite m e _ same =>
    cases level' with
    | infinite above => exact .infinite (by omega)
    | @finite m' e' _ same' =>
      have total := same.add same'
      rw [← scaleUp_sub_mul (min_le_left e e'), ← scaleUp_sub_mul (min_le_right e e'), ← add_mul,
        ← Nat.cast_add] at total
      rw [add_unsigned]
      dsimp only
      split
      next nothing =>
        rw [nothing] at total
        exact .finite (by simpa using total)
      next => exact hasLevel_roundScaled holds total

/-- A natural of the format is finite and stands for itself. -/
theorem ofNat_eq_finite (holds : f.HoldsBytes) (small : k < 256) :
    ∃ m e, f.ofNat k = .finite false m e ∧ (m : ℚ) * 2 ^ e = k := by
  have stands : f.Stands false (f.rounded ((k : ℚ) / (1 : ℕ))) (f.ofNat k) := stands_round holds false one_pos
  rw [Nat.cast_one, div_one, rounded_natCast (by have := holds.capacity; omega) holds.least] at stands
  generalize f.ofNat k = x at stands
  cases stands with
  | finite value => exact ⟨_, _, rfl, value⟩
  | infinite large =>
    have : (k : ℚ) < 256 := by exact_mod_cast small
    linarith [holds.range]

theorem hasLevel_mul_ofNat (holds : f.HoldsBytes) (level : x.HasLevel n) (positive : 0 < k) (small : k < 256) :
    (f.mul x (f.ofNat k)).HasLevel (n * k) := by
  obtain ⟨m', e', written, value⟩ := ofNat_eq_finite holds small
  have some : m' ≠ 0 := by
    rintro rfl
    have : (k : ℚ) ≠ 0 := Nat.cast_ne_zero.mpr positive.ne'
    simp [← value] at this
  rw [written]
  cases level with
  | infinite above =>
    rw [mul, if_neg some]
    exact .infinite (above.trans (Nat.le_mul_of_pos_right n positive))
  | @finite m e _ same =>
    have product := same.mul_natCast positive
    rw [← value, mul_mul_mul_comm, ← zpow_add₀ two_ne_zero, ← Nat.cast_mul] at product
    exact hasLevel_roundScaled holds product

end Format

end Binary

/-! ## Channels -/

namespace Channel

/-- The byte of an integer level. -/
def level (z : ℤ) : UInt8 := UInt8.ofNat (min (max z 0) 255).toNat

/-- The byte of an integer alpha value: 1 is the whole share, and what is larger is a level. -/
def alphaLevel (z : ℤ) : UInt8 := if z ≤ 0 then 0 else if z = 1 then 255 else UInt8.ofNat (min z 255).toNat

theorem level_of_nonpos {z : ℤ} (nonpos : z ≤ 0) : level z = 0 := by
  have clamped : (min (max z 0) 255).toNat = 0 := by omega
  rw [level, clamped]
  rfl

theorem alphaLevel_of_ne_one {z : ℤ} (other : z ≠ 1) : alphaLevel z = level z := by
  rw [alphaLevel, if_neg other]
  split
  next small => rw [level_of_nonpos small]
  next large =>
    rw [level]
    congr 1
    omega

theorem halfUp_eq_floor {num den : ℕ} (positive : 0 < den) : halfUp num den = ⌊(num / den : ℚ) + 1 / 2⌋₊ := by
  have pos : (den : ℚ) ≠ 0 := Nat.cast_ne_zero.mpr positive.ne'
  have quotient : (num / den : ℚ) + 1 / 2 = ((2 * num + den : ℕ) : ℚ) / (2 * den : ℕ) := by
    push_cast
    field_simp
  rw [halfUp, quotient, Nat.floor_div_eq_div]

theorem ofLevel_finite (m : ℕ) (e : ℤ) :
    ofLevel (.finite false m e) = UInt8.ofNat (min 255 ⌊(m * 2 ^ e : ℚ) + 1 / 2⌋₊) := by
  rw [← scaleUp_div_one, ← halfUp_eq_floor (scaleUp_pos one_pos _)]
  rfl

section
variable {x : Number} {n : ℕ} {z : ℤ}

theorem ofLevel_of_hasLevel (given : x.HasLevel n) : ofLevel x = UInt8.ofNat (min 255 n) := by
  cases given with
  | infinite above =>
    rw [min_eq_left (by omega)]
    rfl
  | @finite m e _ same =>
    rw [ofLevel_finite]
    rcases same with value | ⟨above, above'⟩
    · rw [value, add_comm, Nat.floor_add_natCast (by norm_num)]
      norm_num
    · have high : 256 ≤ ⌊(m * 2 ^ e : ℚ) + 1 / 2⌋₊ := Nat.le_floor (by push_cast; linarith)
      rw [min_eq_left (by omega), min_eq_left (by omega)]

theorem ofLevel_of_minus (minus : x.Minus) : ofLevel x = 0 := by
  cases minus <;> rfl

theorem ofLevel_of_shows (shows : x.Shows z) : ofLevel x = level z := by
  cases shows with
  | @natural n given =>
    rw [ofLevel_of_hasLevel given, level]
    congr 1
    omega
  | negative below minus => rw [ofLevel_of_minus minus, level_of_nonpos below.le]

theorem isAtMostOne_of_hasLevel (given : x.HasLevel n) : x.isAtMostOne = decide (n ≤ 1) := by
  cases given with
  | infinite above => exact (decide_eq_false (by omega)).symm
  | @finite m e _ same =>
    rw [Number.isAtMostOne, Bool.false_or, decide_eq_decide, scaleUp_le_one_iff]
    rcases same with value | ⟨above, above'⟩
    · rw [value, Nat.cast_le_one]
    · constructor
      · intro small
        linarith
      · omega

theorem ofShare_of_hasLevel (given : x.HasLevel n) (share : n ≤ 1) : ofShare x = UInt8.ofNat (n * 255) := by
  have product := Format.hasLevel_mul_ofNat Format.single_holdsBytes given (k := 255) (by omega) (by omega)
  have inRange := isAtMostOne_of_hasLevel given
  rw [decide_eq_true share] at inRange
  have kept : clampShare x = x := by
    cases given with
    | infinite above => omega
    | finite => simp only [clampShare, Bool.false_eq_true, if_false, inRange, if_true]
  rw [ofShare, kept, ofLevel_of_hasLevel product, min_eq_right (by omega)]

theorem ofShare_of_minus (minus : x.Minus) : ofShare x = 0 := by
  have floor : clampShare x = single.zero false := by cases minus <;> rfl
  have nothing := Format.hasLevel_mul_ofNat Format.single_holdsBytes (Format.hasLevel_zero single) (k := 255)
  rw [ofShare, floor, ofLevel_of_hasLevel (nothing (by omega) (by omega))]
  rfl

/-- Up to 1 an alpha value is a share, which of the integers only 0 and 1 are, and above it is a level. -/
theorem ofAlpha_of_shows (shows : x.Shows z) : ofAlpha x = alphaLevel z := by
  rw [ofAlpha]
  cases shows with
  | negative below minus =>
    rw [ofShare_of_minus minus, ofLevel_of_minus minus, ite_self, alphaLevel_of_ne_one (by omega),
      level_of_nonpos below.le]
  | @natural n given =>
    have inRange : x.isAtMostOne = true ↔ n ≤ 1 := by rw [isAtMostOne_of_hasLevel given, decide_eq_true_eq]
    simp only [inRange]
    split
    next share =>
      rw [ofShare_of_hasLevel given share]
      interval_cases n <;> rfl
    next => rw [alphaLevel_of_ne_one (by omega), ofLevel_of_shows (.natural given)]

end

end Channel

end ColorResolution
