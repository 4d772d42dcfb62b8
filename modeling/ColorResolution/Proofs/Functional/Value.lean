import ColorResolution.Proofs.Binary.Rounding
import ColorResolution.Proofs.Functional.Numeral

/-!
# What numerals mean

The number of a numeral, as a relation on its digits. It is a number of 64 bits, and every sum and product on the way is
rounded: a digit before the point comes behind ten times the digits before it, a digit behind the point counts by the
weight of its place, and the sum is at last multiplied by a power of ten, of any size. Main statement: what a written
numeral means is the value that is worked out for it, and nothing else.
-/
namespace ColorResolution.Functional

open Binary

/-- The digits before the point. -/
inductive Whole : List Char → Number → Prop
  | nothing : Whole [] (double.ofNat 0)
  | digit {ds : List Char} {v : Number} (d : Fin 10) : Whole ds v →
    Whole (ds ++ [Nat.digitChar d]) (double.add (double.mul v (double.ofNat 10)) (double.ofNat d))

/-- The weight of a place behind the point: a tenth for the first, and for any other a tenth of the one before it. -/
def placeWeight : ℕ → Number
  | 0 => double.div (double.ofNat 1) (double.ofNat 10)
  | i + 1 => double.mul (placeWeight i) (double.div (double.ofNat 1) (double.ofNat 10))

/-- The digits behind the point. -/
inductive Behind : List Char → Number → Prop
  | nothing : Behind [] (double.ofNat 0)
  | digit {ds : List Char} {v : Number} (d : Fin 10) : Behind ds v →
    Behind (ds ++ [Nat.digitChar d]) (double.add v (double.mul (double.ofNat d) (placeWeight ds.length)))

/-- The power of ten for an exponent: the nearest number, but for two exponents the one above it. -/
inductive TenTo : ℤ → Number → Prop
  | up (n : ℕ) : n ≠ 23 → n ≠ 210 → TenTo n (double.round false (10 ^ n) 1)
  | above {n m : ℕ} {e : ℤ} : n = 23 ∨ n = 210 → double.round false (10 ^ n) 1 = .finite false m e →
    TenTo n (.finite false (m + 1) e)
  | down (n : ℕ) : TenTo (-n) (double.round false 1 (10 ^ n))

/-- The number with a sign. -/
def signed (negative : Bool) (x : Number) : Number := if negative then x.negate else x

/-- The exponent that a sign and digits write. -/
def signedNatural (negative : Bool) (ds : List Char) : ℤ :=
  if negative then -(Nat.ofDigitChars 10 ds 0 : ℤ) else (Nat.ofDigitChars 10 ds 0 : ℤ)

/-- The number that the parts of a numeral come to. -/
inductive Numeral.Means : Numeral → Number → Prop
  | plain {negative : Bool} {whole fraction : List Char} {v w : Number} : Whole whole v → Behind fraction w →
    Numeral.Means ⟨negative, whole, fraction, none⟩ (signed negative (double.add v w))
  | raised {negative below : Bool} {whole fraction ds : List Char} {v w p : Number} : Whole whole v →
    Behind fraction w → TenTo (signedNatural below ds) p →
    Numeral.Means ⟨negative, whole, fraction, some (below, ds)⟩ (double.mul (signed negative (double.add v w)) p)

/-! ## Digits -/

section
variable {ds : List Char} {v : Number}

theorem digitValue_digitChar (d : Fin 10) : Text.digitValue (Nat.digitChar d) = d := by
  revert d
  decide

theorem exists_digitChar {c : Char} (digit : c.isDigit = true) : ∃ d : Fin 10, c = Nat.digitChar d := by
  obtain ⟨least, greatest⟩ := Char.isDigit_iff_toNat.mp digit
  have zero : '0'.toNat = 48 := rfl
  have nine : '9'.toNat = 57 := rfl
  have small : c.toNat - 48 < 10 := by omega
  refine ⟨⟨c.toNat - 48, small⟩, Char.toNat_inj.mp ?_⟩
  rw [Nat.toNat_digitChar_of_lt_ten small]
  omega

theorem digits_concat {c : Char} (digits : Digits (ds ++ [c])) : Digits ds ∧ c.isDigit = true :=
  ⟨fun d member => digits d (List.mem_append_left _ member), digits c (by simp)⟩

theorem wholeValue_concat (ds : List Char) (c : Char) :
    wholeValue (ds ++ [c]) =
      double.add (double.mul (wholeValue ds) (double.ofNat 10)) (double.ofNat (Text.digitValue c)) := by
  rw [wholeValue, List.foldl_concat]
  rfl

theorem Whole.eq_wholeValue (means : Whole ds v) : v = wholeValue ds := by
  induction means with
  | nothing => rfl
  | digit d _ ih => rw [wholeValue_concat, digitValue_digitChar, ih]

theorem whole_wholeValue (digits : Digits ds) : Whole ds (wholeValue ds) := by
  induction ds using List.reverseRecOn with
  | nil => exact .nothing
  | append_singleton ds c ih =>
    obtain ⟨front, last⟩ := digits_concat digits
    obtain ⟨d, rfl⟩ := exists_digitChar last
    rw [wholeValue_concat, digitValue_digitChar]
    exact .digit d (ih front)

/-! ## Digits behind the point -/

/-- The tenth that weights are worked out with is the quotient of one by ten. -/
theorem tenth_eq : tenth = double.div (double.ofNat 1) (double.ofNat 10) := by decide +kernel

/-- The sum goes along with the weight of the place that comes next. -/
theorem foldl_addPlace (ds : List Char) :
    ds.foldl addPlace (double.zero false, tenth) = (fractionValue ds, placeWeight ds.length) := by
  induction ds using List.reverseRecOn with
  | nil => rw [List.length_nil, placeWeight, ← tenth_eq]; rfl
  | append_singleton ds c ih =>
    rw [fractionValue, List.foldl_concat, ih, List.length_append, List.length_singleton, placeWeight, ← tenth_eq]
    rfl

theorem fractionValue_concat (ds : List Char) (c : Char) :
    fractionValue (ds ++ [c]) =
      double.add (fractionValue ds) (double.mul (double.ofNat (Text.digitValue c)) (placeWeight ds.length)) := by
  rw [fractionValue, List.foldl_concat, foldl_addPlace]
  rfl

theorem Behind.eq_fractionValue (means : Behind ds v) : v = fractionValue ds := by
  induction means with
  | nothing => rfl
  | digit d _ ih => rw [fractionValue_concat, digitValue_digitChar, ih]

theorem behind_fractionValue (digits : Digits ds) : Behind ds (fractionValue ds) := by
  induction ds using List.reverseRecOn with
  | nil => exact .nothing
  | append_singleton ds c ih =>
    obtain ⟨front, last⟩ := digits_concat digits
    obtain ⟨d, rfl⟩ := exists_digitChar last
    rw [fractionValue_concat, digitValue_digitChar]
    exact .digit d (ih front)

end

/-! ## Powers of ten -/

section
variable {n : ℕ} {k : ℤ} {p : Number}

theorem two_zpow_lt_ten_pow {u : ℤ} (small : u < 1200) (large : 400 ≤ n) : (2 : ℚ) ^ u < 10 ^ n :=
  calc (2 : ℚ) ^ u < 2 ^ ((3 * n : ℕ) : ℤ) := zpow_lt_zpow_right₀ one_lt_two (by push_cast; omega)
    _ = (2 ^ 3) ^ n := by rw [zpow_natCast, pow_mul]
    _ ≤ 10 ^ n := pow_le_pow_left₀ (by norm_num) (by norm_num) n

/-- Beyond four hundred there is only infinity above. -/
theorem round_ten_pow (large : 400 ≤ n) : double.round false (10 ^ n) 1 = .infinite false := by
  apply Format.round_eq_infinite false (Nat.pow_pos (by norm_num)) one_pos
  push_cast
  rw [div_one]
  exact (two_zpow_lt_ten_pow (by decide) large).le

/-- And there is only zero below. -/
theorem round_one_div_ten_pow (large : 400 ≤ n) : double.round false 1 (10 ^ n) = double.zero false := by
  apply Format.round_eq_zero Format.double_holdsBytes false one_pos (Nat.pow_pos (by norm_num))
  have power := two_zpow_lt_ten_pow (u := -(double.leastUnit - 1)) (by decide) large
  push_cast
  rw [one_div]
  apply inv_lt_of_inv_lt₀ (two_zpow_pos _)
  rwa [← zpow_neg]

theorem powerOfTen_natCast (n : ℕ) : double.powerOfTen n = double.round false (10 ^ n) 1 := by
  rw [Format.powerOfTen, if_pos (Int.natCast_nonneg n), Nat.pow_eq]
  rcases Nat.lt_or_ge n 400 with small | large
  · have count : (min (n : ℤ) 400).toNat = n := by omega
    rw [count]
  · have beyond : 400 ≤ (min (n : ℤ) 400).toNat := by omega
    rw [round_ten_pow beyond, round_ten_pow large]

theorem powerOfTen_neg (n : ℕ) : double.powerOfTen (-n) = double.round false 1 (10 ^ n) := by
  rcases Nat.eq_zero_or_pos n with rfl | positive
  · rfl
  rw [Format.powerOfTen, if_neg (by omega), neg_neg, Nat.pow_eq]
  rcases Nat.lt_or_ge n 400 with small | large
  · have count : (min (n : ℤ) 400).toNat = n := by omega
    rw [count]
  · have beyond : 400 ≤ (min (n : ℤ) 400).toNat := by omega
    rw [round_one_div_ten_pow beyond, round_one_div_ten_pow large]

theorem mem_raisedExponents : k ∈ raisedExponents ↔ k = 23 ∨ k = 210 := by
  simp [raisedExponents]

theorem powerOfTen_of_mem (raised : k ∈ raisedExponents) : powerOfTen k = next (double.powerOfTen k) := by
  rw [powerOfTen, if_pos (List.contains_iff_mem.mpr raised)]

theorem powerOfTen_of_not_mem (other : k ∉ raisedExponents) : powerOfTen k = double.powerOfTen k := by
  rw [powerOfTen, if_neg (mt List.contains_iff_mem.mp other)]

theorem TenTo.eq_powerOfTen (tenTo : TenTo k p) : p = powerOfTen k := by
  cases tenTo with
  | up n not23 not210 =>
    rw [powerOfTen_of_not_mem (by rw [mem_raisedExponents]; omega), powerOfTen_natCast]
  | @above n m e raised nearest =>
    rw [powerOfTen_of_mem (by rw [mem_raisedExponents]; omega), powerOfTen_natCast, nearest, next]
  | down n => rw [powerOfTen_of_not_mem (by rw [mem_raisedExponents]; omega), powerOfTen_neg]

theorem tenTo_powerOfTen (k : ℤ) : TenTo k (powerOfTen k) := by
  obtain ⟨n, rfl | rfl⟩ := Int.eq_nat_or_neg k
  · by_cases raised : n = 23 ∨ n = 210
    · have finite : ∃ m e, double.round false (10 ^ n) 1 = .finite false m e := by
        rcases raised with rfl | rfl
        · exact ⟨5960464477539062, 24, by decide +kernel⟩
        · exact ⟨6849404215651259, 645, by decide +kernel⟩
      obtain ⟨m, e, nearest⟩ := finite
      rw [powerOfTen_of_mem (by rw [mem_raisedExponents]; omega), powerOfTen_natCast, nearest]
      exact .above raised nearest
    · rw [powerOfTen_of_not_mem (by rw [mem_raisedExponents]; omega), powerOfTen_natCast]
      exact .up n (by omega) (by omega)
  · rw [powerOfTen_of_not_mem (by rw [mem_raisedExponents]; omega), powerOfTen_neg]
    exact .down n

end

/-! ## Numerals -/

section
variable {n : Numeral} {v : Number} {text : List Char}

theorem Numeral.Means.eq_value (means : n.Means v) : v = n.value := by
  cases means with
  | plain whole fraction => rw [whole.eq_wholeValue, fraction.eq_fractionValue]; rfl
  | raised whole fraction power =>
    rw [whole.eq_wholeValue, fraction.eq_fractionValue, power.eq_powerOfTen]
    rfl

theorem Numeral.means_value (written : n.Written text) : n.Means n.value := by
  cases written with
  | @parts negative whole fraction power sign point raised isSigned digits isFraction some isPower =>
    have behind : Digits fraction := by
      cases isFraction with
      | none => simp [Digits]
      | point _ behind => exact behind
    cases power with
    | none => exact .plain (whole_wholeValue digits) (behind_fractionValue behind)
    | some power => exact .raised (whole_wholeValue digits) (behind_fractionValue behind) (tenTo_powerOfTen _)

/-- Main statement: what a written numeral means is the value that is worked out for it. -/
theorem Numeral.means_iff (written : n.Written text) : n.Means v ↔ v = n.value := by
  constructor
  · exact Means.eq_value
  · rintro rfl
    exact means_value written

end

end ColorResolution.Functional
