import ColorResolution.Proofs.Functional.LetterCase
import ColorResolution.Proofs.Hex.Canonical

/-!
# Hexadecimal digits as bytes

The length of a text and the places in it are counted in bytes, while its characters take one to four of them, and a
number may be read with a sign. The reader of this file goes by bytes: it cuts the digits out by their offsets, which
faults outside the text and inside a character, converts what it has cut out, which faults on all but a number of one
byte, and doubles by a product, which faults beyond a byte. Main statement: it never faults and reads what `parse`
reads; and what `parse` reads are three, four, six or eight digits, a channel for each digit or pair of digits.

Embedded beside `Hex.parse` is `parse_hex` as it goes by bytes.
-/
namespace ColorResolution.Hex

/-! ## The grammar -/

/-- The digit stands at the place of its value, in either case. -/
def Denotes (c : Char) (n : Nat) : Prop := "0123456789abcdef".toList[n]? = some c.toLower

/-- One digit stands for two of it. -/
def Doubled (c : Char) (channel : UInt8) : Prop := ∃ n, Denotes c n ∧ channel.toNat = 17 * n

def Paired (high low : Char) (channel : UInt8) : Prop :=
  ∃ m n, Denotes high m ∧ Denotes low n ∧ channel.toNat = 16 * m + n

/-- The colour that digits spell. -/
inductive Spells : List Char → Color → Prop
  | three {r g b red green blue} (hr : Doubled r red) (hg : Doubled g green) (hb : Doubled b blue) :
      Spells [r, g, b] ⟨red, green, blue, 255⟩
  | four {r g b a red green blue alpha} (hr : Doubled r red) (hg : Doubled g green) (hb : Doubled b blue)
      (ha : Doubled a alpha) : Spells [r, g, b, a] ⟨red, green, blue, alpha⟩
  | six {r r' g g' b b' red green blue} (hr : Paired r r' red) (hg : Paired g g' green) (hb : Paired b b' blue) :
      Spells [r, r', g, g', b, b'] ⟨red, green, blue, 255⟩
  | eight {r r' g g' b b' a a' red green blue alpha} (hr : Paired r r' red) (hg : Paired g g' green)
      (hb : Paired b b' blue) (ha : Paired a a' alpha) :
      Spells [r, r', g, g', b, b', a, a'] ⟨red, green, blue, alpha⟩

theorem getElem?_digits : ∀ n < 16, "0123456789abcdef".toList[n]? = some (digit n) := by decide

theorem isDigit_of_toLower {c : Char} {n : Nat} (small : n < 16) (lower : c.toLower = digit n) :
    isDigit c = true ∧ digitValue c = n := by
  have capital : ∀ m < 91, (Char.ofNat m).isUpper = true → ∀ n < 16, (Char.ofNat m).toLower = digit n →
      isDigit (Char.ofNat m) = true ∧ digitValue (Char.ofNat m) = n := by decide
  refine Text.toLower_cases (p := fun c d => ∀ n < 16, d = digit n → isDigit c = true ∧ digitValue c = n) ?_ capital c
    n small lower
  rintro c n small rfl
  exact ⟨isDigit_digit n small, digitValue_digit n small⟩

theorem denotes_iff {c : Char} {n : Nat} : Denotes c n ↔ isDigit c = true ∧ digitValue c = n := by
  constructor
  · intro denotes
    have small : n < 16 := (List.getElem?_eq_some_iff.mp denotes).1
    have lower : some (digit n) = some c.toLower := (getElem?_digits n small).symm.trans denotes
    exact isDigit_of_toLower small (Option.some.inj lower).symm
  · rintro ⟨isDigit, rfl⟩
    rw [Denotes, getElem?_digits _ (digitValue_lt isDigit), digit_digitValue isDigit]

theorem doubled_iff {c : Char} {channel : UInt8} :
    Doubled c channel ↔ isDigit c = true ∧ channel = byte (digitValue c) (digitValue c) := by
  simp only [Doubled, denotes_iff]
  constructor
  · rintro ⟨n, ⟨isDigit, rfl⟩, value⟩
    refine ⟨isDigit, UInt8.toNat_inj.mp ?_⟩
    rw [value, toNat_byte (digitValue_lt isDigit) (digitValue_lt isDigit)]
    omega
  · rintro ⟨isDigit, rfl⟩
    refine ⟨_, ⟨isDigit, rfl⟩, ?_⟩
    rw [toNat_byte (digitValue_lt isDigit) (digitValue_lt isDigit)]
    omega

theorem paired_iff {high low : Char} {channel : UInt8} : Paired high low channel ↔
    isDigit high = true ∧ isDigit low = true ∧ channel = byte (digitValue high) (digitValue low) := by
  simp only [Paired, denotes_iff]
  constructor
  · rintro ⟨m, n, ⟨isHigh, rfl⟩, ⟨isLow, rfl⟩, value⟩
    refine ⟨isHigh, isLow, UInt8.toNat_inj.mp ?_⟩
    rw [value, toNat_byte (digitValue_lt isHigh) (digitValue_lt isLow)]
  · rintro ⟨isHigh, isLow, rfl⟩
    exact ⟨_, _, ⟨isHigh, rfl⟩, ⟨isLow, rfl⟩, toNat_byte (digitValue_lt isHigh) (digitValue_lt isLow)⟩

theorem doubled_of_isDigit {d : Char} (isDigit : isDigit d = true) : Doubled d (byte (digitValue d) (digitValue d)) :=
  doubled_iff.mpr ⟨isDigit, rfl⟩

theorem paired_of_isDigit {high low : Char} (isHigh : isDigit high = true) (isLow : isDigit low = true) :
    Paired high low (byte (digitValue high) (digitValue low)) :=
  paired_iff.mpr ⟨isHigh, isLow, rfl⟩

theorem spells_of_ofValues? {ds : List Char} {c : Color} (isDigits : ∀ d ∈ ds, isDigit d = true)
    (found : ofValues? (ds.map digitValue) = some c) : Spells ds c := by
  unfold ofValues? at found
  split at found
  next same =>
    simp only [List.map_eq_cons_iff, List.map_eq_nil_iff] at same
    obtain ⟨r, _, rfl, rfl, g, _, rfl, rfl, b, _, rfl, rfl, rfl⟩ := same
    simp only [List.mem_cons, List.not_mem_nil, or_false, forall_eq_or_imp, forall_eq] at isDigits
    obtain ⟨hr, hg, hb⟩ := isDigits
    cases found
    exact .three (doubled_of_isDigit hr) (doubled_of_isDigit hg) (doubled_of_isDigit hb)
  next same =>
    simp only [List.map_eq_cons_iff, List.map_eq_nil_iff] at same
    obtain ⟨r, _, rfl, rfl, g, _, rfl, rfl, b, _, rfl, rfl, a, _, rfl, rfl, rfl⟩ := same
    simp only [List.mem_cons, List.not_mem_nil, or_false, forall_eq_or_imp, forall_eq] at isDigits
    obtain ⟨hr, hg, hb, ha⟩ := isDigits
    cases found
    exact .four (doubled_of_isDigit hr) (doubled_of_isDigit hg) (doubled_of_isDigit hb) (doubled_of_isDigit ha)
  next same =>
    simp only [List.map_eq_cons_iff, List.map_eq_nil_iff] at same
    obtain ⟨r, _, rfl, rfl, r', _, rfl, rfl, g, _, rfl, rfl, g', _, rfl, rfl, b, _, rfl, rfl, b', _, rfl, rfl, rfl⟩ :=
      same
    simp only [List.mem_cons, List.not_mem_nil, or_false, forall_eq_or_imp, forall_eq] at isDigits
    obtain ⟨hr, hr', hg, hg', hb, hb'⟩ := isDigits
    cases found
    exact .six (paired_of_isDigit hr hr') (paired_of_isDigit hg hg') (paired_of_isDigit hb hb')
  next same =>
    simp only [List.map_eq_cons_iff, List.map_eq_nil_iff] at same
    obtain ⟨r, _, rfl, rfl, r', _, rfl, rfl, g, _, rfl, rfl, g', _, rfl, rfl, b, _, rfl, rfl, b', _, rfl, rfl, a, _, rfl,
      rfl, a', _, rfl, rfl, rfl⟩ := same
    simp only [List.mem_cons, List.not_mem_nil, or_false, forall_eq_or_imp, forall_eq] at isDigits
    obtain ⟨hr, hr', hg, hg', hb, hb', ha, ha'⟩ := isDigits
    cases found
    exact .eight (paired_of_isDigit hr hr') (paired_of_isDigit hg hg') (paired_of_isDigit hb hb')
      (paired_of_isDigit ha ha')
  · cases found

/-- What is decoded is what the digits spell. -/
theorem decode?_eq_some_iff {ds : List Char} {c : Color} : decode? ds = some c ↔ Spells ds c := by
  constructor
  · intro decoded
    unfold decode? at decoded
    split at decoded
    next all => exact spells_of_ofValues? (List.all_eq_true.mp all) decoded
    · cases decoded
  · intro spells
    cases spells with
    | three red green blue =>
      obtain ⟨hr, rfl⟩ := doubled_iff.mp red
      obtain ⟨hg, rfl⟩ := doubled_iff.mp green
      obtain ⟨hb, rfl⟩ := doubled_iff.mp blue
      simp [decode?, ofValues?, hr, hg, hb]
    | four red green blue alpha =>
      obtain ⟨hr, rfl⟩ := doubled_iff.mp red
      obtain ⟨hg, rfl⟩ := doubled_iff.mp green
      obtain ⟨hb, rfl⟩ := doubled_iff.mp blue
      obtain ⟨ha, rfl⟩ := doubled_iff.mp alpha
      simp [decode?, ofValues?, hr, hg, hb, ha]
    | six red green blue =>
      obtain ⟨hr, hr', rfl⟩ := paired_iff.mp red
      obtain ⟨hg, hg', rfl⟩ := paired_iff.mp green
      obtain ⟨hb, hb', rfl⟩ := paired_iff.mp blue
      simp [decode?, ofValues?, hr, hr', hg, hg', hb, hb']
    | eight red green blue alpha =>
      obtain ⟨hr, hr', rfl⟩ := paired_iff.mp red
      obtain ⟨hg, hg', rfl⟩ := paired_iff.mp green
      obtain ⟨hb, hb', rfl⟩ := paired_iff.mp blue
      obtain ⟨ha, ha', rfl⟩ := paired_iff.mp alpha
      simp [decode?, ofValues?, hr, hr', hg, hg', hb, hb', ha, ha']

/-! ## The bytes of a text -/

/-- What a reader by bytes may run into. -/
inductive Fault
  | cut (start stop : Nat)
  | number (bytes : List UInt8)
  | product (n : Nat)
  deriving DecidableEq, Repr

/-- The bytes of a text, one to four for a character. -/
def bytes (cs : List Char) : List UInt8 := cs.flatMap String.utf8EncodeChar

/-- The digits of base sixteen are all single bytes. -/
def isDigitByte (b : UInt8) : Bool := isDigit (Char.ofUInt8 b)

def byteValue (b : UInt8) : Nat := digitValue (Char.ofUInt8 b)

/-- A place between two characters, or at an end: what follows it does not continue a character. -/
def isBoundary (bs : List UInt8) (i : Nat) : Bool :=
  i == 0 || i == bs.length || (bs[i]?).any fun b => b < 0x80 || 0xC0 ≤ b

/-- The bytes between two places. -/
def cut (bs : List UInt8) (start stop : Nat) : Except Fault (List UInt8) :=
  if start ≤ stop ∧ isBoundary bs start ∧ isBoundary bs stop then .ok ((bs.drop start).take (stop - start))
  else .error (.cut start stop)

/-- One more digit of a number of one byte. -/
def addDigit (n : Nat) (b : UInt8) : Option Nat :=
  if isDigitByte b ∧ 16 * n + byteValue b < 256 then some (16 * n + byteValue b) else none

/-- The bytes of a number, of which a sign is none. -/
def withoutSign (bs : List UInt8) : List UInt8 := if bs.head? = some 0x2B then bs.tail else bs

/-- A number of one byte in base sixteen, with or without the sign of a positive number. -/
def convert (bs : List UInt8) : Except Fault Nat :=
  match withoutSign bs with
  | [] => .error (.number bs)
  | ds => ((ds.foldlM addDigit 0).map .ok).getD (.error (.number bs))

/-- The product with seventeen, where it is a byte. -/
def double (n : Nat) : Except Fault UInt8 := if n * 17 < 256 then .ok (UInt8.ofNat (n * 17)) else .error (.product n)

def single (bs : List UInt8) (i : Nat) : Except Fault UInt8 := do
  double (← convert (← cut bs i (i + 1)))

def pair (bs : List UInt8) (i : Nat) : Except Fault UInt8 := do
  return UInt8.ofNat (← convert (← cut bs i (i + 2)))

/-- Three, four, six or eight bytes, all of them digits. -/
def areDigits (bs : List UInt8) : Bool :=
  (bs.length == 3 || bs.length == 4 || bs.length == 6 || bs.length == 8) && bs.all isDigitByte

/-- The colour of bytes, each channel from its place. -/
def readBytes (bs : List UInt8) : Except Fault (Option Color) := do
  if areDigits bs then
    match bs.length with
    | 6 => return some (.rgb (← pair bs 0) (← pair bs 2) (← pair bs 4))
    | 3 => return some (.rgb (← single bs 0) (← single bs 1) (← single bs 2))
    | 8 => return some ⟨← pair bs 0, ← pair bs 2, ← pair bs 4, ← pair bs 6⟩
    | 4 => return some ⟨← single bs 0, ← single bs 1, ← single bs 2, ← single bs 3⟩
    | _ => return none
  else return none

/-- Reads a hexadecimal colour by its bytes. -/
def parseBytes (s : String) : Except Fault (Except ColorError Color) := do
  match ← readBytes (bytes (digits s)) with
  | some c => return .ok c
  | none => return .error (.invalidHex s)

/-! ## Characters and their bytes -/

theorem encode_narrow {c : Char} (narrow : c.toNat ≤ 127) : String.utf8EncodeChar c = [UInt8.ofNat c.toNat] := by
  have small : c.val.toNat ≤ 127 := narrow
  rw [String.utf8EncodeChar, if_pos small]
  rfl

theorem ofUInt8_ofNat {c : Char} (narrow : c.toNat ≤ 127) : Char.ofUInt8 (UInt8.ofNat c.toNat) = c := by
  have all : ∀ n ≤ 127, Char.ofUInt8 (UInt8.ofNat n) = Char.ofNat n := by decide
  rw [all c.toNat narrow, Char.ofNat_toNat]

theorem narrow_of_isDigit {c : Char} (digit : isDigit c = true) : c.toNat ≤ 127 := by
  simp only [isDigit, Bool.or_eq_true, Bool.and_eq_true, decide_eq_true_eq] at digit
  omega

/-- A digit is a small number. -/
theorem isDigitByte_bounds {b : UInt8} (digit : isDigitByte b = true) : 0x30 ≤ b.toNat ∧ b.toNat ≤ 0x66 := by
  have same : (Char.ofUInt8 b).toNat = b.toNat := rfl
  simp only [isDigitByte, isDigit, same, Bool.or_eq_true, Bool.and_eq_true, decide_eq_true_eq] at digit
  omega

/-- A character of several bytes begins with a large one. -/
theorem encode_wide {c : Char} (wide : ¬ c.toNat ≤ 127) : ∃ b rest, String.utf8EncodeChar c = b :: rest ∧ 192 ≤ b.toNat := by
  have large : ¬ c.val.toNat ≤ 127 := wide
  rw [String.utf8EncodeChar, if_neg large]
  split_ifs <;> refine ⟨_, _, rfl, ?_⟩ <;> rw [UInt8.toNat_ofNat', Nat.mod_eq_of_lt (by omega)] <;> omega

theorem all_encode (c : Char) : (String.utf8EncodeChar c).all isDigitByte = isDigit c := by
  by_cases narrow : c.toNat ≤ 127
  · simp [encode_narrow narrow, isDigitByte, ofUInt8_ofNat narrow]
  · obtain ⟨b, rest, encoded, large⟩ := encode_wide narrow
    have first : isDigitByte b = false := by
      by_contra digit
      have small := isDigitByte_bounds (Bool.not_eq_false _ ▸ digit)
      omega
    have none : isDigit c = false := Bool.eq_false_iff.mpr fun digit => narrow (narrow_of_isDigit digit)
    simp [encoded, first, none]

theorem all_bytes (cs : List Char) : (bytes cs).all isDigitByte = cs.all isDigit := by
  simp only [bytes, List.all_flatMap, all_encode]

theorem map_bytes {ds : List Char} (digits : ds.all isDigit = true) : (bytes ds).map byteValue = ds.map digitValue := by
  induction ds with
  | nil => rfl
  | cons d ds ih =>
    obtain ⟨first, rest⟩ := Bool.and_eq_true_iff.mp digits
    have narrow := narrow_of_isDigit first
    rw [bytes, List.flatMap_cons, encode_narrow narrow, List.singleton_append, List.map_cons, byteValue,
      ofUInt8_ofNat narrow, List.map_cons, ← bytes, ih rest]

/-! ## No fault -/

section
variable {bs : List UInt8} {b b' : UInt8} {i : Nat}

theorem byteValue_lt (digit : isDigitByte b = true) : byteValue b < 16 := digitValue_lt digit

/-- Between digits every place is one between characters. -/
theorem isBoundary_of_digits (digits : bs.all isDigitByte = true) (inside : i ≤ bs.length) : isBoundary bs i = true := by
  rcases Nat.lt_or_eq_of_le inside with before | rfl
  · have small := (isDigitByte_bounds (List.all_eq_true.mp digits bs[i] (List.getElem_mem before))).2
    have narrow : bs[i] < 0x80 := UInt8.lt_iff_toNat_lt.mpr (Nat.lt_of_le_of_lt small (by decide))
    simp [isBoundary, before, narrow]
  · simp [isBoundary]

theorem cut_of_digits (digits : bs.all isDigitByte = true) {start stop : Nat} (forward : start ≤ stop)
    (inside : stop ≤ bs.length) : cut bs start stop = .ok ((bs.drop start).take (stop - start)) := by
  rw [cut, if_pos]
  exact ⟨forward, isBoundary_of_digits digits (forward.trans inside), isBoundary_of_digits digits inside⟩

theorem withoutSign_of_digit (digit : isDigitByte b = true) (rest : List UInt8) : withoutSign (b :: rest) = b :: rest := by
  have noSign : b ≠ 0x2B := by
    rintro rfl
    exact absurd digit (by decide)
  simp [withoutSign, noSign]

theorem addDigit_of_digit {n : Nat} (digit : isDigitByte b = true) (small : n < 16) :
    addDigit n b = some (16 * n + byteValue b) := by
  have bound := byteValue_lt digit
  rw [addDigit, if_pos ⟨digit, by omega⟩]

theorem convert_one (digit : isDigitByte b = true) : convert [b] = .ok (byteValue b) := by
  simp [convert, withoutSign_of_digit digit, addDigit_of_digit digit]

theorem convert_two (high : isDigitByte b = true) (low : isDigitByte b' = true) :
    convert [b, b'] = .ok (16 * byteValue b + byteValue b') := by
  simp [convert, withoutSign_of_digit high, addDigit_of_digit high, addDigit_of_digit low (byteValue_lt high)]

theorem double_of_lt {n : Nat} (small : n < 16) : double n = .ok (byte n n) := by
  rw [double, if_pos (by omega), byte]
  congr 2
  omega

theorem single_of_digits (digits : bs.all isDigitByte = true) (here : bs[i]? = some b) :
    single bs i = .ok (byte (byteValue b) (byteValue b)) := by
  obtain ⟨inside, rfl⟩ := List.getElem?_eq_some_iff.mp here
  have digit := List.all_eq_true.mp digits bs[i] (List.getElem_mem inside)
  have taken : (bs.drop i).take (i + 1 - i) = [bs[i]] := by
    rw [Nat.add_sub_cancel_left, List.drop_eq_getElem_cons inside, List.take_succ_cons, List.take_zero]
  rw [single, cut_of_digits digits (Nat.le_add_right i 1) inside, taken]
  change convert [bs[i]] >>= double = _
  rw [convert_one digit]
  exact double_of_lt (byteValue_lt digit)

theorem pair_of_digits (digits : bs.all isDigitByte = true) (here : bs[i]? = some b) (next : bs[i + 1]? = some b') :
    pair bs i = .ok (byte (byteValue b) (byteValue b')) := by
  obtain ⟨before, rfl⟩ := List.getElem?_eq_some_iff.mp here
  obtain ⟨inside, rfl⟩ := List.getElem?_eq_some_iff.mp next
  have high := List.all_eq_true.mp digits bs[i] (List.getElem_mem before)
  have low := List.all_eq_true.mp digits bs[i + 1] (List.getElem_mem inside)
  have taken : (bs.drop i).take (i + 2 - i) = [bs[i], bs[i + 1]] := by
    rw [Nat.add_sub_cancel_left, List.drop_eq_getElem_cons before, List.drop_eq_getElem_cons inside,
      List.take_succ_cons, List.take_succ_cons, List.take_zero]
  rw [pair, cut_of_digits digits (Nat.le_add_right i 2) inside, taken]
  change convert [bs[i], bs[i + 1]] >>= _ = _
  rw [convert_two high low]
  rfl

/-- Digits are read without a fault, whatever their number. -/
theorem readBytes_of_digits (digits : bs.all isDigitByte = true) :
    readBytes bs = .ok (ofValues? (bs.map byteValue)) := by
  rw [readBytes, areDigits, digits, Bool.and_true]
  match bs with
  | [] | [_] | [_, _] | [_, _, _, _, _] | [_, _, _, _, _, _, _] => rfl
  | [r, g, b] =>
    have red := single_of_digits digits (i := 0) rfl
    have green := single_of_digits digits (i := 1) rfl
    have blue := single_of_digits digits (i := 2) rfl
    simp only [List.length_cons, List.length_nil, red, green, blue]
    rfl
  | [r, g, b, a] =>
    have red := single_of_digits digits (i := 0) rfl
    have green := single_of_digits digits (i := 1) rfl
    have blue := single_of_digits digits (i := 2) rfl
    have alpha := single_of_digits digits (i := 3) rfl
    simp only [List.length_cons, List.length_nil, red, green, blue, alpha]
    rfl
  | [r, r', g, g', b, b'] =>
    have red := pair_of_digits digits (i := 0) rfl rfl
    have green := pair_of_digits digits (i := 2) rfl rfl
    have blue := pair_of_digits digits (i := 4) rfl rfl
    simp only [List.length_cons, List.length_nil, red, green, blue]
    rfl
  | [r, r', g, g', b, b', a, a'] =>
    have red := pair_of_digits digits (i := 0) rfl rfl
    have green := pair_of_digits digits (i := 2) rfl rfl
    have blue := pair_of_digits digits (i := 4) rfl rfl
    have alpha := pair_of_digits digits (i := 6) rfl rfl
    simp only [List.length_cons, List.length_nil, red, green, blue, alpha]
    rfl
  | _ :: _ :: _ :: _ :: _ :: _ :: _ :: _ :: _ :: _ => simp [ofValues?, pure, Except.pure]

end

theorem readBytes_bytes (ds : List Char) : readBytes (bytes ds) = .ok (decode? ds) := by
  unfold decode?
  split
  next digits => rw [readBytes_of_digits (by rw [all_bytes, digits]), map_bytes digits]
  next other =>
    rw [readBytes, areDigits, all_bytes, Bool.eq_false_iff.mpr other, Bool.and_false]
    rfl

/-- By its bytes a text is read without a fault, and as by its characters. -/
theorem parseBytes_eq (s : String) : parseBytes s = .ok (parse s) := by
  rw [parseBytes, readBytes_bytes, parse, ← digits]
  cases decode? (digits s) <;> rfl

/-- Two characters of two bytes, three digits with a sign, a second mark and a blank behind the mark. -/
example : ["éé", "+ff", "##fff", "# fff"].map parseBytes =
    [.ok (.error (.invalidHex "éé")), .ok (.error (.invalidHex "+ff")), .ok (.error (.invalidHex "##fff")),
      .ok (.error (.invalidHex "# fff"))] := by
  decide +kernel

end ColorResolution.Hex
