import Mathlib
import ColorResolution.Json.Reader
import ColorResolution.Proofs.Functional.Numeral
import ColorResolution.Proofs.Payload.PlainText
import ColorResolution.Proofs.Text.Decimal

/-!
# Integers in JSON

An integer of at most 64 bits, with or without a sign, is read as itself when it is written without leading zeros and
something follows that cannot go on with it. Main statements: the array and the object in which such integers are
written, one after another and without blanks, are read as the values they write.
-/
namespace ColorResolution.Json

open Functional (Avoids Digits avoids_cons takeWhile_digits dropWhile_digits)

/-- The integers of 64 bits, with or without a sign. -/
def InRange (z : ℤ) : Prop := -2 ^ 63 ≤ z ∧ z < 2 ^ 64

/-- The characters that go on with an integer. -/
def continues (c : Char) : Bool := c.isDigit || c == '.' || c == 'e' || c == 'E'

section
variable {cs ds rest : List Char} {n : ℕ}

theorem not_isDigit_of_avoids (stop : Avoids continues rest) : Avoids Char.isDigit rest := by
  intro c more split
  have other := stop c more split
  simp only [continues, Bool.or_eq_false_iff] at other
  exact other.1.1.1

theorem startsWithDigit_eq_false (stop : Avoids Char.isDigit rest) : startsWithDigit rest = false := by
  cases rest with
  | nil => rfl
  | cons c rest => exact stop c rest rfl

theorem le_ofDigitChars (ds : List Char) (n : ℕ) : n ≤ Nat.ofDigitChars 10 ds n := by
  rw [Nat.ofDigitChars_eq_ofDigitChars_zero]
  exact (Nat.le_mul_of_pos_left n (by positivity)).trans (Nat.le_add_right _ _)

/-- Digits are gathered to the end as long as all of them together stay in range. -/
theorem gather_digits (digits : Digits ds) (stop : Avoids Char.isDigit rest)
    (fits : Nat.ofDigitChars 10 ds n ≤ maxSignificand) :
    gather n (ds ++ rest) = (Nat.ofDigitChars 10 ds n, ds.length, rest) := by
  induction ds generalizing n with
  | nil =>
    cases rest with
    | nil => rfl
    | cons c rest => simp [gather, stop c rest rfl]
  | cons d ds ih =>
    have next : n * 10 + Text.digitValue d = 10 * n + (d.toNat - '0'.toNat) := by rw [mul_comm]; rfl
    rw [Nat.ofDigitChars_cons, ← next] at fits ⊢
    have inRange : n * 10 + Text.digitValue d ≤ maxSignificand := (le_ofDigitChars ds _).trans fits
    rw [List.cons_append, gather, digits d List.mem_cons_self, decide_eq_true inRange, Bool.and_self, if_pos rfl,
      ih (fun c member => digits c (List.mem_cons_of_mem d member)) fits]
    rfl

/-- A number ends behind digits that are not gone on with. -/
theorem readUnsigned_of_gather {c : Char} {count : ℕ} (negative : Bool) (first : c.isDigit = true)
    (short : ¬ (c = '0' ∧ startsWithDigit cs = true)) (gathered : gather 0 (c :: cs) = (n, count, rest))
    (stop : Avoids continues rest) : readUnsigned negative (c :: cs) = .ok (integer negative n, rest) := by
  have none : Digits [] := by simp [Digits]
  have front : rest.takeWhile Char.isDigit = [] := takeWhile_digits none (not_isDigit_of_avoids stop)
  have whole : rest.dropWhile Char.isDigit = rest := dropWhile_digits none (not_isDigit_of_avoids stop)
  simp only [readUnsigned, first, Bool.not_true, Bool.false_eq_true, if_false, Bool.and_eq_true, decide_eq_true_eq,
    short, gathered, front, whole]
  cases rest with
  | nil => rfl
  | cons d rest =>
    have other := stop d rest rfl
    split
    next point => cases point; cases other
    next =>
      simp only [continues, Bool.or_eq_false_iff, beq_eq_false_iff_ne] at other
      simp [other.1.2, other.2]

theorem readUnsigned_toDigits (negative : Bool) (fits : n ≤ maxSignificand) (stop : Avoids continues rest) :
    readUnsigned negative (Nat.toDigits 10 n ++ rest) = .ok (integer negative n, rest) := by
  have digits : Digits (Nat.toDigits 10 n) := fun _ member => Text.isDigit_of_mem member
  have noDigit := not_isDigit_of_avoids stop
  have gathered : gather 0 (Nat.toDigits 10 n ++ rest) = (n, (Nat.toDigits 10 n).length, rest) := by
    rw [gather_digits digits noDigit (by rwa [Nat.ofDigitChars_ten_toDigits]), Nat.ofDigitChars_ten_toDigits]
  cases written : Nat.toDigits 10 n with
  | nil => exact absurd written Nat.toDigits_ne_nil
  | cons c following =>
    rw [written] at gathered digits
    apply readUnsigned_of_gather negative (digits c List.mem_cons_self) _ gathered stop
    rintro ⟨rfl, more⟩
    rcases Nat.eq_zero_or_pos n with rfl | positive
    · cases written
      exact absurd more (by simp [startsWithDigit_eq_false noDigit])
    · exact Text.head_toDigits_ne_zero positive (by rw [written]; rfl)

theorem integer_natAbs {z : ℤ} (inRange : InRange z) : integer (decide (z < 0)) z.natAbs = .integer z := by
  obtain ⟨low, _⟩ := inRange
  rcases lt_or_ge z 0 with negative | natural
  · have size : (z.natAbs = 0 || decide (9223372036854775808 < z.natAbs)) = false := by
      simp only [Bool.or_eq_false_iff, decide_eq_false_iff_not]
      omega
    have same : -(z.natAbs : ℤ) = z := by omega
    simp only [integer, decide_eq_true negative, if_true, size, Bool.false_eq_true, if_false, same]
  · have same : (z.natAbs : ℤ) = z := by omega
    simp only [integer, decide_eq_false (not_lt.mpr natural), Bool.false_eq_true, if_false, same]

theorem readNumeral_toString {z : ℤ} (inRange : InRange z) (stop : Avoids continues rest) :
    readNumeral ((toString z).toList ++ rest) = .ok (.integer z, rest) := by
  have fits : z.natAbs ≤ maxSignificand := by
    obtain ⟨low, high⟩ := inRange
    rw [maxSignificand]
    omega
  have unsigned := readUnsigned_toDigits (decide (z < 0)) fits stop
  rw [integer_natAbs inRange] at unsigned
  rw [Text.toList_toString, Text.hyphen]
  split
  next negative =>
    rw [decide_eq_true negative] at unsigned
    exact unsigned
  next natural =>
    rw [decide_eq_false natural] at unsigned
    rw [List.nil_append, ← unsigned]
    -- a digit is no sign
    cases written : Nat.toDigits 10 z.natAbs with
    | nil => exact absurd written Nat.toDigits_ne_nil
    | cons c following =>
      have digit : c.isDigit = true := Text.isDigit_of_mem (by rw [written]; exact List.mem_cons_self)
      rw [List.cons_append, readNumeral]
      rintro more ⟨⟩
      cases digit

/-! ## Values -/

/-- The characters that an integer begins with. -/
def begins (c : Char) : Bool := c == '-' || c.isDigit

theorem exists_begins (z : ℤ) : ∃ c more, (toString z).toList = c :: more ∧ begins c = true := by
  rw [Text.toList_toString, Text.hyphen]
  split
  · exact ⟨'-', _, rfl, rfl⟩
  · cases written : Nat.toDigits 10 z.natAbs with
    | nil => exact absurd written Nat.toDigits_ne_nil
    | cons c following =>
      have digit : c.isDigit = true := Text.isDigit_of_mem (by rw [written]; exact List.mem_cons_self)
      exact ⟨c, following, rfl, by simp [begins, digit]⟩

theorem ne_of_begins {c d : Char} (first : begins c = true) (other : begins d = false) : c ≠ d := by
  rintro rfl
  rw [first] at other
  cases other

theorem isSpace_of_begins {c : Char} (first : begins c = true) : isSpace c = false := by
  rw [Bool.eq_false_iff]
  intro space
  simp only [isSpace, Bool.or_eq_true, beq_iff_eq] at space
  rcases space with ((rfl | rfl) | rfl) | rfl <;> cases first

theorem readValue_toString {z : ℤ} (depth : ℕ) (inRange : InRange z) (stop : Avoids continues rest) :
    readValue depth ((toString z).toList ++ rest) = some (.number (.integer z), rest) := by
  have reads := readNumeral_toString inRange stop
  obtain ⟨c, more, written, first⟩ := exists_begins z
  have number : (c = '-' || c.isDigit) = true := first
  rw [written, List.cons_append] at reads ⊢
  rw [Payload.readValue_of_head depth (isSpace_of_begins first) (ne_of_begins first rfl) (ne_of_begins first rfl),
    readScalar, if_neg (ne_of_begins first rfl), if_pos number, reads]
  rfl

/-- The characters that stand for themselves in a string. -/
def isPlain (c : Char) : Bool := c != '"' && c != '\\' && 0x20 ≤ c.toNat

theorem readText_plain {key : List Char} (plain : ∀ c ∈ key, isPlain c = true) (rest : List Char) :
    readText (key ++ '"' :: rest) = .ok (key, rest) := by
  induction key with
  | nil => rfl
  | cons c key ih =>
    have kept := plain c List.mem_cons_self
    simp only [isPlain, Bool.and_eq_true, bne_iff_ne, decide_eq_true_eq] at kept
    have inside := ih fun d member => plain d (List.mem_cons_of_mem c member)
    rw [List.cons_append, readText.eq_def]
    split <;> simp_all [push]

/-! ## Items one after another -/

/-- What stands behind an item of a container. -/
inductive Behind (close : Char) : List Char → Prop
  | comma (rest : List Char) : Behind close (',' :: rest)
  | closed (rest : List Char) : Behind close (close :: rest)

theorem avoids_of_behind {close : Char} (solid : continues close = false) (behind : Behind close rest) :
    Avoids continues rest := by
  cases behind with
  | comma => exact avoids_cons rfl
  | closed => exact avoids_cons solid

theorem skipSpace_of_solid {c : Char} (solid : isSpace c = false) : skipSpace (c :: rest) = c :: rest :=
  List.dropWhile_cons_of_neg (by simp [solid])

end

section
variable {α β : Type} {item : List Char → Option (β × List Char)} {close : Char} {write : α → List Char} {value : α → β}
  {xs : List α}

/-- A thing is read from its text, wherever it stands in a container, and its text cannot be taken for the end. -/
structure ReadsBack (item : List Char → Option (β × List Char)) (close : Char) (write : α → List Char) (value : α → β)
    (x : α) : Prop where
  reads : ∀ rest, Behind close rest → item (write x ++ rest) = some (value x, rest)
  opens : ∃ c more, write x = c :: more ∧ isSpace c = false ∧ c ≠ close

theorem readItems_intercalate (solid : isSpace close = false) (noComma : ',' ≠ close)
    (back : ∀ x ∈ xs, ReadsBack item close write value x) (filled : xs ≠ []) (rest : List Char) :
    readItems item close ([','].intercalate (xs.map write) ++ close :: rest) = some (xs.map value, rest) := by
  induction xs with
  | nil => exact absurd rfl filled
  | cons x xs ih =>
    have first := (back x List.mem_cons_self).reads
    rw [readItems.eq_def]
    cases xs with
    | nil =>
      rw [List.map_cons, List.map_nil, List.intercalate_singleton, first _ (.closed rest)]
      simp only [skipSpace_of_solid solid, if_true]
      rfl
    | cons y ys =>
      have others := ih (fun y member => back y (List.mem_cons_of_mem x member)) (List.cons_ne_nil y ys)
      have split : [','].intercalate ((x :: y :: ys).map write) ++ close :: rest =
          write x ++ ',' :: ([','].intercalate ((y :: ys).map write) ++ close :: rest) := by
        simp [List.intercalate_cons_cons]
      generalize [','].intercalate ((y :: ys).map write) ++ close :: rest = more at others split
      have shorter : more.length < (write x ++ ',' :: more).length := by
        rw [List.length_append, List.length_cons]
        omega
      rw [split, first _ (.comma more)]
      simp only [skipSpace_of_solid (show isSpace ',' = false from rfl), if_neg noComma, shorter, others, decide_true,
        Bool.and_self, if_true]
      rfl

/-- The first item tells a container from an empty one. -/
theorem readContainer_intercalate (solid : isSpace close = false) (noComma : ',' ≠ close)
    (back : ∀ x ∈ xs, ReadsBack item close write value x) (filled : xs ≠ []) (rest : List Char) :
    readContainer item close ([','].intercalate (xs.map write) ++ close :: rest) = some (xs.map value, rest) := by
  have items := readItems_intercalate solid noComma back filled rest
  cases xs with
  | nil => exact absurd rfl filled
  | cons x xs =>
    obtain ⟨c, more, written, solid, other⟩ := (back x List.mem_cons_self).opens
    obtain ⟨tail, split⟩ : ∃ tail, [','].intercalate ((x :: xs).map write) ++ close :: rest = c :: tail := by
      cases xs <;> simp [written, List.intercalate_cons_cons]
    rw [split] at items ⊢
    rw [readContainer, skipSpace_of_solid solid]
    simp only [if_neg other]
    exact items

end

/-! ## Arrays and objects -/

theorem readsBack_integer {close : Char} {z : ℤ} (depth : ℕ) (inRange : InRange z) (stops : continues close = false)
    (ends : begins close = false) :
    ReadsBack (readValue depth) close (fun z => (toString z).toList) (fun z => .number (.integer z)) z where
  reads _ behind := readValue_toString depth inRange (avoids_of_behind stops behind)
  opens := by
    obtain ⟨c, more, written, first⟩ := exists_begins z
    exact ⟨c, more, written, isSpace_of_begins first, ne_of_begins first ends⟩

/-- A member as it is written without blanks. -/
def memberText (e : String × ℤ) : List Char := '"' :: (e.1.toList ++ '"' :: ':' :: (toString e.2).toList)

theorem readsBack_member {close : Char} {e : String × ℤ} (depth : ℕ) (plain : ∀ c ∈ e.1.toList, isPlain c = true)
    (inRange : InRange e.2) (stops : continues close = false) (ends : '"' ≠ close) :
    ReadsBack (readMember (readValue depth)) close memberText (fun e => (e.1, .number (.integer e.2))) e where
  reads rest behind := by
    have value := readValue_toString depth inRange (avoids_of_behind stops behind)
    have key := readText_plain plain (':' :: ((toString e.2).toList ++ rest))
    have split : memberText e ++ rest = '"' :: (e.1.toList ++ '"' :: ':' :: ((toString e.2).toList ++ rest)) := by
      simp [memberText]
    rw [split, readMember, skipSpace_of_solid rfl]
    simp only [key, skipSpace_of_solid (show isSpace ':' = false from rfl), value, String.ofList_toList,
      Option.map_some]
  opens := ⟨'"', _, rfl, rfl, ends⟩

theorem readValue_array (depth : ℕ) (cs : List Char) :
    readValue (depth + 1) ('[' :: cs) =
      (readContainer (readValue depth) ']' cs).map fun (items, more) => (.array items, more) := by
  rw [readValue.eq_def]
  simp only [skipSpace_of_solid (show isSpace '[' = false from rfl)]

theorem readValue_object (depth : ℕ) (cs : List Char) :
    readValue (depth + 1) ('\x7b' :: cs) =
      (readContainer (readMember (readValue depth)) '\x7d' cs).map fun (members, more) => (.object members, more) := by
  rw [readValue.eq_def]
  simp only [skipSpace_of_solid (show isSpace '\x7b' = false from rfl)]

/-- A document is read to its end. -/
theorem read?_of_readValue {s : String} {v : Value} (reads : readValue maxDepth s.toList = some (v, [])) :
    read? s = some v := by
  rw [read?, reads]
  rfl

theorem read?_array {s : String} {zs : List ℤ} (filled : zs ≠ []) (inRange : ∀ z ∈ zs, InRange z)
    (written : s.toList = '[' :: ([','].intercalate (zs.map fun z => (toString z).toList) ++ [']'])) :
    read? s = some (.array (zs.map fun z => .number (.integer z))) := by
  have back (z : ℤ) (member : z ∈ zs) : ReadsBack (readValue 126) ']' _ _ z :=
    readsBack_integer 126 (inRange z member) rfl rfl
  have items := readContainer_intercalate rfl (by decide) back filled []
  apply read?_of_readValue
  rw [written, maxDepth, readValue_array, items, Option.map_some]

theorem read?_object {s : String} {entries : List (String × ℤ)} (filled : entries ≠ [])
    (plain : ∀ e ∈ entries, ∀ c ∈ e.1.toList, isPlain c = true) (inRange : ∀ e ∈ entries, InRange e.2)
    (written : s.toList = '\x7b' :: ([','].intercalate (entries.map memberText) ++ ['\x7d'])) :
    read? s = some (.object (entries.map fun e => (e.1, .number (.integer e.2)))) := by
  have back (e : String × ℤ) (member : e ∈ entries) : ReadsBack (readMember (readValue 126)) '\x7d' _ _ e :=
    readsBack_member 126 (plain e member) (inRange e member) rfl (by decide)
  have items := readContainer_intercalate rfl (by decide) back filled []
  apply read?_of_readValue
  rw [written, maxDepth, readValue_object, items, Option.map_some]

end ColorResolution.Json
