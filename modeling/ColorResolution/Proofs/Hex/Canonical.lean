import ColorResolution.Proofs.Payload.PlainText
import ColorResolution.Proofs.Resolver.Shapes

/-!
# The canonical form of a hexadecimal colour

Of the texts that read as one colour the written form is one: six or eight digits in small letters behind the mark.
Main statement: between blanks the written form is read back by every reader of colour texts, whatever the resolver;
it is the canonical form of each text that reads as its colour, so texts of one colour are those of one canonical form.
-/
namespace ColorResolution.Hex

/-- The digits of a text between blanks, without the mark. -/
def digits (s : String) : List Char := dropMark (Text.trim s).toList

/-- Three and four digits stand for doubled ones. -/
def doubled (ds : List Char) : List Char := if ds.length = 3 ∨ ds.length = 4 then ds.flatMap fun d => [d, d] else ds

/-- Of eight digits the last two are left out when they are `ff`. -/
def withoutOpaque (ds : List Char) : List Char := if ds.length = 8 ∧ ds.drop 6 = ['f', 'f'] then ds.take 6 else ds

/-- The form that all hexadecimal texts of a colour share. -/
def canonical (s : String) : String := String.ofList ('#' :: withoutOpaque (doubled ((digits s).map Char.toLower)))

/-! ## Digits and bytes -/

theorem digitValue_lt {c : Char} (digit : isDigit c = true) : digitValue c < 16 := by
  simp only [isDigit, Bool.or_eq_true, Bool.and_eq_true, decide_eq_true_eq] at digit
  unfold digitValue
  dsimp only
  split_ifs <;> omega

/-- Writing the value of a digit gives its small letter. -/
theorem digit_digitValue {c : Char} (isDigit : isDigit c = true) : digit (digitValue c) = c.toLower := by
  have all : ∀ n < 0x67, Hex.isDigit (Char.ofNat n) = true →
      digit (digitValue (Char.ofNat n)) = (Char.ofNat n).toLower := by decide
  have small : c.toNat < 0x67 := by
    simp only [Hex.isDigit, Bool.or_eq_true, Bool.and_eq_true, decide_eq_true_eq] at isDigit
    omega
  have same := all c.toNat small
  rw [Char.ofNat_toNat] at same
  exact same isDigit

theorem digit_eq_f_iff : ∀ n < 16, digit n = 'f' ↔ n = 15 := by decide

theorem not_isBlank_digit : ∀ n < 16, Text.isBlank (digit n) = false := by decide

theorem toNat_byte {high low : Nat} (highSmall : high < 16) (lowSmall : low < 16) :
    (byte high low).toNat = 16 * high + low := by
  rw [byte, UInt8.toNat_ofNat', Nat.mod_eq_of_lt (by omega)]

theorem byteDigits_byte {high low : Nat} (highSmall : high < 16) (lowSmall : low < 16) :
    byteDigits (byte high low) = [digit high, digit low] := by
  rw [byteDigits, toNat_byte highSmall lowSmall]
  congr 2 <;> congr 1 <;> omega

theorem byte_eq_255_iff {high low : Nat} (highSmall : high < 16) (lowSmall : low < 16) :
    byte high low = 255 ↔ high = 15 ∧ low = 15 := by
  rw [← UInt8.toNat_inj, toNat_byte highSmall lowSmall]
  change 16 * high + low = 255 ↔ _
  omega

/-! ## Writing what was read -/

/-- Eight digit values are written without the last two where these are fifteen. -/
theorem encode_of_values {r r' g g' b b' a a' : Nat} (small : ∀ v ∈ [r, r', g, g', b, b', a, a'], v < 16) :
    encode ⟨byte r r', byte g g', byte b b', byte a a'⟩ =
      '#' :: withoutOpaque ([r, r', g, g', b, b', a, a'].map digit) := by
  simp only [List.mem_cons, List.not_mem_nil, or_false, forall_eq_or_imp, forall_eq] at small
  obtain ⟨hr, hr', hg, hg', hb, hb', ha, ha'⟩ := small
  have opaqueIff : (Color.isOpaque ⟨byte r r', byte g g', byte b b', byte a a'⟩ = true) ↔
      [digit a, digit a'] = ['f', 'f'] := by
    simp [Color.isOpaque, byte_eq_255_iff ha ha', digit_eq_f_iff _ ha, digit_eq_f_iff _ ha']
  simp only [encode, byteDigits_byte, hr, hr', hg, hg', hb, hb', ha, ha', opaqueIff, withoutOpaque, List.map_cons,
    List.map_nil, List.length_cons, List.length_nil, List.drop_succ_cons, List.drop_zero, true_and]
  split_ifs <;> rfl

theorem encode_of_ofValues? {values : List Nat} {c : Color} (small : ∀ v ∈ values, v < 16)
    (found : ofValues? values = some c) : encode c = '#' :: withoutOpaque (doubled (values.map digit)) := by
  have full : (255 : UInt8) = byte 15 15 := rfl
  unfold ofValues? at found
  split at found
  next r g b =>
    -- an opaque colour is written like one whose last digits are fifteen
    cases found
    rw [full, encode_of_values (by simpa using small)]
    rfl
  next r g b a =>
    cases found
    rw [encode_of_values (by simpa using small)]
    rfl
  next r r' g g' b b' =>
    cases found
    rw [full, encode_of_values (by simpa using small)]
    rfl
  next r r' g g' b b' a a' =>
    cases found
    rw [encode_of_values small]
    rfl
  · cases found

theorem parse_eq_ok_iff {s : String} {c : Color} : parse s = .ok c ↔ decode? (digits s) = some c := by
  rw [parse, digits]
  cases decode? (dropMark (Text.trim s).toList) <;> simp

/-- The written form of a colour is the canonical form of every text that reads as the colour. -/
theorem toHex_of_parse {s : String} {c : Color} (reads : parse s = .ok c) : c.toHex = canonical s := by
  have found := parse_eq_ok_iff.mp reads
  unfold decode? at found
  split at found
  next all =>
    have isDigits : ∀ d ∈ digits s, isDigit d = true := List.all_eq_true.mp all
    have small : ∀ v ∈ (digits s).map digitValue, v < 16 := by
      intro v member
      obtain ⟨d, belongs, rfl⟩ := List.mem_map.mp member
      exact digitValue_lt (isDigits d belongs)
    have lower : ((digits s).map digitValue).map digit = (digits s).map Char.toLower := by
      rw [List.map_map]
      exact List.map_congr_left fun d belongs => digit_digitValue (isDigits d belongs)
    rw [Color.toHex, canonical, encode_of_ofValues? small found, lower]
  · cases found

/-! ## Reading what was written -/

/-- What holds of every digit holds of the digits of a byte. -/
theorem byteDigits_all {p : Char → Prop} (every : ∀ n < 16, p (digit n)) (b : UInt8) : ∀ d ∈ byteDigits b, p d := by
  have bound := b.toNat_lt
  intro d member
  simp only [byteDigits, List.mem_cons, List.not_mem_nil, or_false] at member
  rcases member with rfl | rfl
  · exact every _ (by omega)
  · exact every _ (by omega)

/-- What holds of every digit holds behind the mark. -/
theorem dropMark_encode_all {p : Char → Prop} (every : ∀ n < 16, p (digit n)) (c : Color) :
    ∀ d ∈ dropMark (encode c), p d := by
  intro d member
  simp only [encode, dropMark, List.mem_append] at member
  rcases member with ((red | green) | blue) | alpha
  · exact byteDigits_all every _ d red
  · exact byteDigits_all every _ d green
  · exact byteDigits_all every _ d blue
  · split at alpha
    · cases alpha
    · exact byteDigits_all every _ d alpha

theorem map_byteDigits (b : UInt8) : (byteDigits b).map digitValue = [b.toNat / 16, b.toNat % 16] := by
  have bound := b.toNat_lt
  simp only [byteDigits, List.map_cons, List.map_nil]
  rw [digitValue_digit _ (by omega), digitValue_digit _ (by omega)]

/-- A written form reads back as its colour. -/
theorem decode?_encode (c : Color) : decode? (dropMark (encode c)) = some c := by
  rw [decode?, if_pos (List.all_eq_true.mpr (dropMark_encode_all isDigit_digit c))]
  obtain ⟨r, g, b, a⟩ := c
  simp only [encode, dropMark, List.map_append, map_byteDigits]
  by_cases full : a = 255
  · subst full
    simp [Color.isOpaque, ofValues?, byte_div_mod]
  · simp [Color.isOpaque, full, map_byteDigits, ofValues?, byte_div_mod]

/-- The blanks around a written form are taken off, and nothing else is. -/
theorem trim_toHex (c : Color) {before after : String} (front : ∀ d ∈ before.toList, Text.isBlank d = true)
    (back : ∀ d ∈ after.toList, Text.isBlank d = true) : Text.trim (before ++ c.toHex ++ after) = c.toHex := by
  have split : (before ++ c.toHex ++ after).toList = before.toList ++ (encode c ++ after.toList) := by
    simp [Color.toHex]
  have solid : ∀ d ∈ encode c, Text.isBlank d = false := by
    intro d member
    rcases List.mem_cons.mp member with rfl | behind
    · rfl
    · exact dropMark_encode_all (p := fun d => Text.isBlank d = false) not_isBlank_digit c d behind
  rw [Text.trim, split, Functional.dropEnds_of_solid front back solid (List.cons_ne_nil _ _), Color.toHex]

theorem toList_toHex (c : Color) : c.toHex.toList = '#' :: dropMark (encode c) := by
  simp [Color.toHex, encode, dropMark]

theorem toHex_ne_empty (c : Color) : c.toHex ≠ "" := by
  intro empty
  have marked := toList_toHex c
  rw [empty] at marked
  cases marked

section
variable {s : String} {c : Color}

theorem parse_of_trim (written : Text.trim s = c.toHex) : parse s = .ok c := by
  rw [parse_eq_ok_iff, digits, written, Color.toHex, String.toList_ofList]
  exact decode?_encode c

/-- The mark decides, whatever the resolver would make of the text. -/
theorem resolve_of_trim (r : Resolver) (written : Text.trim s = c.toHex) : r.resolve s = .ok c := by
  have reads : Matcher.matchHex r.bareHex c.toHex = some (.ok c) := by
    rw [Matcher.matchHex_marked (toList_toHex c), parse_of_trim (s := c.toHex) (by rw [← written, Text.trim_trim])]
  have decided := r.decided_resolution s
  rw [written] at decided
  rw [Resolver.resolve, decided.unique (.hex (toHex_ne_empty c) reads)]

/-- The mark opens no document. -/
theorem interpret_of_trim (url : String) (r : Resolver) (written : Text.trim s = c.toHex) :
    Payload.interpret url s r = .ok c := by
  have plain := Payload.document?_of_head (toList_toHex c) rfl (by decide) (by decide) (by decide)
  rw [← written] at plain
  rw [Payload.interpret_of_plain url r (by rw [written]; exact toHex_ne_empty c) plain]
  exact resolve_of_trim r (by rw [Text.trim_trim, written])

end

/-- Main statement: between blanks the written form of a colour is read back by every reader, and the texts of a colour
are those whose canonical form is its written form. -/
theorem toHex_canonical :
    (∀ (c : Color) (url : String) (r : Resolver) (before after : String),
      (∀ d ∈ before.toList, Text.isBlank d = true) → (∀ d ∈ after.toList, Text.isBlank d = true) →
      parse (before ++ c.toHex ++ after) = .ok c ∧ r.resolve (before ++ c.toHex ++ after) = .ok c ∧
        Payload.interpret url (before ++ c.toHex ++ after) r = .ok c) ∧
    (∀ s c, parse s = .ok c → c.toHex = canonical s) ∧
    ∀ s t c d, parse s = .ok c → parse t = .ok d → (c = d ↔ canonical s = canonical t) := by
  refine ⟨?_, fun s c => toHex_of_parse, ?_⟩
  · intro c url r before after front back
    have written := trim_toHex c front back
    exact ⟨parse_of_trim written, resolve_of_trim r written, interpret_of_trim url r written⟩
  · intro s t c d first second
    rw [← toHex_of_parse first, ← toHex_of_parse second]
    constructor
    · exact congrArg Color.toHex
    · intro same
      have trimmed (c : Color) : Text.trim c.toHex = c.toHex := by
        simpa using @trim_toHex c "" "" (by simp) (by simp)
      have again : parse c.toHex = .ok d := parse_of_trim (by rw [trimmed, same])
      rw [parse_of_trim (trimmed c)] at again
      exact Except.ok.inj again

/-- A mark as sigil does not stand in the way, and four digits whose last is `f` are three. -/
theorem toHex_canonical_of_short :
    let r : Resolver := { sigil := '#', bareHex := false, tokens := fun _ => some .black, names := fun _ => none }
    let blanks := "\u00A0\n"
    (∀ d ∈ blanks.toList, Text.isBlank d = true) ∧ (⟨0xAB, 0, 9, 0x80⟩ : Color).toHex = "#ab000980" ∧
      Payload.interpret "u" (blanks ++ (⟨0xAB, 0, 9, 0x80⟩ : Color).toHex ++ blanks) r = .ok ⟨0xAB, 0, 9, 0x80⟩ ∧
      parse " #ABcF " = .ok ⟨0xAA, 0xBB, 0xCC, 255⟩ ∧ parse "AbC" = .ok ⟨0xAA, 0xBB, 0xCC, 255⟩ ∧
      canonical " #ABcF " = "#aabbcc" ∧ canonical " #ABcF " = canonical "AbC" := by
  intro r blanks
  have blank : ∀ d ∈ blanks.toList, Text.isBlank d = true := List.all_eq_true.mp (by decide +kernel)
  have four : parse " #ABcF " = .ok ⟨0xAA, 0xBB, 0xCC, 255⟩ := by decide +kernel
  have three : parse "AbC" = .ok ⟨0xAA, 0xBB, 0xCC, 255⟩ := by decide +kernel
  obtain ⟨readBack, written, shared⟩ := toHex_canonical
  refine ⟨blank, by decide +kernel, (readBack _ "u" r blanks blanks blank blank).2.2, four, three, ?_, ?_⟩
  · exact (written _ _ four).symm
  · exact (shared _ _ _ _ four three).mp rfl

end ColorResolution.Hex
