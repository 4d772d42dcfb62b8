import ColorResolution.Proofs.Hex.Bytes

/-!
# Hexadecimal texts in a resolver

A text is recognized as hexadecimal by its mark or by its bytes, and is then read from the start: its blanks and its
mark are taken off, and the bytes are looked at again. Main statement: a resolver reads what the reader of hexadecimal
texts reads, behind the mark with its failures; whether digits may stand without the mark matters for such digits alone.

So `match_hex` calls `is_hex_digits` and then `parse_hex`.
-/
namespace ColorResolution

namespace Hex

section
variable {cs : List Char} {text : String}

theorem areDigits_bytes_iff : areDigits (bytes cs) = true ↔ HexDigits cs := by
  have width (digits : cs.all isDigit = true) : (bytes cs).length = cs.length := by
    simpa using congrArg List.length (map_bytes digits)
  rw [areDigits, Bool.and_eq_true, all_bytes]
  simp only [Bool.or_eq_true, beq_iff_eq, or_assoc]
  constructor
  · rintro ⟨size, digits⟩
    rw [width digits] at size
    exact ⟨size, fun c member => (isDigit_iff c).mp (List.all_eq_true.mp digits c member)⟩
  · rintro ⟨size, each⟩
    have digits : cs.all isDigit = true := List.all_eq_true.mpr fun c member => (isDigit_iff c).mpr (each c member)
    rw [width digits]
    exact ⟨size, digits⟩

theorem dropMark_of_unmarked (unmarked : cs.head? ≠ some '#') : dropMark cs = cs := by
  unfold dropMark
  split
  · exact absurd rfl unmarked
  · rfl

theorem parse_trim_of_ok {c : Color} (reads : parse text = .ok c) : parse (Text.trim text) = .ok c := by
  rw [parse_eq_ok_iff, digits, Text.trim_trim]
  exact parse_eq_ok_iff.mp reads

/-- What is read has the mark or is digits. -/
theorem marked_or_digits_of_ok {c : Color} (reads : parse text = .ok c) :
    (Text.trim text).toList.head? = some '#' ∨ HexDigits (Text.trim text).toList := by
  by_cases marked : (Text.trim text).toList.head? = some '#'
  · exact .inl marked
  · right
    by_contra others
    rw [parse_eq_ok_iff, digits, dropMark_of_unmarked marked, decode?_eq_none_iff.mpr others] at reads
    cases reads

end

end Hex

section
variable {bareHex : Bool} {text s : String} {r : Resolver}

/-- A text without blanks at its ends is recognized by its mark or its bytes, and read from the start. -/
theorem Matcher.matchHex_eq (trimmed : Text.trim text = text) :
    matchHex bareHex text =
      if text.toList.head? = some '#' ∨ bareHex = true ∧ Hex.areDigits (Hex.bytes text.toList) = true then
        some (Hex.parse text)
      else none := by
  have byBytes := @Hex.areDigits_bytes_iff text.toList
  by_cases marked : text.toList.head? = some '#'
  · rw [if_pos (.inl marked), matchHex, if_pos marked]
  · rw [matchHex_unmarked marked]
    cases bareHex with
    | false => simp [marked]
    | true =>
      rw [if_pos rfl]
      by_cases digits : HexDigits text.toList
      · obtain ⟨c, found⟩ := Option.ne_none_iff_exists'.mp fun none => Hex.decode?_eq_none_iff.mp none digits
        rw [if_pos (.inr ⟨rfl, byBytes.mpr digits⟩), found, Hex.parse, trimmed, Hex.dropMark_of_unmarked marked, found]
        rfl
      · rw [Hex.decode?_eq_none_iff.mpr digits, if_neg (by simp [marked, byBytes, digits])]
        rfl

namespace Resolver

/-- What the first matcher is responsible for is refused or read by the reader of hexadecimal texts. -/
theorem resolve_of_hex
    (hex : (Text.trim s).toList.head? = some '#' ∨ r.bareHex = true ∧ HexDigits (Text.trim s).toList) :
    r.resolve s = Hex.parse (Text.trim s) := by
  have some : Text.trim s ≠ "" := by
    intro empty
    rw [empty] at hex
    rcases hex with marked | ⟨_, size, _⟩
    · cases marked
    · simp at size
  have reads : Matcher.matchHex r.bareHex (Text.trim s) = .some (Hex.parse (Text.trim s)) := by
    rw [Matcher.matchHex_eq (Text.trim_trim s), if_pos (by rwa [Hex.areDigits_bytes_iff])]
  rw [resolve, (r.decided_resolution s).unique (.hex some reads)]

/-- Without digits it does not matter whether they would be read. -/
theorem Decided.of_bareHex {resolution : Resolution} (others : ¬ HexDigits text.toList)
    (decided : r.Decided text resolution) (bareHex : Bool) : { r with bareHex }.Decided text resolution := by
  have same : Matcher.matchHex bareHex text = Matcher.matchHex r.bareHex text := by
    by_cases marked : text.toList.head? = some '#'
    · rw [Matcher.matchHex, Matcher.matchHex, if_pos marked, if_pos marked]
    · have passes (bareHex : Bool) : Matcher.matchHex bareHex text = none :=
        Matcher.matchHex_eq_none_iff.mpr ⟨marked, fun bare => others bare.2⟩
      rw [passes, passes]
  cases decided with
  | empty empty => exact .empty empty
  | hex some found => exact .hex some (same.trans found)
  | functional some unmarked inNotation => exact .functional some (same.trans unmarked) inNotation
  | token some unmarked outside shape => exact .token (r := { r with bareHex }) some (same.trans unmarked) outside shape
  | named some unmarked outside shapeless =>
    exact .named (r := { r with bareHex }) some (same.trans unmarked) outside shapeless

/-- Main statement: a resolver that may read digits without the mark reads what the reader of hexadecimal texts reads,
and every resolver does behind the mark. Whether it may matters for such digits only. -/
theorem resolve_extends_parse (r : Resolver) (s : String) :
    (r.bareHex = true → ∀ c, Hex.parse s = .ok c → r.resolve s = .ok c) ∧
    ((Text.trim s).toList.head? = some '#' → r.resolve s = Hex.parse (Text.trim s)) ∧
    ∀ bareHex, ¬ HexDigits (Text.trim s).toList → { r with bareHex }.resolve s = r.resolve s := by
  refine ⟨fun allowed c reads => ?_, fun marked => resolve_of_hex (.inl marked), fun bareHex others => ?_⟩
  · rw [resolve_of_hex ((Hex.marked_or_digits_of_ok reads).imp_right fun digits => ⟨allowed, digits⟩)]
    exact Hex.parse_trim_of_ok reads
  · rw [resolve, resolve, ((r.decided_resolution s).of_bareHex others bareHex).unique (decided_resolution _ s)]

/-- With the mark as sigil, a registered name of digits behind it is read as digits; blanks behind the mark are refused;
of a name with a letter too many it does not matter whether digits may stand alone. -/
theorem resolve_extends_parse_of_mark :
    let r : Resolver := { sigil := '#', tokens := fun _ => some ⟨1, 2, 3, 4⟩ }
    r.resolve " fff " = .ok ⟨255, 255, 255, 255⟩ ∧ r.resolve "#fade" = .ok ⟨255, 170, 221, 238⟩ ∧
      r.resolve "# fff" = .error (.invalidHex "# fff") ∧
      { r with bareHex := false }.resolve "faded" = r.resolve "faded" := by
  intro r
  have digits : Hex.parse " fff " = .ok ⟨255, 255, 255, 255⟩ := by decide +kernel
  have word : Hex.parse (Text.trim "#fade") = .ok ⟨255, 170, 221, 238⟩ := by decide +kernel
  have blank : Hex.parse (Text.trim "# fff") = .error (.invalidHex "# fff") := by decide +kernel
  refine ⟨(resolve_extends_parse r " fff ").1 rfl _ digits, ?_, ?_, ?_⟩
  · exact ((resolve_extends_parse r "#fade").2.1 (by decide +kernel)).trans word
  · exact ((resolve_extends_parse r "# fff").2.1 (by decide +kernel)).trans blank
  · have others : ¬ HexDigits (Text.trim "faded").toList := Hex.decode?_eq_none_iff.mp (by decide +kernel)
    exact (resolve_extends_parse r "faded").2.2 false others

end Resolver

end

end ColorResolution
