import ColorResolution.Proofs.Hex.Bytes

/-!
# Slices

A piece of a text is cut out by the offsets of its bytes, which faults outside the text and inside a character. Between
the bytes of two parts of a text there is always such a place, and what is cut out between two of them is text again.
-/
namespace ColorResolution.Text

open Hex (bytes isBoundary)

/-- The text between two offsets. -/
def slice (s : String) (start stop : Nat) : Except Hex.Fault String :=
  (Hex.cut (bytes s.toList) start stop).bind fun piece =>
    ((String.fromUTF8? piece.toByteArray).map .ok).getD (.error (.cut start stop))

theorem fromUTF8?_eq_some_iff {content : ByteArray} {text : String} :
    String.fromUTF8? content = some text ↔ content = text.toUTF8 := by
  constructor
  · intro found
    unfold String.fromUTF8? at found
    split at found
    next valid =>
      rw [← Option.some.inj found]
      rfl
    · cases found
  · rintro rfl
    have valid : text.toUTF8.IsValidUTF8 := text.isValidUTF8
    rw [String.fromUTF8?, dif_pos valid]
    rfl

theorem toByteArray_bytes (s : String) : (bytes s.toList).toByteArray = s.toUTF8 := String.utf8Encode_toList

theorem bytes_append (before after : List Char) : bytes (before ++ after) = bytes before ++ bytes after :=
  List.flatMap_append

/-- Bytes at the front of a text that are those of a text are its front. -/
theorem prefix_of_bytes {front whole : List Char} (first : bytes front <+: bytes whole) : front <+: whole := by
  obtain ⟨rest, split⟩ := first
  apply List.isPrefix_of_utf8Encode_append_eq_utf8Encode rest.toByteArray
  rw [List.utf8Encode, List.utf8Encode, ← List.toByteArray_append]
  exact congrArg List.toByteArray split

/-- Where one part of a text ends and the next one begins it can be cut. -/
theorem isBoundary_bytes (before after : List Char) :
    isBoundary (bytes (before ++ after)) (bytes before).length = true := by
  cases after with
  | nil => simp [isBoundary]
  | cons c after =>
    have here : (bytes (before ++ c :: after))[(bytes before).length]? =
        (String.utf8EncodeChar c ++ bytes after)[0]? := by
      rw [bytes_append, List.getElem?_append_right (Nat.le_refl _), Nat.sub_self]
      rfl
    rw [isBoundary, here]
    by_cases narrow : c.toNat ≤ 127
    · have small : UInt8.ofNat c.toNat < 0x80 := by
        rw [UInt8.lt_iff_toNat_lt, UInt8.toNat_ofNat', Nat.mod_eq_of_lt (by omega)]
        exact Nat.lt_succ_of_le narrow
      simp [Hex.encode_narrow narrow, small]
    · obtain ⟨first, rest, encoded, large⟩ := Hex.encode_wide narrow
      have large : 0xC0 ≤ first := UInt8.le_iff_toNat_le.mpr large
      simp [encoded, large]

section
variable {s t : String} {stop : Nat}

theorem slice_of_split (before inside after : List Char) (split : s.toList = before ++ (inside ++ after)) :
    slice s (bytes before).length (bytes (before ++ inside)).length = .ok (String.ofList inside) := by
  have forward : (bytes before).length ≤ (bytes (before ++ inside)).length := by simp [bytes_append]
  have first := isBoundary_bytes before (inside ++ after)
  have last := isBoundary_bytes (before ++ inside) after
  rw [List.append_assoc] at last
  have taken : ((bytes s.toList).drop (bytes before).length).take
      ((bytes (before ++ inside)).length - (bytes before).length) = bytes inside := by
    rw [split, bytes_append, bytes_append, bytes_append, List.drop_left, List.length_append, Nat.add_sub_cancel_left,
      List.take_left]
  have text : String.fromUTF8? (bytes inside).toByteArray = some (String.ofList inside) := by
    rw [fromUTF8?_eq_some_iff, ← toByteArray_bytes, String.toList_ofList]
  have cut : Hex.cut (bytes s.toList) (bytes before).length (bytes (before ++ inside)).length = .ok (bytes inside) := by
    rw [Hex.cut, if_pos ⟨forward, split ▸ first, split ▸ last⟩, taken]
  rw [slice, cut, Except.bind, text]
  rfl

/-- What is cut out at the front is the front of the text. -/
theorem prefix_of_slice (front : slice s 0 stop = .ok t) : t.toList <+: s.toList := by
  unfold slice at front
  cases cut : Hex.cut (bytes s.toList) 0 stop with
  | error fault =>
    rw [cut] at front
    cases front
  | ok piece =>
    have taken : piece = (bytes s.toList).take stop := by
      unfold Hex.cut at cut
      split at cut
      · simpa using cut.symm
      · cases cut
    have text : String.fromUTF8? piece.toByteArray = some t := by
      rw [cut, Except.bind] at front
      cases found : String.fromUTF8? piece.toByteArray with
      | none => simp [found] at front
      | some text => simpa [found] using front
    have same : bytes t.toList = piece :=
      List.toByteArray_inj.mp ((toByteArray_bytes t).trans (fromUTF8?_eq_some_iff.mp text).symm)
    apply prefix_of_bytes
    rw [same, taken]
    exact List.take_prefix stop _

end

end ColorResolution.Text
