import Mathlib
import ColorResolution.Proofs.Functional.Integers
import ColorResolution.Proofs.Json.Integers
import ColorResolution.Proofs.Payload.Grammar

/-!
# Integer channels in every notation

Four integers can be written in the functional notation, under either name, and in JSON, as an array or as an object,
and alpha may be left out. The notations are read by two decoders that have nothing in common but the channels at their
ends. Main statement: whatever the notation, the integers have the colour of their levels; so of the colours that are
written with their bytes only those with the alpha byte 1, which reads as the whole share, are not read back.
-/
namespace ColorResolution

open Binary

/-- The channels of a colour as integers; alpha may be left out. -/
structure IntegerColor where
  r : ℤ
  g : ℤ
  b : ℤ
  a : Option ℤ
  deriving DecidableEq, Repr

namespace IntegerColor

/-- The channels by the names that they have in an object. -/
def members (c : IntegerColor) : List (String × ℤ) :=
  [("r", c.r), ("g", c.g), ("b", c.b)] ++ c.a.toList.map fun a => ("a", a)

def channels (c : IntegerColor) : List ℤ := c.members.map Prod.snd

/-- The colour that the levels of the channels make. -/
def color (c : IntegerColor) : Color :=
  ⟨Channel.level c.r, Channel.level c.g, Channel.level c.b, c.a.elim 255 Channel.alphaLevel⟩

/-- The bytes of a colour. -/
def ofColor (c : Color) : IntegerColor := ⟨c.r.toNat, c.g.toNat, c.b.toNat, some c.a.toNat⟩

end IntegerColor

/-- The notations that take integers. -/
inductive Form where
  | rgb
  | rgba
  | array
  | object
  deriving DecidableEq, Repr

namespace Form

def write (c : IntegerColor) : Form → String
  | rgb => "rgb(" ++ ",".intercalate (c.channels.map toString) ++ ")"
  | rgba => "rgba(" ++ ",".intercalate (c.channels.map toString) ++ ")"
  | array => "[" ++ ",".intercalate (c.channels.map toString) ++ "]"
  | object => "\x7b" ++ ",".intercalate (c.members.map fun (key, z) => s!"\"{key}\":{z}") ++ "\x7d"

/-- The functional notation is resolved, and JSON is what a URL answers with. -/
def read (url : String) (r : Resolver) (text : String) : Form → Except ColorError Color
  | rgb => r.resolve text
  | rgba => r.resolve text
  | array => Payload.interpret url text r
  | object => Payload.interpret url text r

end Form

/-! ## The functional notation -/

section
variable {c : IntegerColor} {s : String}

theorem IntegerColor.channels_ne_nil (c : IntegerColor) : c.channels ≠ [] := by simp [channels, members]

theorem IntegerColor.plain_members (c : IntegerColor) :
    ∀ e ∈ c.members, ∀ d ∈ e.1.toList, Json.isPlain d = true := by
  obtain ⟨r, g, b, a⟩ := c
  cases a <;> simp [members, Json.isPlain]

theorem IntegerColor.paints (c : IntegerColor) :
    Functional.Paints (c.channels.map Functional.Component.ofInt) c.color := by
  obtain ⟨r, g, b, a⟩ := c
  have channel := Functional.Component.gives_ofInt
  cases a with
  | none => exact .three (channel r) (channel g) (channel b)
  | some a => exact .four (channel r) (channel g) (channel b) (Functional.Component.givesAlpha_ofInt a)

theorem Resolver.resolve_integers {name : List Char} (r : Resolver)
    (named : name = ['r', 'g', 'b'] ∨ name = ['r', 'g', 'b', 'a'])
    (written : s.toList = name ++ '(' :: ([','].intercalate (c.channels.map fun z => (toString z).toList) ++ [')'])) :
    r.resolve s = .ok c.color := by
  have encloses : Functional.Encloses s ([','].intercalate (c.channels.map fun z => (toString z).toList)) := by
    refine ⟨name, written, ?_, ?_⟩ <;> rcases named with rfl | rfl <;> decide
  have trimmed : Text.trim s = s := by
    have first : s.toList.head? = some 'r' := by
      rw [written]
      rcases named with rfl | rfl <;> rfl
    have last : s.toList.getLast? = some ')' := by
      rw [written, ← List.cons_append, ← List.append_assoc, List.getLast?_concat]
    exact Text.trim_of_ends first last rfl rfl
  apply r.resolve_of_encloses trimmed encloses
  exact Functional.parse?_of_describes (.color encloses (Functional.lists_integers c.channels_ne_nil) c.paints)

end

/-! ## JSON -/

namespace Payload

theorem gives_integer (z : ℤ) : (Json.Numeral.integer z).Gives (Channel.level z) := by
  rw [Json.Numeral.gives_iff]
  exact (Channel.ofLevel_of_shows (Format.shows_ofInt Format.single_holdsBytes z)).symm

theorem givesAlpha_integer (z : ℤ) : Json.Numeral.GivesAlpha (some (.integer z)) (Channel.alphaLevel z) := by
  rw [Json.Numeral.givesAlpha_iff]
  exact (Channel.ofAlpha_of_shows (Format.shows_ofInt Format.single_holdsBytes z)).symm

/-- The value holds the channels. -/
def Holds (v : Json.Value) (c : IntegerColor) : Prop :=
  Spells v (.integer c.r) (.integer c.g) (.integer c.b) (c.a.map .integer)

theorem holds_array (c : IntegerColor) : Holds (.array (c.channels.map fun z => .number (.integer z))) c := by
  obtain ⟨r, g, b, a⟩ := c
  cases a with
  | none => exact .three _ _ _
  | some a => exact .four _ _ _ _

theorem holds_object (c : IntegerColor) :
    Holds (.object (c.members.map fun e => (e.1, .number (.integer e.2)))) c := by
  obtain ⟨r, g, b, a⟩ := c
  refine .members ⟨[], _, rfl, ?_⟩ ⟨[_], _, rfl, ?_⟩ ⟨[_, _], _, rfl, ?_⟩ ?_
  · cases a <;> simp
  · cases a <;> simp
  · cases a <;> simp
  · cases a with
    | none => exact .missing (by simp [IntegerColor.members, Missing])
    | some a => exact .number ⟨[_, _, _], [], rfl, by simp⟩

theorem outcome_of_holds {s : String} {v : Json.Value} {c : IntegerColor} (r : Resolver) (holds : Holds v c) :
    outcome r s v = .ok c.color := by
  obtain ⟨red, green, blue, a⟩ := c
  apply outcome_of_decodes
  have channel := gives_integer
  cases a with
  | none => exact .channels holds (channel red) (channel green) (channel blue) .full
  | some a => exact .channels holds (channel red) (channel green) (channel blue) (givesAlpha_integer a)

theorem interpret_array {s : String} {c : IntegerColor} (url : String) (r : Resolver)
    (inRange : ∀ z ∈ c.channels, Json.InRange z)
    (written : s.toList = '[' :: ([','].intercalate (c.channels.map fun z => (toString z).toList) ++ [']'])) :
    interpret url s r = .ok c.color := by
  have reads := Json.read?_array c.channels_ne_nil inRange written
  have first : s.toList.head? = some '[' := by rw [written, List.head?_cons]
  have last : s.toList.getLast? = some ']' := by rw [written, ← List.cons_append, List.getLast?_concat]
  rw [← Text.trim_of_ends first last rfl rfl] at reads
  rw [interpret_of_read? reads (.array _), outcome_of_holds r (holds_array c)]

theorem interpret_object {s : String} {c : IntegerColor} (url : String) (r : Resolver)
    (inRange : ∀ e ∈ c.members, Json.InRange e.2)
    (written : s.toList = '\x7b' :: ([','].intercalate (c.members.map Json.memberText) ++ ['\x7d'])) :
    interpret url s r = .ok c.color := by
  have reads := Json.read?_object (by simp [IntegerColor.members]) c.plain_members inRange written
  have first : s.toList.head? = some '\x7b' := by rw [written, List.head?_cons]
  have last : s.toList.getLast? = some '\x7d' := by rw [written, ← List.cons_append, List.getLast?_concat]
  rw [← Text.trim_of_ends first last rfl rfl] at reads
  rw [interpret_of_read? reads (.object _), outcome_of_holds r (holds_object c)]

end Payload

/-! ## Bytes -/

namespace Channel

theorem level_toNat (b : UInt8) : level b.toNat = b := by
  have below := b.toNat_lt
  have kept : (min (max (b.toNat : ℤ) 0) 255).toNat = b.toNat := by omega
  rw [level, kept, UInt8.ofNat_toNat]

/-- The byte 1 would be the smallest level, but as an alpha value 1 is the whole share. -/
theorem alphaLevel_toNat_eq_iff (b : UInt8) : alphaLevel b.toNat = b ↔ b ≠ 1 := by
  by_cases one : b = 1
  · subst one
    decide
  · have other : (b.toNat : ℤ) ≠ 1 := by
      intro same
      apply one
      rw [← UInt8.toNat_inj]
      exact_mod_cast same
    simp [alphaLevel_of_ne_one other, level_toNat, one]

end Channel

namespace IntegerColor

theorem inRange_ofColor (c : Color) : ∀ z ∈ (ofColor c).channels, Json.InRange z := by
  have byte (b : UInt8) : Json.InRange b.toNat := by
    have below := b.toNat_lt
    constructor <;> omega
  simp [ofColor, channels, members, byte]

theorem color_ofColor_eq_iff (c : Color) : (ofColor c).color = c ↔ c.a ≠ 1 := by
  obtain ⟨r, g, b, a⟩ := c
  simp [ofColor, color, Channel.level_toNat, Channel.alphaLevel_toNat_eq_iff]

end IntegerColor

/-! ## Every notation -/

namespace Form

theorem toList_enclosed {α : Type} (front back : String) (write : α → String) (xs : List α) :
    (front ++ ",".intercalate (xs.map write) ++ back).toList =
      front.toList ++ ([','].intercalate (xs.map fun x => (write x).toList) ++ back.toList) := by
  rw [String.toList_append, String.toList_append, String.toList_intercalate, List.map_map, List.append_assoc]
  rfl

theorem toList_write_array (c : IntegerColor) :
    (array.write c).toList = '[' :: ([','].intercalate (c.channels.map fun z => (toString z).toList) ++ [']']) := by
  rw [write, toList_enclosed]
  rfl

theorem toList_write_object (c : IntegerColor) :
    (object.write c).toList = '\x7b' :: ([','].intercalate (c.members.map Json.memberText) ++ ['\x7d']) := by
  have member (e : String × ℤ) : (s!"\"{e.1}\":{e.2}").toList = Json.memberText e := by
    simp only [String.toList_append, List.append_assoc]
    rfl
  rw [write, toList_enclosed]
  simp only [member]
  rfl

example : object.write ⟨-1, 2, 300, some 0⟩ = "\x7b\"r\":-1,\"g\":2,\"b\":300,\"a\":0\x7d" := by decide +kernel

/-- One after another the notations read what they write. -/
theorem read_write (url : String) (r : Resolver) (form : Form) {c : IntegerColor}
    (inRange : ∀ z ∈ c.channels, Json.InRange z) : form.read url r (form.write c) = .ok c.color := by
  cases form with
  | rgb =>
    apply r.resolve_integers (.inl rfl)
    rw [write, toList_enclosed]
    rfl
  | rgba =>
    apply r.resolve_integers (.inr rfl)
    rw [write, toList_enclosed]
    rfl
  | array =>
    rw [read]
    exact Payload.interpret_array url r inRange (toList_write_array c)
  | object =>
    rw [read]
    have inRange' (e : String × ℤ) (member : e ∈ c.members) := inRange e.2 (List.mem_map_of_mem member)
    exact Payload.interpret_object url r inRange' (toList_write_object c)

/-- Main statement: every notation takes integers of 64 bits to the colour of their levels, and takes the bytes of a
colour back to it except where alpha is 1. -/
theorem notations_agree (url : String) (r : Resolver) :
    (∀ (form : Form) (c : IntegerColor), (∀ z ∈ c.channels, Json.InRange z) →
      form.read url r (form.write c) = .ok c.color) ∧
    (∀ (form : Form) (c : Color), form.read url r (form.write (.ofColor c)) = .ok c ↔ c.a ≠ 1) := by
  refine ⟨fun form c inRange => read_write url r form inRange, fun form c => ?_⟩
  rw [read_write url r form (IntegerColor.inRange_ofColor c), Except.ok.injEq]
  exact IntegerColor.color_ofColor_eq_iff c

/-- Both ends of the range, and an alpha of 1. -/
theorem notations_agree_at_bounds :
    rgba.write ⟨-9223372036854775808, 18446744073709551615, 128, some 1⟩ =
        "rgba(-9223372036854775808,18446744073709551615,128,1)" ∧
      (∀ z ∈ (⟨-9223372036854775808, 18446744073709551615, 128, some 1⟩ : IntegerColor).channels, Json.InRange z) ∧
      ∀ form : Form, form.read "palette.json" {}
        (form.write ⟨-9223372036854775808, 18446744073709551615, 128, some 1⟩) = .ok ⟨0, 255, 128, 255⟩ := by
  have inRange : ∀ z ∈ (⟨-9223372036854775808, 18446744073709551615, 128, some 1⟩ : IntegerColor).channels,
      Json.InRange z := by
    simp [IntegerColor.channels, IntegerColor.members, Json.InRange]
  refine ⟨by decide +kernel, inRange, fun form => ?_⟩
  exact (notations_agree "palette.json" {}).1 form _ inRange

end Form

end ColorResolution
