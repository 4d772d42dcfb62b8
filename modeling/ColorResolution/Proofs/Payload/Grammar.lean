import Mathlib
import ColorResolution.Payload
import ColorResolution.Proofs.Color.Accuracy

/-!
# What a JSON document describes

The rules by which a string, an object or an array describes a colour, as a relation beside the reader of payloads. Of
a key that is repeated only the last member counts. Channels go before a wrapped description, an object wraps exactly
one of its members `color` and `value`, and whatever follows none of the rules, at whatever depth, makes the whole body
no colour. The number of a channel is any whose value is that of the JSON number, rounded to 32 bits. Main statement:
interpreting a body gives the result that the rules give, and no other.
-/
namespace ColorResolution

open Binary

/-! ## Numbers -/

namespace Json.Numeral

/-- What a JSON number stands for. -/
def value? : Numeral → Option (WithBotTop ℚ)
  | .integer n => some (n : ℚ)
  | .real x => x.value?

/-- The number has the value that 32 bits have for the JSON number. -/
def Narrows (n : Numeral) (x : Number) : Prop := x.value? = n.value?.map single.narrowed

/-- The byte of a red, green or blue channel. -/
inductive Gives (n : Numeral) : UInt8 → Prop
  | level {x : Number} : n.Narrows x → Gives n (Channel.ofLevel x)

/-- The byte of the alpha channel, which without a number is full. -/
inductive GivesAlpha : Option Numeral → UInt8 → Prop
  | full : GivesAlpha none 255
  | alpha {n : Numeral} {x : Number} : n.Narrows x → GivesAlpha (some n) (Channel.ofAlpha x)

theorem narrows_toSingle (n : Numeral) : n.Narrows n.toSingle := by
  cases n with
  | integer z => exact Format.value?_ofInt Format.single_holdsBytes z
  | real x => exact Format.value?_convert Format.single_holdsBytes x

theorem Narrows.value?_eq {n : Numeral} {x : Number} (narrows : n.Narrows x) : x.value? = n.toSingle.value? :=
  narrows.trans n.narrows_toSingle.symm

theorem gives_iff {n : Numeral} {b : UInt8} : n.Gives b ↔ b = Channel.ofLevel n.toSingle := by
  constructor
  · rintro ⟨narrows⟩
    exact Channel.ofLevel_congr narrows.value?_eq
  · rintro rfl
    exact .level n.narrows_toSingle

theorem givesAlpha_iff {n : Option Numeral} {b : UInt8} :
    GivesAlpha n b ↔ b = (n.map toSingle).elim 255 Channel.ofAlpha := by
  constructor
  · rintro (_ | narrows)
    · rfl
    · exact Channel.ofAlpha_congr narrows.value?_eq
  · rintro rfl
    cases n with
    | none => exact .full
    | some n => exact .alpha n.narrows_toSingle

end Json.Numeral

namespace Payload

/-- The last member of a key. -/
def LastMember (members : List (String × Json.Value)) (key : String) (value : Json.Value) : Prop :=
  ∃ earlier later, members = earlier ++ (key, value) :: later ∧ ∀ m ∈ later, m.1 ≠ key

def Missing (members : List (String × Json.Value)) (key : String) : Prop := ∀ m ∈ members, m.1 ≠ key

/-- The values that are documents: strings, arrays and objects. -/
inductive Document : Json.Value → Prop
  | string (text : String) : Document (.string text)
  | array (items : List Json.Value) : Document (.array items)
  | object (members : List (String × Json.Value)) : Document (.object members)

/-- The alpha value among the members of an object, if there is one; null is none. -/
inductive AlphaMember (members : List (String × Json.Value)) : Option Json.Numeral → Prop
  | missing : Missing members "a" → AlphaMember members none
  | null : LastMember members "a" .null → AlphaMember members none
  | number {a : Json.Numeral} : LastMember members "a" (.number a) → AlphaMember members (some a)

/-- The values that hold the channels themselves. -/
inductive Spells : Json.Value → Json.Numeral → Json.Numeral → Json.Numeral → Option Json.Numeral → Prop
  | members {members : List (String × Json.Value)} {r g b : Json.Numeral} {a : Option Json.Numeral} :
    LastMember members "r" (.number r) → LastMember members "g" (.number g) → LastMember members "b" (.number b) →
    AlphaMember members a → Spells (.object members) r g b a
  | three (r g b : Json.Numeral) : Spells (.array [.number r, .number g, .number b]) r g b none
  | four (r g b a : Json.Numeral) : Spells (.array [.number r, .number g, .number b, .number a]) r g b (some a)
  | null (r g b : Json.Numeral) : Spells (.array [.number r, .number g, .number b, .null]) r g b none

/-- The values that wrap another document. -/
inductive Wraps : Json.Value → Json.Value → Prop
  | color {members : List (String × Json.Value)} {inner : Json.Value} :
    LastMember members "color" inner → Missing members "value" → Document inner → Wraps (.object members) inner
  | value {members : List (String × Json.Value)} {inner : Json.Value} :
    LastMember members "value" inner → Missing members "color" → Document inner → Wraps (.object members) inner
  | item {inner : Json.Value} : Document inner → Wraps (.array [inner]) inner

/-- The result that a document describes; `body` is the text that is refused as a whole. -/
inductive Decodes (resolver : Resolver) (body : String) : Json.Value → Except ColorError Color → Prop
  | string (text : String) : Decodes resolver body (.string text) (resolver.resolve text)
  | channels {v : Json.Value} {r g b : Json.Numeral} {a : Option Json.Numeral} {x y z w : UInt8} : Spells v r g b a →
    r.Gives x → g.Gives y → b.Gives z → Json.Numeral.GivesAlpha a w → Decodes resolver body v (.ok ⟨x, y, z, w⟩)
  | wrapped {v inner : Json.Value} {result : Except ColorError Color} : (∀ r g b a, ¬ Spells v r g b a) →
    Wraps v inner → Decodes resolver body inner result → Decodes resolver body v result
  | refused {v : Json.Value} : (∀ text, v ≠ .string text) → (∀ r g b a, ¬ Spells v r g b a) →
    (∀ inner, ¬ Wraps v inner) → Decodes resolver body v (.error (.invalidColor body))

/-! ## Members and items -/

section
variable {members : List (String × Json.Value)} {key : String}

theorem member?_eq_some_iff {value : Json.Value} :
    Json.member? members key = some value ↔ LastMember members key value := by
  rw [Json.member?, List.lookup_eq_some_iff]
  constructor
  · rintro ⟨later, earlier, split, others⟩
    refine ⟨earlier.reverse, later.reverse, ?_, ?_⟩
    · rw [← List.reverse_reverse members, split]
      simp
    · intro m belongs
      exact (bne_iff_ne.mp (others m (List.mem_reverse.mp belongs))).symm
  · rintro ⟨earlier, later, rfl, others⟩
    refine ⟨later.reverse, earlier.reverse, by simp, ?_⟩
    intro m belongs
    exact bne_iff_ne.mpr (others m (List.mem_reverse.mp belongs)).symm

theorem member?_eq_none_iff : Json.member? members key = none ↔ Missing members key := by
  rw [Json.member?, List.lookup_eq_none_iff]
  constructor
  · exact fun absent m belongs => (bne_iff_ne.mp (absent m (List.mem_reverse.mpr belongs))).symm
  · exact fun absent m belongs => bne_iff_ne.mpr (absent m (List.mem_reverse.mp belongs)).symm

theorem number?_eq_some_iff {v : Json.Value} {x : Number} :
    number? v = some x ↔ ∃ n : Json.Numeral, v = .number n ∧ x = n.toSingle := by
  cases v <;> simp [number?, eq_comm]

theorem numberMember_iff {x : Number} :
    (Json.member? members key).bind number? = some x ↔
      ∃ n : Json.Numeral, LastMember members key (.number n) ∧ x = n.toSingle := by
  simp only [Option.bind_eq_some_iff, number?_eq_some_iff, member?_eq_some_iff]
  constructor
  · rintro ⟨_, last, n, rfl, rfl⟩
    exact ⟨n, last, rfl⟩
  · rintro ⟨n, last, rfl⟩
    exact ⟨_, last, n, rfl, rfl⟩

theorem alphaMember_iff {alpha : Option Number} :
    alpha? (Json.member? members "a") = some alpha ↔
      ∃ a, AlphaMember members a ∧ alpha = a.map Json.Numeral.toSingle := by
  constructor
  · intro given
    cases found : Json.member? members "a" with
    | none =>
      rw [found] at given
      cases given
      exact ⟨none, .missing (member?_eq_none_iff.mp found), rfl⟩
    | some v =>
      rw [found] at given
      have last := member?_eq_some_iff.mp found
      cases v with
      | null =>
        cases given
        exact ⟨none, .null last, rfl⟩
      | number a =>
        cases given
        exact ⟨some a, .number last, rfl⟩
      | _ => cases given
  · rintro ⟨a, given, rfl⟩
    cases given with
    | missing absent =>
      rw [member?_eq_none_iff.mpr absent]
      rfl
    | null last =>
      rw [member?_eq_some_iff.mpr last]
      rfl
    | number last =>
      rw [member?_eq_some_iff.mpr last]
      rfl

/-! ## Channels -/

/-- The channels of a value that spells them, as numbers of 32 bits. -/
def narrowed (r g b : Json.Numeral) (a : Option Json.Numeral) : Payload :=
  .channels r.toSingle g.toSingle b.toSingle (a.map Json.Numeral.toSingle)

theorem ofChannelMembers?_eq_some_iff {p : Payload} :
    ofChannelMembers? members = some p ↔ ∃ r g b a, Spells (.object members) r g b a ∧ p = narrowed r g b a := by
  constructor
  · intro found
    obtain ⟨_, isRed, found⟩ := Option.bind_eq_some_iff.mp found
    obtain ⟨_, isGreen, found⟩ := Option.bind_eq_some_iff.mp found
    obtain ⟨_, isBlue, found⟩ := Option.bind_eq_some_iff.mp found
    obtain ⟨_, isAlpha, found⟩ := Option.bind_eq_some_iff.mp found
    obtain ⟨r, lastR, rfl⟩ := numberMember_iff.mp isRed
    obtain ⟨g, lastG, rfl⟩ := numberMember_iff.mp isGreen
    obtain ⟨b, lastB, rfl⟩ := numberMember_iff.mp isBlue
    obtain ⟨a, given, rfl⟩ := alphaMember_iff.mp isAlpha
    exact ⟨r, g, b, a, .members lastR lastG lastB given, (Option.some.inj found).symm⟩
  · rintro ⟨r, g, b, a, spelled, rfl⟩
    cases spelled with
    | members lastR lastG lastB given =>
      rw [ofChannelMembers?, numberMember_iff.mpr ⟨r, lastR, rfl⟩, numberMember_iff.mpr ⟨g, lastG, rfl⟩,
        numberMember_iff.mpr ⟨b, lastB, rfl⟩, alphaMember_iff.mpr ⟨a, given, rfl⟩]
      rfl

end

theorem exists_numerals {r g b : Json.Value} {rest : Number → Number → Number → Option Payload} {p : Payload}
    (found : ((number? r).bind fun red => (number? g).bind fun green => (number? b).bind (rest red green)) = some p) :
    ∃ red green blue : Json.Numeral, r = .number red ∧ g = .number green ∧ b = .number blue ∧
      rest red.toSingle green.toSingle blue.toSingle = some p := by
  obtain ⟨_, isRed, found⟩ := Option.bind_eq_some_iff.mp found
  obtain ⟨_, isGreen, found⟩ := Option.bind_eq_some_iff.mp found
  obtain ⟨_, isBlue, found⟩ := Option.bind_eq_some_iff.mp found
  obtain ⟨red, isR, rfl⟩ := number?_eq_some_iff.mp isRed
  obtain ⟨green, isG, rfl⟩ := number?_eq_some_iff.mp isGreen
  obtain ⟨blue, isB, rfl⟩ := number?_eq_some_iff.mp isBlue
  exact ⟨red, green, blue, isR, isG, isB, found⟩

theorem ofChannelItems?_eq_some_iff {items : List Json.Value} {p : Payload} :
    ofChannelItems? items = some p ↔ ∃ r g b a, Spells (.array items) r g b a ∧ p = narrowed r g b a := by
  constructor
  · intro found
    unfold ofChannelItems? at found
    split at found
    · obtain ⟨r, g, b, rfl, rfl, rfl, made⟩ := exists_numerals found
      exact ⟨_, _, _, none, .three r g b, (Option.some.inj made).symm⟩
    next last =>
      obtain ⟨r, g, b, rfl, rfl, rfl, made⟩ := exists_numerals found
      obtain ⟨alpha, isAlpha, made⟩ := Option.bind_eq_some_iff.mp made
      obtain rfl := Option.some.inj made
      cases last with
      | null =>
        cases isAlpha
        exact ⟨_, _, _, none, .null r g b, rfl⟩
      | number a =>
        cases isAlpha
        exact ⟨_, _, _, some a, .four r g b a, rfl⟩
      | _ => cases isAlpha
    · cases found
  · rintro ⟨_, _, _, _, spelled, rfl⟩
    cases spelled <;> rfl

/-! ## Wrapped documents -/

theorem ofMembers_eq_map (members : List (String × Json.Value)) :
    ofMembers members = members.map fun m => (m.1, ofJson? m.2) := by
  induction members with
  | nil => rfl
  | cons m rest ih => rw [ofMembers, ih, List.map_cons]

theorem ofItems_eq_map (items : List Json.Value) : ofItems items = items.map ofJson? := by
  induction items with
  | nil => rfl
  | cons v rest ih => rw [ofItems, ih, List.map_cons]

theorem lookup_mapValues {α β : Type} (f : α → β) (entries : List (String × α)) (key : String) :
    (entries.map fun e => (e.1, f e.2)).lookup key = (entries.lookup key).map f := by
  induction entries with
  | nil => rfl
  | cons e rest ih =>
    rw [List.map_cons, List.lookup_cons, List.lookup_cons, ih]
    cases key == e.1 <;> rfl

theorem member?_ofMembers (members : List (String × Json.Value)) (key : String) :
    Json.member? (ofMembers members) key = (Json.member? members key).map ofJson? := by
  rw [ofMembers_eq_map, Json.member?, ← List.map_reverse, lookup_mapValues]
  rfl

theorem document_of_ofJson? {v : Json.Value} {p : Payload} (described : ofJson? v = some p) : Document v := by
  cases v with
  | string text => exact .string text
  | array items => exact .array items
  | object members => exact .object members
  | _ => cases described

theorem ofWrappedMembers?_of_wraps {members : List (String × Json.Value)} {inner : Json.Value}
    (wraps : Wraps (.object members) inner) : ofWrappedMembers? (ofMembers members) = (ofJson? inner).map .wrapped := by
  cases wraps with
  | color last missing _ =>
    rw [ofWrappedMembers?, member?_ofMembers, member?_ofMembers, member?_eq_some_iff.mpr last,
      member?_eq_none_iff.mpr missing]
    rfl
  | value last missing _ =>
    rw [ofWrappedMembers?, member?_ofMembers, member?_ofMembers, member?_eq_some_iff.mpr last,
      member?_eq_none_iff.mpr missing]
    rfl

theorem wraps_of_ofWrappedMembers? {members : List (String × Json.Value)} {p : Payload}
    (found : ofWrappedMembers? (ofMembers members) = some p) : ∃ inner, Wraps (.object members) inner := by
  rw [ofWrappedMembers?, member?_ofMembers, member?_ofMembers] at found
  cases color : Json.member? members "color" with
  | none =>
    cases value : Json.member? members "value" with
    | none => rw [color, value] at found; cases found
    | some inner =>
      rw [color, value] at found
      obtain ⟨q, described, _⟩ := Option.map_eq_some_iff.mp found
      exact ⟨inner, .value (member?_eq_some_iff.mp value) (member?_eq_none_iff.mp color) (document_of_ofJson? described)⟩
  | some inner =>
    cases value : Json.member? members "value" with
    | none =>
      rw [color, value] at found
      obtain ⟨q, described, _⟩ := Option.map_eq_some_iff.mp found
      exact ⟨inner, .color (member?_eq_some_iff.mp color) (member?_eq_none_iff.mp value) (document_of_ofJson? described)⟩
    | some other => rw [color, value] at found; cases found

theorem wraps_of_ofWrappedItems? {items : List Json.Value} {p : Payload}
    (found : ofWrappedItems? (ofItems items) = some p) : ∃ inner, Wraps (.array items) inner := by
  rw [ofItems_eq_map] at found
  cases items with
  | nil => cases found
  | cons inner rest =>
    cases rest with
    | nil =>
      obtain ⟨q, described, _⟩ := Option.map_eq_some_iff.mp found
      exact ⟨inner, .item (document_of_ofJson? described)⟩
    | cons second more => cases found

/-! ## The reader, rule by rule -/

section
variable {v inner : Json.Value} {r g b : Json.Numeral} {a : Option Json.Numeral}

theorem ofJson?_of_spells (spelled : Spells v r g b a) : ofJson? v = some (narrowed r g b a) := by
  cases v with
  | object members =>
    rw [ofJson?, ofChannelMembers?_eq_some_iff.mpr ⟨_, _, _, _, spelled, rfl⟩]
    rfl
  | array items =>
    rw [ofJson?, ofChannelItems?_eq_some_iff.mpr ⟨_, _, _, _, spelled, rfl⟩]
    rfl
  | _ => cases spelled

theorem ofChannelMembers?_eq_none {members : List (String × Json.Value)}
    (plain : ∀ r g b a, ¬ Spells (.object members) r g b a) : ofChannelMembers? members = none := by
  rw [Option.eq_none_iff_forall_ne_some]
  intro p found
  obtain ⟨_, _, _, _, spelled, _⟩ := ofChannelMembers?_eq_some_iff.mp found
  exact plain _ _ _ _ spelled

theorem ofChannelItems?_eq_none {items : List Json.Value}
    (plain : ∀ r g b a, ¬ Spells (.array items) r g b a) : ofChannelItems? items = none := by
  rw [Option.eq_none_iff_forall_ne_some]
  intro p found
  obtain ⟨_, _, _, _, spelled, _⟩ := ofChannelItems?_eq_some_iff.mp found
  exact plain _ _ _ _ spelled

theorem ofJson?_of_wraps (plain : ∀ r g b a, ¬ Spells v r g b a) (wraps : Wraps v inner) :
    ofJson? v = (ofJson? inner).map .wrapped := by
  cases v with
  | object members =>
    rw [ofJson?, ofChannelMembers?_eq_none plain, ofWrappedMembers?_of_wraps wraps]
    rfl
  | array items =>
    cases wraps
    rw [ofJson?, ofChannelItems?_eq_none plain, ofItems_eq_map]
    rfl
  | _ => cases wraps

theorem ofJson?_of_neither (noText : ∀ text, v ≠ .string text) (plain : ∀ r g b a, ¬ Spells v r g b a)
    (closed : ∀ inner, ¬ Wraps v inner) : ofJson? v = none := by
  rw [Option.eq_none_iff_forall_ne_some]
  intro p found
  cases v with
  | string text => exact noText text rfl
  | object members =>
    rw [ofJson?, ofChannelMembers?_eq_none plain] at found
    obtain ⟨inner, wraps⟩ := wraps_of_ofWrappedMembers? found
    exact closed inner wraps
  | array items =>
    rw [ofJson?, ofChannelItems?_eq_none plain] at found
    obtain ⟨inner, wraps⟩ := wraps_of_ofWrappedItems? found
    exact closed inner wraps
  | _ => cases found

end

/-! ## Interpreting a body -/

/-- The result for a document that has been read. -/
def outcome (resolver : Resolver) (body : String) (v : Json.Value) : Except ColorError Color :=
  match ofJson? v with
  | some payload => payload.color resolver
  | none => .error (.invalidColor body)

theorem outcome_some {resolver : Resolver} {body : String} {v : Json.Value} {p : Payload}
    (described : ofJson? v = some p) : outcome resolver body v = p.color resolver := by
  rw [outcome, described]

theorem outcome_none {resolver : Resolver} {body : String} {v : Json.Value} (undescribed : ofJson? v = none) :
    outcome resolver body v = .error (.invalidColor body) := by
  rw [outcome, undescribed]

/-- A wrapper has the result of what it wraps, the body being the same. -/
theorem outcome_of_wraps {resolver : Resolver} {body : String} {v inner : Json.Value}
    (plain : ∀ r g b a, ¬ Spells v r g b a) (wraps : Wraps v inner) :
    outcome resolver body v = outcome resolver body inner := by
  have described := ofJson?_of_wraps plain wraps
  cases inside : ofJson? inner with
  | none =>
    rw [inside] at described
    rw [outcome_none described, outcome_none inside]
  | some p =>
    rw [inside] at described
    rw [outcome_some described, outcome_some inside, color]

theorem outcome_of_decodes {resolver : Resolver} {body : String} {v : Json.Value} {result : Except ColorError Color}
    (decodes : Decodes resolver body v result) : outcome resolver body v = result := by
  induction decodes with
  | string text => rfl
  | channels spelled red green blue alpha =>
    rw [outcome_some (ofJson?_of_spells spelled), Json.Numeral.gives_iff.mp red, Json.Numeral.gives_iff.mp green,
      Json.Numeral.gives_iff.mp blue, Json.Numeral.givesAlpha_iff.mp alpha]
    rfl
  | wrapped plain wraps _ ih => rw [outcome_of_wraps plain wraps, ih]
  | refused noText plain closed => exact outcome_none (ofJson?_of_neither noText plain closed)

theorem sizeOf_lt_of_wraps {v inner : Json.Value} (wraps : Wraps v inner) : sizeOf inner < sizeOf v := by
  have inMembers {members : List (String × Json.Value)} {key : String} (last : LastMember members key inner) :
      sizeOf inner < sizeOf (Json.Value.object members) := by
    obtain ⟨earlier, later, rfl, _⟩ := last
    have smaller : sizeOf (key, inner) < sizeOf (earlier ++ (key, inner) :: later) :=
      List.sizeOf_lt_of_mem (by simp)
    simp only [Prod.mk.sizeOf_spec, Json.Value.object.sizeOf_spec] at smaller ⊢
    omega
  cases wraps with
  | color last _ _ => exact inMembers last
  | value last _ _ => exact inMembers last
  | item _ =>
    simp only [Json.Value.array.sizeOf_spec, List.cons.sizeOf_spec]
    omega

/-- Every value has a result by the rules; a wrapped one is smaller than its wrapper. -/
theorem decodes_outcome (resolver : Resolver) (body : String) (v : Json.Value) :
    Decodes resolver body v (outcome resolver body v) := by
  by_cases text : ∃ text, v = .string text
  · obtain ⟨text, rfl⟩ := text
    exact .string text
  by_cases spelled : ∃ r g b a, Spells v r g b a
  · obtain ⟨r, g, b, a, spelled⟩ := spelled
    rw [outcome_some (ofJson?_of_spells spelled), narrowed, color]
    exact .channels spelled (.level r.narrows_toSingle) (.level g.narrows_toSingle) (.level b.narrows_toSingle)
      (Json.Numeral.givesAlpha_iff.mpr rfl)
  have plain : ∀ r g b a, ¬ Spells v r g b a := fun r g b a given => spelled ⟨r, g, b, a, given⟩
  by_cases wrapper : ∃ inner, Wraps v inner
  · obtain ⟨inner, wraps⟩ := wrapper
    rw [outcome_of_wraps plain wraps]
    have _smaller := sizeOf_lt_of_wraps wraps
    exact .wrapped plain wraps (decodes_outcome resolver body inner)
  · have noText : ∀ other, v ≠ .string other := fun other equal => text ⟨other, equal⟩
    have closed : ∀ inner, ¬ Wraps v inner := fun inner wraps => wrapper ⟨inner, wraps⟩
    rw [outcome_none (ofJson?_of_neither noText plain closed)]
    exact .refused noText plain closed
termination_by sizeOf v

theorem document?_eq_some {text : String} {v : Json.Value} (reads : Json.read? text = some v) (document : Document v) :
    document? text = some v := by
  cases document <;> rw [document?, reads]

theorem ne_empty_of_read? {text : String} {v : Json.Value} (reads : Json.read? text = some v) : text ≠ "" := by
  rintro rfl
  have nothing : Json.read? "" = none := rfl
  rw [nothing] at reads
  cases reads

theorem interpret_of_read? {url text : String} {resolver : Resolver} {v : Json.Value}
    (reads : Json.read? (Text.trim text) = some v) (document : Document v) :
    interpret url text resolver = outcome resolver (Text.trim text) v := by
  have some : (Text.trim text).isEmpty = false := by
    simpa using ne_empty_of_read? reads
  simp only [interpret, some, document?_eq_some reads document]
  rfl

/-- Main statement: a body that is a JSON document has the result that the rules give it, and no other. -/
theorem interpret_eq_iff_decodes (url text : String) (resolver : Resolver) (v : Json.Value)
    (reads : Json.read? (Text.trim text) = some v) (document : Document v) (result : Except ColorError Color) :
    interpret url text resolver = result ↔ Decodes resolver (Text.trim text) v result := by
  rw [interpret_of_read? reads document]
  constructor
  · rintro rfl
    exact decodes_outcome resolver (Text.trim text) v
  · exact outcome_of_decodes

/-- A red channel alone is no colour, so the wrapped channels count. They lie above the range, between two bytes and below
the range, and the alpha value is a half. -/
theorem interpret_wrapped_twice :
    Json.read? (Text.trim " \x7b\"color\": [[300, 12.5, -1e3, 0.5]], \"r\": 1\x7d ") =
        some (.object [("color", .array [.array [.number (.integer 300), .number (.real (double.round false 25 2)),
          .number (.real (double.round true 1000 1)), .number (.real (double.round false 1 2))]]),
          ("r", .number (.integer 1))]) ∧
      interpret "palette.json" " \x7b\"color\": [[300, 12.5, -1e3, 0.5]], \"r\": 1\x7d " {} = .ok ⟨255, 13, 0, 128⟩ := by
  have reads : Json.read? (Text.trim " \x7b\"color\": [[300, 12.5, -1e3, 0.5]], \"r\": 1\x7d ") =
      some (.object [("color", .array [.array [.number (.integer 300), .number (.real (double.round false 25 2)),
        .number (.real (double.round true 1000 1)), .number (.real (double.round false 1 2))]]),
        ("r", .number (.integer 1))]) := by with_unfolding_all rfl
  refine ⟨reads, (interpret_eq_iff_decodes _ _ _ _ reads (.object _) _).mpr ?_⟩
  have red : (Json.Numeral.integer 300).Gives 255 := Json.Numeral.gives_iff.mpr (by decide +kernel)
  have green : (Json.Numeral.real (double.round false 25 2)).Gives 13 := Json.Numeral.gives_iff.mpr (by decide +kernel)
  have blue : (Json.Numeral.real (double.round true 1000 1)).Gives 0 := Json.Numeral.gives_iff.mpr (by decide +kernel)
  have alpha : Json.Numeral.GivesAlpha (some (.real (double.round false 1 2))) 128 :=
    Json.Numeral.givesAlpha_iff.mpr (by decide +kernel)
  refine .wrapped ?_ (.color ⟨[], _, rfl, by decide⟩ (by simp [Missing]) (.array _)) ?_
  · intro r g b a spelled
    cases spelled with
    | members _ lastG _ _ => cases member?_eq_some_iff.mpr lastG
  · refine .wrapped ?_ (.item (.array _)) (.channels (.four _ _ _ _) red green blue alpha)
    rintro r g b a ⟨⟩

end Payload

end ColorResolution
