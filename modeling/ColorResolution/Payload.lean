import ColorResolution.Json.Reader
import ColorResolution.Resolver

/-!
# Payloads

What a URL answers with describes a colour: as a plain text, or as a JSON string, object or array. An object or an
array may hold the channels themselves, or wrap another description. A number or a word of JSON is a plain text as
well, so that six digits stay hexadecimal.

Embedded are `interpret` and `from_payload`, and `Payload`, `Channels` and `Wrapped` with the rules by which they are
read from JSON.
-/
namespace ColorResolution

open Binary

/-- A description in JSON: a colour text, four channels of which alpha may be missing, or a wrapped description. -/
inductive Payload where
  | token (text : String)
  | channels (r g b : Number) (a : Option Number)
  | wrapped (inner : Payload)
  deriving DecidableEq, Repr

namespace Payload

/-- The number of 32 bits that a value is. -/
def number? : Json.Value → Option Number
  | .number n => some n.toSingle
  | _ => none

/-- A missing alpha value may also be written as null. -/
def alpha? : Option Json.Value → Option (Option Number)
  | none => some none
  | some .null => some none
  | some v => (number? v).map some

/-- The channels in the members `r`, `g`, `b` and `a`; other members do not matter. -/
def ofChannelMembers? (members : List (String × Json.Value)) : Option Payload := do
  let r ← (Json.member? members "r").bind number?
  let g ← (Json.member? members "g").bind number?
  let b ← (Json.member? members "b").bind number?
  let a ← alpha? (Json.member? members "a")
  pure (.channels r g b a)

/-- The channels in an array of three or four items. -/
def ofChannelItems? : List Json.Value → Option Payload
  | [r, g, b] => do pure (.channels (← number? r) (← number? g) (← number? b) none)
  | [r, g, b, a] => do pure (.channels (← number? r) (← number? g) (← number? b) (← alpha? (some a)))
  | _ => none

/-- The description wrapped by exactly one of the members `color` and `value`. -/
def ofWrappedMembers? (members : List (String × Option Payload)) : Option Payload :=
  match Json.member? members "color", Json.member? members "value" with
  | some inner, none => inner.map .wrapped
  | none, some inner => inner.map .wrapped
  | _, _ => none

/-- The description wrapped by an array of one item. -/
def ofWrappedItems? : List (Option Payload) → Option Payload
  | [inner] => inner.map .wrapped
  | _ => none

mutual

/-- The description that a value is. Channels are looked for before a wrapped description. -/
def ofJson? : Json.Value → Option Payload
  | .string text => some (.token text)
  | .object members => (ofChannelMembers? members).or (ofWrappedMembers? (ofMembers members))
  | .array items => (ofChannelItems? items).or (ofWrappedItems? (ofItems items))
  | _ => none

/-- The members of an object, each with the description that it is. -/
def ofMembers : List (String × Json.Value) → List (String × Option Payload)
  | [] => []
  | (key, value) :: rest => (key, ofJson? value) :: ofMembers rest

/-- The items of an array, each with the description that it is. -/
def ofItems : List Json.Value → List (Option Payload)
  | [] => []
  | value :: rest => ofJson? value :: ofItems rest

end

/-- The colour of a description. -/
def color (r : Resolver) : Payload → Except ColorError Color
  | .token text => r.resolve text
  | .channels red green blue alpha =>
    .ok ⟨Channel.ofLevel red, Channel.ofLevel green, Channel.ofLevel blue, alpha.elim 255 Channel.ofAlpha⟩
  | .wrapped inner => inner.color r

/-- The value of a text that is one JSON string, object or array. -/
def document? (text : String) : Option Json.Value :=
  match Json.read? text with
  | some (.string s) => some (.string s)
  | some (.array items) => some (.array items)
  | some (.object members) => some (.object members)
  | _ => none

/-- The colour that a URL's text describes. A blank text is an empty payload; a JSON document that is no description is
refused as a whole; a text that is no such document is resolved as it stands. -/
def interpret (url text : String) (r : Resolver) : Except ColorError Color :=
  let body := Text.trim text
  if body.isEmpty then .error (.fetch (.emptyPayload url))
  else
    match document? body with
    | none => r.resolve body
    | some value =>
      match ofJson? value with
      | some payload => payload.color r
      | none => .error (.invalidColor body)

/-- The colour of a URL whose fetch has ended. -/
def ofFetched (r : Resolver) (url : String) : Except FetchError String → Except ColorError Color
  | .ok text => interpret url text r
  | .error cause => .error (.fetch cause)

end Payload

end ColorResolution
