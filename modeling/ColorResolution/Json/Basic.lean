import ColorResolution.Binary.Basic

/-!
# JSON values

A value as it was read: numbers keep whether they were integers, and the members of an object stand in the order of
the text, a repeated key included. Only the last member of a key counts when the object is asked for it.

Embedded are the values that `serde_json` tells apart for a `Payload`, and its numbers where `Channels` take them.
-/
namespace ColorResolution.Json

/-- A number: an integer of at most 64 bits, or a floating number of 64 bits. -/
inductive Numeral where
  | integer (n : Int)
  | real (x : Binary.Number)
  deriving DecidableEq, Repr

/-- The number in 32 bits, rounded once. -/
def Numeral.toSingle : Numeral → Binary.Number
  | .integer n => Binary.single.ofInt n
  | .real x => Binary.single.convert x

inductive Value where
  | null
  | boolean (b : Bool)
  | number (n : Numeral)
  | string (s : String)
  | array (items : List Value)
  | object (members : List (String × Value))

/-- The last member of a key. -/
def member? {α : Type} (members : List (String × α)) (key : String) : Option α := members.reverse.lookup key

end ColorResolution.Json
