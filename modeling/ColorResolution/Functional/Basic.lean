import ColorResolution.Color.Channel
import ColorResolution.Error
import ColorResolution.Functional.Numeral
import ColorResolution.Text.Basic

/-!
# Functional notation

`rgb(…)` and `rgba(…)`, whose names are read in either case, hold three or four components separated by commas. A
component is a numeral, with a percent sign directly after it or not, between blanks and comments. Only the shape
before the first bracket and the closing bracket at the end decide whether a text is of this notation; whether it then
gives a colour is a second question.

Embedded are `match_functional` with `functional_body`, `parse_components` and `parse_component`, and `Component` with
its `channel` and `alpha`.
-/
namespace ColorResolution.Functional

open Binary

/-- The blanks of the notation. -/
def isSpace (c : Char) : Bool := c == ' ' || c == '\t' || c == '\n' || c == '\x0c' || c == '\r'

/-- The text with a blank in place of every comment; the first argument tells whether the text begins inside a
comment. A comment that is never closed reaches to the end. -/
def uncomment : Bool → List Char → List Char
  | _, [] => []
  | false, '/' :: '*' :: cs => ' ' :: uncomment true cs
  | false, c :: cs => c :: uncomment false cs
  | true, '*' :: '/' :: cs => uncomment false cs
  | true, _ :: cs => uncomment true cs

/-- The pieces between the commas, one more than there are commas. -/
def pieces : List Char → List (List Char)
  | [] => [[]]
  | c :: cs =>
    if c = ',' then [] :: pieces cs
    else
      match pieces cs with
      | [] => [[c]]
      | piece :: rest => (c :: piece) :: rest

/-- A component, as a number of 32 bits; a percentage is kept as its share. -/
inductive Component where
  | number (value : Number)
  | percentage (share : Number)
  deriving DecidableEq, Repr

namespace Component

/-- Reads a whole piece as one component. -/
def read? (piece : List Char) : Option Component :=
  match Numeral.read? (Text.dropEnds isSpace piece) with
  | some (n, []) => some (.number (single.convert n.value))
  | some (n, ['%']) => some (.percentage (single.convert (double.div n.value (double.ofNat 100))))
  | _ => none

/-- The byte of a red, green or blue component. -/
def channel : Component → UInt8
  | .number value => Channel.ofLevel value
  | .percentage share => Channel.ofShare share

/-- The byte of an alpha component. -/
def alpha : Component → UInt8
  | .number value => Channel.ofAlpha value
  | .percentage share => Channel.ofShare share

end Component

/-- The colour of a list of components, if there are three or four. -/
def ofComponents? : List Component → Option Color
  | [r, g, b] => some (Color.rgb r.channel g.channel b.channel)
  | [r, g, b, a] => some ⟨r.channel, g.channel, b.channel, a.alpha⟩
  | _ => none

/-- The colour that the text between the brackets describes. -/
def decode? (body : List Char) : Option Color :=
  ((pieces (uncomment false body)).mapM Component.read?).bind ofComponents?

def isName (cs : List Char) : Bool :=
  let name := cs.map Char.toLower
  name == ['r', 'g', 'b'] || name == ['r', 'g', 'b', 'a']

/-- The text between the first opening bracket and a closing bracket at the end, if the notation's name stands before
it. -/
def body? (cs : List Char) : Option (List Char) :=
  match cs.dropWhile (· != '(') with
  | [] => none
  | _ :: rest =>
    if isName (cs.takeWhile (· != '(')) && rest.getLast? == some ')' then some rest.dropLast else none

/-- Reads a text of the notation; `none` for any other text. -/
def parse? (s : String) : Option (Except ColorError Color) :=
  (body? s.toList).map fun body =>
    match decode? body with
    | some c => .ok c
    | none => .error (.invalidColor s)

end ColorResolution.Functional
