import ColorResolution.Color.Hex
import ColorResolution.Functional.Basic
import ColorResolution.Palette

/-!
# Matchers

A matcher is responsible for the texts of one shape and leaves all others to the next matcher. A list of matchers is
tried in order, and the first that is responsible decides the answer, an error included. Besides its answer a matcher
reports the names that it asked the registry of design tokens for. A design token is the sigil of the configuration
followed by a name of letters, digits, points, underscores and hyphens, all of ASCII.

Embedded are `match_hex`, `match_token` with `token_name`, `match_name` with `is_identifier`, `PRECEDENCE`, `try_match`
and `first_match`.
-/
namespace ColorResolution

/-- The four shapes of a colour text. -/
inductive Matcher where
  | hex
  | functional
  | designToken
  | named
  deriving DecidableEq, Repr

/-- What the matchers depend on: the sigil of design tokens, whether hexadecimal digits may stand without their mark,
and the two look-ups. -/
structure Resolver where
  sigil : Char := '$'
  bareHex : Bool := true
  tokens : String → Option Color := fun _ => none
  names : String → Option Color := Palette.color?

/-- What became of trying a text: no answer where no matcher was responsible, and the names asked for on the way. -/
structure Attempt where
  answer : Option (Except ColorError Color)
  asked : List String

namespace DesignToken

/-- Whether a character may stand in a token's name. -/
def isNameChar (c : Char) : Bool := c.isAlphanum || c == '-' || c == '_' || c == '.'

/-- The name in a text of the shape of a design token. -/
def name? (sigil : Char) (s : String) : Option String :=
  match s.toList with
  | [] => none
  | c :: name => if c = sigil && !name.isEmpty && name.all isNameChar then some (String.ofList name) else none

end DesignToken

namespace Matcher

/-- The order in which a resolver tries the matchers. -/
def precedence : List Matcher := [.hex, .functional, .designToken, .named]

/-- Whether a text is made of letters, digits, hyphens and underscores, all of ASCII, and not empty. -/
def isIdentifier (s : String) : Bool :=
  !s.toList.isEmpty && s.toList.all fun c => c.isAlphanum || c == '-' || c == '_'

/-- A text with the mark is read as hexadecimal, whatever follows the mark; one without it only if that is allowed and
it is nothing but the right number of digits. -/
def matchHex (bareHex : Bool) (s : String) : Option (Except ColorError Color) :=
  if s.toList.head? = some '#' then some (Hex.parse s)
  else if bareHex then (Hex.decode? s.toList).map .ok
  else none

/-- A text of the shape of a design token is its registered colour, or an error if the registry lacks the name. -/
def matchToken (r : Resolver) (s : String) : Attempt :=
  match DesignToken.name? r.sigil s with
  | none => ⟨none, []⟩
  | some name =>
    match r.tokens name with
    | some c => ⟨some (.ok c), [name]⟩
    | none => ⟨some (.error (.unresolvedToken s)), [name]⟩

/-- Every text is a name, known or not. -/
def matchName (r : Resolver) (s : String) : Except ColorError Color :=
  match r.names s with
  | some c => .ok c
  | none => if isIdentifier s then .error (.unknownName s) else .error (.invalidColor s)

/-- Tries one matcher on a text as it is. -/
def attempt (r : Resolver) (s : String) : Matcher → Attempt
  | .hex => ⟨matchHex r.bareHex s, []⟩
  | .functional => ⟨Functional.parse? s, []⟩
  | .designToken => matchToken r s
  | .named => ⟨some (matchName r s), []⟩

/-- Tries matchers in order up to the first with an answer. -/
def firstMatch (r : Resolver) (s : String) : List Matcher → Attempt
  | [] => ⟨none, []⟩
  | m :: rest =>
    let first := attempt r s m
    match first.answer with
    | some _ => first
    | none =>
      let later := firstMatch r s rest
      ⟨later.answer, first.asked ++ later.asked⟩

end Matcher

end ColorResolution
