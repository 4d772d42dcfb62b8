import ColorResolution.Matcher
import ColorResolution.Text.Quoted

/-!
# Resolving colour texts

A resolver takes the blanks off a text and tries the matchers in their order. Resolving has no effect but the questions
it asks the registry of design tokens, and these are part of what is said about it.

Embedded are `resolve`, `resolve_or` and `resolve_all` of a `ColorResolver`, and the text that it is debugged by.
-/
namespace ColorResolution

namespace Resolver

/-- What became of resolving a text: the answer, and the names that the registry was asked for. -/
structure Resolution where
  result : Except ColorError Color
  asked : List String

/-- Resolves a text between blanks. An empty text is refused at once; otherwise the matchers are tried in their order,
and a text that none of them wants is refused as well. -/
def resolution (r : Resolver) (s : String) : Resolution :=
  let text := Text.trim s
  if text.isEmpty then ⟨.error (.invalidColor text), []⟩
  else
    let found := Matcher.firstMatch r text Matcher.precedence
    ⟨found.answer.getD (.error (.invalidColor text)), found.asked⟩

def resolve (r : Resolver) (s : String) : Except ColorError Color := (r.resolution s).result

/-- The names that resolving a text asks the registry for. -/
def asked (r : Resolver) (s : String) : List String := (r.resolution s).asked

/-- The colour of a text, or another one if the text has none. -/
def resolveOr (r : Resolver) (s : String) (fallback : Color) : Color :=
  match r.resolve s with
  | .ok c => c
  | .error _ => fallback

/-- The one line by which a resolver is told apart in a log; its look-ups are not shown. -/
def described (r : Resolver) : String :=
  "ColorResolver \x7b config: ResolverConfig \x7b token_prefix: " ++ Text.quoteChar r.sigil ++
    ", allow_bare_hex: " ++ (if r.bareHex then "true" else "false") ++ " \x7d, .. \x7d"

def resolveAll (r : Resolver) (texts : List String) : List (Except ColorError Color) := texts.map r.resolve

end Resolver

end ColorResolution
