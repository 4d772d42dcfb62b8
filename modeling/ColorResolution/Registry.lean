import ColorResolution.Json.Members
import ColorResolution.Resolver
import ColorResolution.Table

/-!
# Registries of design tokens

A registry maps names to colours. It is loaded from a JSON object of strings, each of which has to be a colour text
without design tokens; of a repeated name only the last text counts.

Embedded are `StaticTokenRegistry` with `from_json`, its `lookup` as a `TokenRegistry`, and `RegistryLoadError`.
-/
namespace ColorResolution

abbrev Registry := Table Color

namespace Registry

/-- Why a text is no registry: it is not an object of strings, or the text of a name is no colour. -/
inductive LoadError where
  | malformed (message : String)
  | invalidEntry (name : String) (cause : ColorError)
  deriving DecidableEq, Repr

def LoadError.message : LoadError → String
  | .malformed text => s!"token registry JSON is malformed: {text}"
  | .invalidEntry name cause => s!"token `{name}` has an invalid value: {cause.message}"

/-- The resolver for the texts of a registry: it knows no design tokens. -/
def entryResolver : Resolver := {}

/-- Resolves entries one after another. -/
def ofTexts : Registry → List (String × String) → Except LoadError Registry
  | colours, [] => .ok colours
  | colours, (name, text) :: rest =>
    match entryResolver.resolve text with
    | .ok c => ofTexts (colours.insert name c) rest
    | .error cause => .error (.invalidEntry name cause)

/-- Loads a registry. -/
def load (text : String) : Except LoadError Registry :=
  match Json.readStrings text with
  | .error f => .error (.malformed (f.message text.toList))
  | .ok members => ofTexts Table.empty (Table.ofList members).entries

end Registry

/-- The resolver with the usual configuration and a registry. -/
def Resolver.withRegistry (tokens : Registry) : Resolver := { tokens := tokens.get? }

end ColorResolution
