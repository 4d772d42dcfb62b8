import ColorResolution.Fetch.Basic
import ColorResolution.Payload
import ColorResolution.Registry
import ColorResolution.Source

/-!
# Listings

A listing shows a line for every input: the input and its colour, or the input and what is wrong with it. Inputs that
are texts come first, URLs after them in their order, and then the number of the URLs, if there are any.

Embedded is what `resolve_colors` prints.
-/
namespace ColorResolution.Listing

/-- The design tokens of a listing. -/
def tokens : Registry :=
  Table.ofList [("brand.primary", Color.rgb 255 85 0), ("surface.overlay", ⟨0, 0, 0, 102⟩)]

/-- The inputs of a listing for which none are given. -/
def samples : List String := ["#3498db", "#F00", "rgba(255, 0, 0, 0.5)", "$brand.primary", "orange", "nope!!"]

def resolver : Resolver := .withRegistry tokens

/-- The least width of an input in its line. -/
def width : Nat := 24

/-- A text filled up with blanks. -/
def pad (s : String) : String := String.ofList (s.toList ++ List.replicate (width - s.toList.length) ' ')

def line (label : String) : Except ColorError Color → String
  | .ok c => pad label ++ " -> " ++ c.toHex
  | .error e => pad label ++ " !! " ++ e.message

/-- The line of a text; a URL gets its line later. -/
def tokenLine? : Source → Option String
  | .token text => some (line text (resolver.resolve text))
  | .url _ => none

def url? : Source → Option String
  | .token _ => none
  | .url url => some url

/-- The lines for a list of inputs. -/
def lines (fetch : String → Except FetchError String) (inputs : List String) : List String :=
  let sources := (if inputs.isEmpty then samples else inputs).map Source.classify
  let urls := sources.filterMap url?
  sources.filterMap tokenLine? ++ urls.map (fun url => line url (Payload.ofFetched resolver url (fetch url))) ++
    if urls.isEmpty then [] else [s!"{urls.length} URL(s) resolved"]

/-- The URLs that a listing fetches. -/
def urls (inputs : List String) : List String := (inputs.map Source.classify).filterMap url?

end ColorResolution.Listing
