import ColorResolution.Text.Basic

/-!
# Sources of a colour

A colour is asked for by a text or by the URL of something that describes it. Which of the two an input is depends only
on how it begins.

Embedded is `ColorSource` with `classify`.
-/
namespace ColorResolution

/-- Where a colour is to come from. -/
inductive Source where
  | token (text : String)
  | url (text : String)
  deriving DecidableEq, Repr

namespace Source

/-- The beginnings of a URL, in small letters. -/
def urlStarts : List String := ["http://", "https://", "file://"]

/-- Whether a text begins like a URL, in letters of either case. -/
def startsAsUrl (text : List Char) : Bool :=
  urlStarts.any fun start => start.toList.isPrefixOf (text.map Char.toLower)

/-- An input without the blanks at its ends, as a URL or as a colour text. -/
def classify (input : String) : Source :=
  let text := Text.trim input
  if startsAsUrl text.toList then .url text else .token text

/-- The input that a source stands for. -/
def text : Source → String
  | .token text => text
  | .url text => text

end Source

end ColorResolution
