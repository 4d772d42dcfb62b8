import ColorResolution.Color.Basic
import ColorResolution.Text.Basic

/-!
# The palette of named colours

A name is looked up without regard to the case of ASCII letters or to blanks at its ends, and with or without the word
`color` after it: `Dark Gray` is unknown, `darkGrayColor` is dark grey.

Embedded is `SystemColors` with `named_color` and `system_color`, the palette of a resolver that is given no other
`NamedColors`.
-/
namespace ColorResolution.Palette

/-- The names of the palette, in small letters. -/
def entries : List (String × Color) := [
  ("white", .white), ("black", .black), ("red", .red), ("green", .green), ("blue", .blue), ("yellow", .yellow),
  ("gray", .gray), ("grey", .gray), ("clear", .transparent), ("transparent", .transparent),
  ("darkgray", .grey 85), ("darkgrey", .grey 85), ("lightgray", .grey 170), ("lightgrey", .grey 170),
  ("cyan", .rgb 0 255 255), ("magenta", .rgb 255 0 255), ("orange", .rgb 255 128 0), ("purple", .rgb 128 0 128),
  ("brown", .rgb 153 102 51), ("silver", .grey 192), ("maroon", .rgb 128 0 0), ("fuchsia", .rgb 255 0 255),
  ("lime", .rgb 0 255 0), ("olive", .rgb 128 128 0), ("navy", .rgb 0 0 128), ("teal", .rgb 0 128 128),
  ("aqua", .rgb 0 255 255)]

/-- The word that may follow a name. -/
def suffix : List Char := ['c', 'o', 'l', 'o', 'r']

/-- Drops the word once at the end, unless it is the whole name. -/
def dropSuffix (name : List Char) : List Char :=
  if suffix.isSuffixOf name && suffix.length < name.length then name.take (name.length - suffix.length) else name

/-- The form in which a name is looked up. -/
def key (name : String) : String :=
  String.ofList (dropSuffix ((Text.trim name).toList.map Char.toLower))

/-- The colour of a name of the palette. -/
def color? (name : String) : Option Color := entries.lookup (key name)

end ColorResolution.Palette
