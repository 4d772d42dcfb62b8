import ColorResolution.Text.Invisible

/-!
# Quoted texts

A text or a character between quotes, as messages show it. The quote that closes it and the backslash are written after
a backslash, the common controls by a letter, and every other character without a shape of its own by its number.

So a `ColorResolver` shows its prefix when it is debugged, and `serde_json` a string that it did not expect.
-/
namespace ColorResolution.Text

/-- The digits of a code point, in base sixteen and small letters. -/
def codePoint (c : Char) : List Char := Nat.toDigits 16 c.toNat

/-- A character as it stands between two of the given quotes. -/
def escape (quote : Char) (c : Char) : List Char :=
  if c = '\x00' then ['\\', '0']
  else if c = '\t' then ['\\', 't']
  else if c = '\r' then ['\\', 'r']
  else if c = '\n' then ['\\', 'n']
  else if c = '\\' || c = quote then ['\\', c]
  else if isInvisible c then ['\\', 'u', '\x7b'] ++ codePoint c ++ ['\x7d']
  else [c]

/-- A text between double quotes. -/
def quote (s : String) : String := String.ofList ('"' :: (s.toList.flatMap (escape '"') ++ ['"']))

/-- A character between single quotes. -/
def quoteChar (c : Char) : String := String.ofList ('\'' :: (escape '\'' c ++ ['\'']))

example : quote "it's \"it\"\n" = "\"it's \\\"it\\\"\\n\"" := by decide +kernel

example : quoteChar (Char.ofNat 0x301) = "'\\u\x7b301\x7d'" := by decide +kernel

end ColorResolution.Text
