/-!
# Faults of JSON texts

What is wrong with a text that is not the JSON wanted, and where. A fault keeps its place as the number of bytes of
the text that were still unread; the place is shown as a line and a column, the column counting bytes.

Embedded are the faults of `serde_json` that a `RegistryLoadError` shows.
-/
namespace ColorResolution.Json

/-- What is wrong. -/
inductive Cause where
  | endInValue
  | endInString
  | endInObject
  | expectedColon
  | expectedCommaOrBrace
  | expectedWord
  | expectedValue
  | invalidEscape
  | invalidNumber
  | numberOutOfRange
  | loneSurrogate
  | endOfHexEscape
  | controlCharacter
  | keyNotString
  | trailingComma
  | trailingText
  | wrongType (found wanted : String)
  deriving DecidableEq, Repr

def Cause.message : Cause → String
  | .endInValue => "EOF while parsing a value"
  | .endInString => "EOF while parsing a string"
  | .endInObject => "EOF while parsing an object"
  | .expectedColon => "expected `:`"
  | .expectedCommaOrBrace => "expected `,` or `\x7d`"
  | .expectedWord => "expected ident"
  | .expectedValue => "expected value"
  | .invalidEscape => "invalid escape"
  | .invalidNumber => "invalid number"
  | .numberOutOfRange => "number out of range"
  | .loneSurrogate => "lone leading surrogate in hex escape"
  | .endOfHexEscape => "unexpected end of hex escape"
  | .controlCharacter => "control character (\\u0000-\\u001F) found while parsing a string"
  | .keyNotString => "key must be a string"
  | .trailingComma => "trailing comma"
  | .trailingText => "trailing characters"
  | .wrongType found wanted => s!"invalid type: {found}, expected {wanted}"

/-- A cause, and the number of bytes of the text that were unread when it was noticed. -/
structure Fault where
  cause : Cause
  unread : Nat
  deriving DecidableEq, Repr

/-- The number of bytes that a text takes. -/
def byteCount (cs : List Char) : Nat := cs.foldl (fun n c => n + c.utf8Size) 0

/-- A fault at the front of what is left of a text. -/
def Fault.before (cause : Cause) (rest : List Char) : Fault := ⟨cause, byteCount rest⟩

/-- A fault just after the next byte of what is left of a text, or at its end. -/
def Fault.behind (cause : Cause) (rest : List Char) : Fault := ⟨cause, byteCount rest - 1⟩

/-- The line and the column of a place, given in bytes from a place in the given line and column. -/
def position (line column : Nat) : List Char → Nat → Nat × Nat
  | [], _ => (line, column)
  | c :: cs, offset =>
    if offset < c.utf8Size then (line, column + offset)
    else if c = '\n' then position (line + 1) 0 cs (offset - 1)
    else position line (column + c.utf8Size) cs (offset - c.utf8Size)

/-- The sentence that reports a fault of a text. -/
def Fault.message (text : List Char) (f : Fault) : String :=
  let (line, column) := position 1 0 text (byteCount text - f.unread)
  s!"{f.cause.message} at line {line} column {column}"

end ColorResolution.Json
