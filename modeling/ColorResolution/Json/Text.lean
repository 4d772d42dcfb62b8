import ColorResolution.Color.Hex
import ColorResolution.Json.Fault

/-!
# JSON strings

A string ends at its quote. Inside, a backslash begins an escape, and characters below the blank are refused. An escape
of four hexadecimal digits names a unit of 16 bits; a leading surrogate has to be followed at once by the escape of
a trailing one.

Embedded is how `serde_json` reads a string.
-/
namespace ColorResolution.Json

/-- The character that a letter after a backslash stands for. -/
def letterEscape? (c : Char) : Option Char :=
  match c with
  | '"' => some '"'
  | '\\' => some '\\'
  | '/' => some '/'
  | 'b' => some '\x08'
  | 'f' => some '\x0c'
  | 'n' => some '\n'
  | 'r' => some '\r'
  | 't' => some '\t'
  | _ => none

/-- The value of four hexadecimal digits. -/
def unit? (a b c d : Char) : Option Nat :=
  if [a, b, c, d].all Hex.isDigit then
    some (((Hex.digitValue a * 16 + Hex.digitValue b) * 16 + Hex.digitValue c) * 16 + Hex.digitValue d)
  else none

def isLeading (u : Nat) : Bool := 0xD800 ≤ u && u ≤ 0xDBFF

def isTrailing (u : Nat) : Bool := 0xDC00 ≤ u && u ≤ 0xDFFF

/-- The character of a leading and a trailing surrogate. -/
def pairChar (leading trailing : Nat) : Char :=
  Char.ofNat (0x10000 + (leading - 0xD800) * 0x400 + (trailing - 0xDC00))

/-- The fault of a text that should begin with four hexadecimal digits: the four bytes are taken before they are looked
at. -/
def digitsFault (rest : List Char) : Fault :=
  if byteCount rest < 4 then ⟨.endInString, 0⟩ else ⟨.invalidEscape, byteCount rest - 4⟩

/-- Puts a character in front of a string that was read. -/
def push (c : Char) : Except Fault (List Char × List Char) → Except Fault (List Char × List Char)
  | .ok (cs, rest) => .ok (c :: cs, rest)
  | .error f => .error f

/-- Reads a string from behind its opening quote up to its closing one, and gives what follows. -/
def readText : List Char → Except Fault (List Char × List Char)
  | [] => .error ⟨.endInString, 0⟩
  | '"' :: rest => .ok ([], rest)
  | ['\\'] => .error ⟨.endInString, 0⟩
  | '\\' :: 'u' :: a :: b :: c :: d :: rest =>
    match unit? a b c d with
    | none => .error (digitsFault (a :: b :: c :: d :: rest))
    | some u =>
      if isTrailing u then .error (.before .loneSurrogate rest)
      else if isLeading u then
        match rest with
        | '\\' :: 'u' :: a' :: b' :: c' :: d' :: more =>
          match unit? a' b' c' d' with
          | none => .error (digitsFault (a' :: b' :: c' :: d' :: more))
          | some v =>
            if isTrailing v then push (pairChar u v) (readText more) else .error (.before .loneSurrogate more)
        | '\\' :: 'u' :: more => .error (digitsFault more)
        | '\\' :: more => if more.isEmpty then .error ⟨.endInString, 0⟩ else .error (.behind .endOfHexEscape more)
        | more => if more.isEmpty then .error ⟨.endInString, 0⟩ else .error (.behind .endOfHexEscape more)
      else push (Char.ofNat u) (readText rest)
  | '\\' :: 'u' :: rest => .error (digitsFault rest)
  | '\\' :: c :: rest =>
    match letterEscape? c with
    | some d => push d (readText rest)
    | none => .error (.behind .invalidEscape (c :: rest))
  | c :: rest =>
    if c.toNat < 0x20 then .error (.before .controlCharacter rest) else push c (readText rest)

end ColorResolution.Json
