import ColorResolution.Json.Numeral
import ColorResolution.Json.Text

/-!
# Reading JSON texts

A document is one value between blanks. Containers may be nested to a depth of 127, which is also what the recursion
goes by; the items of one container are read one after another by a loop that needs each item to take something.

Embedded is how `interpret` has `serde_json` read a document.
-/
namespace ColorResolution.Json

/-- The blanks of the format. -/
def isSpace (c : Char) : Bool := c == ' ' || c == '\t' || c == '\n' || c == '\r'

def skipSpace (cs : List Char) : List Char := cs.dropWhile isSpace

/-- Takes the rest of a word. -/
def readWord : List Char → List Char → Except Fault (List Char)
  | [], rest => .ok rest
  | _ :: _, [] => .error ⟨.endInValue, 0⟩
  | w :: word, c :: rest => if c = w then readWord word rest else .error (.behind .expectedWord (c :: rest))

/-- Reads one of the three words, by its first letter. -/
def readLiteral? (c : Char) (rest : List Char) : Option (Except Fault (Value × List Char)) :=
  match c with
  | 'n' => some ((readWord ['u', 'l', 'l'] rest).map fun more => (.null, more))
  | 't' => some ((readWord ['r', 'u', 'e'] rest).map fun more => (.boolean true, more))
  | 'f' => some ((readWord ['a', 'l', 's', 'e'] rest).map fun more => (.boolean false, more))
  | _ => none

/-- Reads the value without parts at the front of a text: a word, a number or a string. -/
def readScalar (cs : List Char) : Except Fault (Value × List Char) :=
  match cs with
  | [] => .error (.behind .endInValue [])
  | c :: rest =>
    if c = '"' then (readText rest).map fun (s, more) => (.string (String.ofList s), more)
    else if c = '-' || c.isDigit then (readNumeral cs).map fun (n, more) => (.number n, more)
    else (readLiteral? c rest).getD (.error (.behind .expectedValue cs))

/-- Reads items separated by commas up to a closing character, at least one of them. -/
def readItems {α : Type} (item : List Char → Option (α × List Char)) (close : Char) (cs : List Char) :
    Option (List α × List Char) :=
  match item cs with
  | none => none
  | some (x, rest) =>
    match skipSpace rest with
    | [] => none
    | c :: more =>
      if c = close then some ([x], more)
      else if c = ',' && more.length < cs.length then
        (readItems item close more).map fun (xs, last) => (x :: xs, last)
      else none
termination_by cs.length
decreasing_by simp_all

/-- Reads the items of a container from behind its opening character, if there are any. -/
def readContainer {α : Type} (item : List Char → Option (α × List Char)) (close : Char) (cs : List Char) :
    Option (List α × List Char) :=
  match skipSpace cs with
  | [] => none
  | c :: rest => if c = close then some ([], rest) else readItems item close (c :: rest)

/-- Reads a key, a colon and a value. -/
def readMember (value : List Char → Option (Value × List Char)) (cs : List Char) :
    Option ((String × Value) × List Char) :=
  match skipSpace cs with
  | '"' :: rest =>
    match readText rest with
    | .error _ => none
    | .ok (key, more) =>
      match skipSpace more with
      | ':' :: last => (value last).map fun (v, next) => ((String.ofList key, v), next)
      | _ => none
  | _ => none

/-- Reads the value at the front of a text, its containers nested at most `depth` deep. -/
def readValue : Nat → List Char → Option (Value × List Char)
  | depth, cs =>
    match skipSpace cs with
    | '[' :: rest =>
      match depth with
      | 0 => none
      | inner + 1 => (readContainer (readValue inner) ']' rest).map fun (items, more) => (.array items, more)
    | '\x7b' :: rest =>
      match depth with
      | 0 => none
      | inner + 1 =>
        (readContainer (readMember (readValue inner)) '\x7d' rest).map fun (members, more) => (.object members, more)
    | text => (readScalar text).toOption

/-- How deep containers may be nested. -/
def maxDepth : Nat := 127

/-- Reads a whole text as one value. -/
def read? (s : String) : Option Value :=
  match readValue maxDepth s.toList with
  | some (v, rest) => if (skipSpace rest).isEmpty then some v else none
  | none => none

end ColorResolution.Json
