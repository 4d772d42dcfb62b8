import ColorResolution.Json.Reader
import ColorResolution.Json.Written

/-!
# Flat objects of strings

A text that has to be one object whose members all are strings is read with that expectation: the first thing that
breaks it is the fault reported, and it is reported where it was noticed. Members come in the order of the text, a
repeated key included.

Embedded is how `from_json` has `serde_json` read a map of strings.
-/
namespace ColorResolution.Json

/-- Reading a string takes at least its closing quote. -/
theorem readText_length {cs s rest : List Char} (h : readText cs = .ok (s, rest)) : rest.length < cs.length := by
  fun_induction readText cs generalizing s rest <;> simp_all [push] <;> grind

/-- The fault of a text that begins with a value of another kind than wanted. A container is not entered, so the fault
stands before it. -/
def kindFault (wanted : String) (cs : List Char) : Fault :=
  match cs with
  | '[' :: _ => .before (.wrongType (Value.array []).described wanted) cs
  | '\x7b' :: _ => .before (.wrongType (Value.object []).described wanted) cs
  | _ =>
    match readScalar cs with
    | .ok (v, rest) => .before (.wrongType v.described wanted) rest
    | .error f => f

/-- Takes the colon between a key and its value. -/
def readColon (cs : List Char) : Except Fault (List Char) :=
  match skipSpace cs with
  | [] => .error (.behind .endInObject [])
  | ':' :: rest => .ok rest
  | other => .error (.behind .expectedColon other)

/-- Reads the value of a member, which has to be a string. -/
def readStringValue (cs : List Char) : Except Fault (List Char × List Char) :=
  match skipSpace cs with
  | '"' :: rest => readText rest
  | other => .error (kindFault "a string" other)

/-- Reads a member from behind the opening quote of its key, and gives what follows. -/
def readEntry (cs : List Char) : Except Fault ((String × String) × List Char) :=
  match readText cs with
  | .error f => .error f
  | .ok (key, afterKey) =>
    match readColon afterKey with
    | .error f => .error f
    | .ok afterColon =>
      match readStringValue afterColon with
      | .error f => .error f
      | .ok (value, rest) => .ok ((String.ofList key, String.ofList value), rest)

theorem skipSpace_length (cs : List Char) : (skipSpace cs).length ≤ cs.length :=
  (List.dropWhile_sublist _).length_le

theorem readColon_length {cs rest : List Char} (h : readColon cs = .ok rest) : rest.length < cs.length := by
  have bound := skipSpace_length cs
  unfold readColon at h
  split at h
  · cases h
  · rename_i front
    cases h
    rw [front, List.length_cons] at bound
    omega
  · cases h

theorem readStringValue_length {cs s rest : List Char} (h : readStringValue cs = .ok (s, rest)) :
    rest.length < cs.length := by
  have bound := skipSpace_length cs
  unfold readStringValue at h
  split at h
  · rename_i front
    have taken := readText_length h
    rw [front, List.length_cons] at bound
    omega
  · cases h

/-- Reading a member takes something. -/
theorem readEntry_length {cs rest : List Char} {entry : String × String} (h : readEntry cs = .ok (entry, rest)) :
    rest.length < cs.length := by
  unfold readEntry at h
  split at h
  · cases h
  · rename_i hk
    split at h
    · cases h
    · rename_i hc
      split at h
      · cases h
      · rename_i hv
        cases h
        have key := readText_length hk
        have colon := readColon_length hc
        have value := readStringValue_length hv
        omega

/-- Reads members from where a key may stand up to the closing brace, and gives what follows. Before the first member,
and only there, the brace may come at once. -/
def readMembers (atStart : Bool) (cs : List Char) : Except Fault (List (String × String) × List Char) :=
  match _front : skipSpace cs with
  | [] => .error (.behind (if atStart then .endInObject else .endInValue) [])
  | '\x7d' :: rest => if atStart then .ok ([], rest) else .error (.behind .trailingComma ('\x7d' :: rest))
  | '"' :: rest =>
    match _taken : readEntry rest with
    | .error f => .error f
    | .ok (entry, afterEntry) =>
      match _next : skipSpace afterEntry with
      | [] => .error (.behind .endInObject [])
      | '\x7d' :: last => .ok ([entry], last)
      | ',' :: more =>
        match readMembers false more with
        | .ok (entries, last) => .ok (entry :: entries, last)
        | .error f => .error f
      | other => .error (.behind .expectedCommaOrBrace other)
  | other => .error (.behind .keyNotString other)
termination_by cs.length
decreasing_by
  have before := skipSpace_length cs
  have after := skipSpace_length afterEntry
  have entry := readEntry_length _taken
  rw [_front, List.length_cons] at before
  rw [_next, List.length_cons] at after
  omega

/-- Reads a whole text as an object of strings. -/
def readStrings (s : String) : Except Fault (List (String × String)) :=
  match skipSpace s.toList with
  | [] => .error (.behind .endInValue [])
  | '\x7b' :: rest =>
    match readMembers true rest with
    | .error f => .error f
    | .ok (members, last) =>
      if (skipSpace last).isEmpty then .ok members else .error (.behind .trailingText (skipSpace last))
  | other => .error (kindFault "a map" other)

end ColorResolution.Json
