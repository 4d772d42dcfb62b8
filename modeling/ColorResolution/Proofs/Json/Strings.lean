import ColorResolution.Json.Members
import ColorResolution.Proofs.Payload.PlainText

/-!
# Objects of strings

An object whose members all are strings is read by two readers: the one of values, which takes whatever is written, and
the one that reports the first thing it does not expect. Main statement: where the first reads an object of strings, the
second reads the same members, in the same order.
-/
namespace ColorResolution.Json

/-- The members of an object of strings. -/
def ofStrings (pairs : List (String × String)) : List (String × Value) := pairs.map fun p => (p.1, .string p.2)

section
variable {depth : Nat} {cs next rest : List Char} {c : Char}

/-- A document without parts is a string. -/
theorem text_of_readScalar {v : Value} (reads : readScalar cs = .ok (v, next)) (document : Payload.Document v) :
    ∃ inner s, cs = '"' :: inner ∧ readText inner = .ok (s, next) ∧ v = .string (String.ofList s) := by
  cases cs with
  | nil => cases reads
  | cons c inner =>
    by_cases quote : c = '"'
    · subst quote
      rw [readScalar, if_pos rfl] at reads
      cases taken : readText inner with
      | error fault => simp [taken, Except.map] at reads
      | ok found =>
        obtain ⟨s, more⟩ := found
        simp only [taken, Except.map, Except.ok.injEq, Prod.mk.injEq] at reads
        obtain ⟨rfl, rfl⟩ := reads
        exact ⟨inner, s, rfl, taken, rfl⟩
    · exact absurd document (Payload.not_document_of_readScalar quote reads)

theorem text_of_readValue {text : String} (reads : readValue depth cs = some (.string text, next)) :
    ∃ inner s, skipSpace cs = '"' :: inner ∧ readText inner = .ok (s, next) ∧ text = String.ofList s := by
  unfold readValue at reads
  split at reads
  · split at reads
    · cases reads
    · simp at reads
  · split at reads
    · cases reads
    · simp at reads
  next scalar _ _ =>
    cases outcome : readScalar (skipSpace cs) with
    | error fault => simp [outcome, Except.toOption] at reads
    | ok found =>
      rw [outcome] at reads
      obtain rfl := Option.some.inj reads
      obtain ⟨inner, s, split, taken, same⟩ := text_of_readScalar outcome (.string text)
      exact ⟨inner, s, split, taken, Value.string.inj same⟩

theorem container_of_readValue {members : List (String × Value)}
    (reads : readValue depth cs = some (.object members, next)) :
    ∃ inside inner, skipSpace cs = '\x7b' :: inside ∧
      readContainer (readMember (readValue inner)) '\x7d' inside = some (members, next) := by
  unfold readValue at reads
  split at reads
  · split at reads
    · cases reads
    · simp at reads
  next inside opens =>
    split at reads
    · cases reads
    next inner =>
      obtain ⟨⟨found, more⟩, contained, same⟩ := Option.map_eq_some_iff.mp reads
      cases same
      exact ⟨inside, inner, opens, contained⟩
  next scalar _ _ =>
    cases outcome : readScalar (skipSpace cs) with
    | error fault => simp [outcome, Except.toOption] at reads
    | ok found =>
      rw [outcome] at reads
      obtain rfl := Option.some.inj reads
      obtain ⟨_, _, _, _, same⟩ := text_of_readScalar outcome (.object members)
      cases same

/-! ## Members -/

theorem readEntry_of_readMember {key text : String}
    (reads : readMember (readValue depth) cs = some ((key, .string text), rest)) :
    ∃ inside, skipSpace cs = '"' :: inside ∧ readEntry inside = .ok ((key, text), rest) := by
  unfold readMember at reads
  split at reads
  next inside front =>
    split at reads
    · cases reads
    next name more named =>
      split at reads
      next last colon =>
        obtain ⟨⟨value, stop⟩, valued, same⟩ := Option.map_eq_some_iff.mp reads
        cases same
        obtain ⟨inner, chars, split, taken, rfl⟩ := text_of_readValue valued
        have colonRead : readColon more = .ok last := by simp only [readColon, colon]
        have textRead : readStringValue last = .ok (chars, rest) := by simp only [readStringValue, split, taken]
        exact ⟨inside, front, by simp [readEntry, named, colonRead, textRead]⟩
      · cases reads
  · cases reads

section
variable {inside more : List Char} {entry : String × String} {entries : List (String × String)} (atStart : Bool)

theorem readMembers_last (front : skipSpace cs = '"' :: inside) (read : readEntry inside = .ok (entry, rest))
    (closes : skipSpace rest = '\x7d' :: next) : readMembers atStart cs = .ok ([entry], next) := by
  grind [readMembers]

theorem readMembers_more (front : skipSpace cs = '"' :: inside) (read : readEntry inside = .ok (entry, rest))
    (comma : skipSpace rest = ',' :: more) (later : readMembers false more = .ok (entries, next)) :
    readMembers atStart cs = .ok (entry :: entries, next) := by
  grind [readMembers]

theorem readMembers_empty (closes : skipSpace cs = '\x7d' :: next) : readMembers true cs = .ok ([], next) := by
  grind [readMembers]

end

/-- Members that all are strings are read alike, each from where the one before it ended. -/
theorem readMembers_of_readItems {pairs : List (String × String)}
    (reads : readItems (readMember (readValue depth)) '\x7d' cs = some (ofStrings pairs, next)) (atStart : Bool)
    {other : List Char} (alike : skipSpace other = skipSpace cs) : readMembers atStart other = .ok (pairs, next) := by
  fun_induction readItems (readMember (readValue depth)) '\x7d' cs generalizing pairs atStart other with
  | case1 cs unread => cases reads
  | case2 cs m rest first follows => cases reads
  | case3 cs m rest first more follows =>
    obtain ⟨same, rfl⟩ := Prod.mk.inj (Option.some.inj reads)
    obtain ⟨p, rfl, rfl⟩ := List.map_eq_singleton_iff.mp same.symm
    obtain ⟨inside, front, entry⟩ := readEntry_of_readMember first
    exact readMembers_last atStart (alike.trans front) entry follows
  | case4 cs m rest first c more follows _ comma ih =>
    obtain ⟨⟨found, last⟩, later, whole⟩ := Option.map_eq_some_iff.mp reads
    obtain ⟨same, rfl⟩ := Prod.mk.inj whole
    obtain ⟨p, others, rfl, rfl, rfl⟩ := List.map_eq_cons_iff.mp same.symm
    obtain ⟨inside, front, entry⟩ := readEntry_of_readMember first
    have isComma : c = ',' := by simpa using (Bool.and_eq_true_iff.mp comma).1
    exact readMembers_more atStart (alike.trans front) entry (by rw [follows, isComma]) (ih later false rfl)
  | case5 => cases reads

theorem readMembers_of_readContainer {pairs : List (String × String)}
    (reads : readContainer (readMember (readValue depth)) '\x7d' cs = some (ofStrings pairs, next)) :
    readMembers true cs = .ok (pairs, next) := by
  unfold readContainer at reads
  split at reads
  · cases reads
  next c more front =>
    split at reads
    next closes =>
      obtain ⟨same, rfl⟩ := Prod.mk.inj (Option.some.inj reads)
      obtain rfl := List.map_eq_nil_iff.mp same.symm
      exact readMembers_empty (by rw [front, closes])
    next => exact readMembers_of_readItems reads true (by rw [← front, skipSpace, skipSpace, List.dropWhile_idempotent])

end

/-- Main statement: where a value is read that is an object of strings, its members are read as such. -/
theorem readStrings_of_read? {s : String} {pairs : List (String × String)}
    (reads : read? s = some (.object (ofStrings pairs))) : readStrings s = .ok pairs := by
  unfold read? at reads
  split at reads
  next v rest value =>
    split at reads
    next clean =>
      cases reads
      obtain ⟨inside, inner, opens, contained⟩ := container_of_readValue value
      simp only [readStrings, opens, readMembers_of_readContainer contained, clean, if_true]
    · cases reads
  · cases reads

end ColorResolution.Json
