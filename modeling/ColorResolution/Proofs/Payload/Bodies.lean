import ColorResolution.Proofs.Functional.LetterCase
import ColorResolution.Proofs.Payload.PlainText
import ColorResolution.Proofs.Resolver.Refusal
import ColorResolution.Proofs.Text.Decimal

/-!
# Bodies that are no documents

A body is blank, a JSON document, or a plain text. Main statement: only a blank body is reported as an empty payload,
and no other failed fetch is reported; any other body says the same at every URL and between any blanks. It is resolved
as it stands if it does not begin with a mark of JSON or is not read as a whole; in the latter case no matcher takes the
mark, unless it is the sigil, and the body is refused.
-/
namespace ColorResolution

namespace Text

variable {before after : List Char} {p : Char → Bool}

/-- What is dropped at the ends does not matter there. -/
theorem dropEnds_between (front : ∀ c ∈ before, p c = true) (back : ∀ c ∈ after, p c = true) (cs : List Char) :
    dropEnds p (before ++ (cs ++ after)) = dropEnds p cs := by
  rw [dropEnds, List.dropWhile_append_of_pos front, List.dropWhile_append]
  split
  next none =>
    rw [List.isEmpty_iff] at none
    rw [dropEnds, none, List.dropWhile_eq_nil_iff.mpr back]
  next =>
    rw [List.reverse_append, List.dropWhile_append_of_pos fun c member => back c (List.mem_reverse.mp member)]
    rfl

theorem trim_between {before after : String} (front : ∀ c ∈ before.toList, isBlank c = true)
    (back : ∀ c ∈ after.toList, isBlank c = true) (s : String) : trim (before ++ s ++ after) = trim s := by
  have split : (before ++ s ++ after).toList = before.toList ++ (s.toList ++ after.toList) := by simp
  rw [trim, split, dropEnds_between front back, trim]

theorem trim_eq_empty_iff (s : String) : trim s = "" ↔ ∀ c ∈ s.toList, isBlank c = true := by
  constructor
  · intro nothing
    obtain ⟨before, after, split, front, back⟩ := Functional.exists_dropEnds isBlank s.toList
    have none : dropEnds isBlank s.toList = [] := by
      rw [← toList_trim, nothing]
      rfl
    rw [none, List.nil_append] at split
    intro c member
    rw [split, List.mem_append] at member
    exact member.elim (front c) (back c)
  · intro blank
    rw [trim, dropEnds, List.dropWhile_eq_nil_iff.mpr blank]
    rfl

/-- Between blanks a text begins with no blank. -/
theorem not_isBlank_of_head {s : String} {c : Char} (first : (trim s).toList.head? = some c) : isBlank c = false := by
  obtain ⟨back, whole⟩ := List.rdropWhile_prefix isBlank (s.toList.dropWhile isBlank)
  have stops := List.head?_dropWhile_not isBlank s.toList
  rw [toList_trim, dropEnds_eq] at first
  rwa [← whole, List.head?_append, first] at stops

end Text

/-! ## A mark in front -/

theorem Json.isBlank_of_isSpace {c : Char} (space : isSpace c = true) : Text.isBlank c = true := by
  simp only [isSpace, Bool.or_eq_true, beq_iff_eq] at space
  rcases space with ((rfl | rfl) | rfl) | rfl <;> decide

/-- More brackets than containers may be nested are not read, whatever stands behind them. -/
theorem Json.readValue_deep (depth : Nat) (rest : List Char) :
    readValue depth (List.replicate (depth + 1) '[' ++ rest) = none := by
  induction depth with
  | zero => rfl
  | succ inner ih =>
    have stays : skipSpace (List.replicate (inner + 1) '[' ++ rest) = '[' :: (List.replicate inner '[' ++ rest) := rfl
    have unread : readContainer (readValue inner) ']' (List.replicate (inner + 1) '[' ++ rest) = none := by
      rw [readContainer, stays]
      change readItems (readValue inner) ']' (List.replicate (inner + 1) '[' ++ rest) = none
      rw [readItems, ih]
    change (readContainer (readValue inner) ']' (List.replicate (inner + 1) '[' ++ rest)).map _ = none
    rw [unread, Option.map_none]

theorem Json.read?_deep {s : String} {rest : List Char} (deep : s.toList = List.replicate (maxDepth + 1) '[' ++ rest) :
    read? s = none := by
  rw [read?, deep, readValue_deep]

/-- The first characters of JSON strings, arrays and objects. -/
def Json.IsMark (c : Char) : Prop := c = '\x7b' ∨ c = '[' ∨ c = '"'

theorem Json.IsMark.foreign {c : Char} (mark : IsMark c) :
    c.isAlphanum = false ∧ c ≠ '-' ∧ c ≠ '_' ∧ c ≠ '#' ∧ ¬ IsHexDigit c ∧ c.toLower ≠ 'r' := by
  rcases mark with rfl | rfl | rfl <;> decide

/-- The first character of a name stays in front of the key. -/
theorem Palette.head?_dropSuffix (c : Char) (cs : List Char) : (dropSuffix (c :: cs)).head? = some c := by
  unfold dropSuffix
  split
  next shortens =>
    obtain ⟨_, longer⟩ := Bool.and_eq_true_iff.mp shortens
    obtain ⟨more, size⟩ := Nat.exists_eq_add_of_lt (of_decide_eq_true longer)
    rw [size, Nat.add_assoc, Nat.add_sub_cancel_left, List.take_succ_cons, List.head?_cons]
  next => rw [List.head?_cons]

/-- No name of the palette begins with anything but a letter. -/
theorem Palette.color?_of_head {text : String} {c : Char} {rest : List Char} (trimmed : Text.trim text = text)
    (split : text.toList = c :: rest) (noLetter : c.isAlpha = false) : color? text = none := by
  have letters : ∀ e ∈ entries, e.1.toList.head?.all Char.isAlpha = true := by decide
  have first : (key text).toList.head? = some c := by
    rw [key, String.toList_ofList, trimmed, split, List.map_cons, Text.toLower_of_not_isAlpha noLetter, head?_dropSuffix]
  rw [color?, List.lookup_eq_none_iff]
  intro e member
  refine bne_iff_ne.mpr fun same => ?_
  have letter := letters e member
  rw [← same, first, Option.all_some, noLetter] at letter
  cases letter

namespace Resolver

theorem resolve_trim (r : Resolver) (s : String) : r.resolve (Text.trim s) = r.resolve s := by
  simp only [resolve, resolution, Text.trim_trim]

/-- A text behind a mark of JSON has no shape, unless the mark is the sigil. -/
theorem refuses_of_mark {r : Resolver} {text : String} {c : Char} {rest : List Char} (trimmed : Text.trim text = text)
    (split : text.toList = c :: rest) (mark : Json.IsMark c) (system : r.names = Palette.color?) (other : r.sigil ≠ c) :
    r.Refuses text (.invalidColor text) := by
  obtain ⟨noAlphanum, noHyphen, noLine, noHash, noDigit, noName⟩ := mark.foreign
  have first : c ∈ text.toList := split ▸ List.mem_cons_self
  have noLetter : c.isAlpha = false := (Bool.or_eq_false_iff.mp noAlphanum).1
  refine .shapeless ?_ ?_ ?_ ?_ ?_ ?_ ?_
  · rintro rfl
    cases split
  · rw [split, List.head?_cons]
    simpa using noHash
  · exact fun bare => noDigit (bare.2.digits c first)
  · rintro body ⟨name, whole, _, named⟩
    cases name with
    | nil => simp at named
    | cons d more =>
      obtain rfl : c = d := (List.cons.inj (split.symm.trans whole)).1
      exact noName (by simpa using named.elim (fun rgb => (List.cons.inj rgb).1) fun rgba => (List.cons.inj rgba).1)
  · intro name shape
    exact other (List.cons.inj (shape.split.symm.trans split)).1
  · intro identifier
    rcases identifier.chars c first with letter | hyphen | line
    · rw [noAlphanum] at letter
      cases letter
    · exact noHyphen hyphen
    · exact noLine line
  · rw [system]
    exact Palette.color?_of_head trimmed split noLetter

end Resolver

namespace Payload

theorem color_ne_fetch (r : Resolver) (payload : Payload) (cause : FetchError) :
    payload.color r ≠ .error (.fetch cause) := by
  induction payload with
  | token text => exact r.resolve_ne_fetch text cause
  | channels red green blue alpha => simp [color]
  | wrapped inner ih => exact ih

section
variable {url body : String} {r : Resolver}

/-- Interpreting a body reports no failed fetch but an empty payload, and this only of blanks. -/
theorem interpret_eq_fetch_iff {cause : FetchError} :
    interpret url body r = .error (.fetch cause) ↔ cause = .emptyPayload url ∧ ∀ c ∈ body.toList, Text.isBlank c = true := by
  rw [← Text.trim_eq_empty_iff]
  constructor
  · intro failed
    simp only [interpret] at failed
    split at failed
    next blank =>
      cases failed
      exact ⟨rfl, by simpa using blank⟩
    · split at failed
      · exact absurd failed (r.resolve_ne_fetch _ cause)
      · split at failed
        · exact absurd failed (color_ne_fetch r _ cause)
        · cases failed
  · rintro ⟨rfl, blank⟩
    simp [interpret, blank]

/-- What is read of a body are its characters between the blanks. -/
theorem interpret_congr {other : String} (url' : String) (some : Text.trim body ≠ "")
    (same : Text.trim other = Text.trim body) : interpret url' other r = interpret url body r := by
  simp [interpret, same, some]

theorem interpret_of_unread (some : Text.trim body ≠ "") (unread : Json.read? (Text.trim body) = none) :
    interpret url body r = r.resolve body := by
  have noDocument : document? (Text.trim body) = none := document?_eq_none (by simp [unread])
  rw [interpret_of_plain url r some noDocument, r.resolve_trim]

end

/-- Main statement: what becomes of a body that is no document. -/
theorem interpret_plain (url body : String) (r : Resolver) :
    (interpret url body r = .error (.fetch (.emptyPayload url)) ↔ ∀ c ∈ body.toList, Text.isBlank c = true) ∧
    (∀ cause, interpret url body r = .error (.fetch cause) → cause = .emptyPayload url) ∧
    ((∃ c ∈ body.toList, Text.isBlank c = false) → ∀ url' before after : String,
      (∀ c ∈ before.toList, Text.isBlank c = true) → (∀ c ∈ after.toList, Text.isBlank c = true) →
        interpret url' (before ++ body ++ after) r = interpret url body r) ∧
    ∀ c, (Text.trim body).toList.head? = some c →
      (¬ Json.IsMark c → interpret url body r = r.resolve body) ∧
      (Json.IsMark c → Json.read? (Text.trim body) = none → interpret url body r = r.resolve body ∧
        (r.names = Palette.color? → ¬ Json.IsMark r.sigil →
          interpret url body r = .error (.invalidColor (Text.trim body)))) := by
  refine ⟨?_, fun cause failed => (interpret_eq_fetch_iff.mp failed).1, ?_, ?_⟩
  · rw [interpret_eq_fetch_iff]
    exact and_iff_right rfl
  · rintro ⟨c, member, solid⟩ url' before after front back
    refine interpret_congr url' (fun blank => ?_) (Text.trim_between front back body)
    rw [(Text.trim_eq_empty_iff body).mp blank c member] at solid
    cases solid
  · intro c first
    obtain ⟨rest, split⟩ : ∃ rest, (Text.trim body).toList = c :: rest := ⟨_, List.eq_cons_of_mem_head? first⟩
    have some : Text.trim body ≠ "" := by
      intro blank
      rw [blank] at split
      cases split
    constructor
    · intro plain
      simp only [Json.IsMark, not_or] at plain
      obtain ⟨noObject, noArray, noText⟩ := plain
      have solid : Json.isSpace c = false :=
        Bool.eq_false_iff.mpr fun space => Bool.eq_false_iff.mp (Text.not_isBlank_of_head first) (Json.isBlank_of_isSpace space)
      rw [interpret_of_plain url r some (document?_of_head split solid noText noArray noObject), r.resolve_trim]
    · intro mark unread
      refine ⟨interpret_of_unread some unread, fun system other => ?_⟩
      have foreign : r.sigil ≠ c := fun same => other (same ▸ mark)
      have refuses := Resolver.refuses_of_mark (Text.trim_trim body) split mark system foreign
      obtain ⟨asked, decided⟩ := Resolver.decided_of_refuses (Text.trim_trim body) refuses
      rw [interpret_of_unread some unread, Resolver.resolve, (r.decided_resolution body).unique decided]

/-- A document that is cut off, one with a text behind it, one with a number beyond all bounds, and one that is nested
too deep. -/
theorem interpret_plain_of_broken :
    let nested := String.ofList (List.replicate (Json.maxDepth + 1) '[' ++ List.replicate (Json.maxDepth + 1) ']')
    interpret "u" "\n\x7b\"color\": \"red\" " {} = .error (.invalidColor "\x7b\"color\": \"red\"") ∧
      interpret "u" "\"red\" red" {} = .error (.invalidColor "\"red\" red") ∧
      interpret "u" "[1e999]" {} = .error (.invalidColor "[1e999]") ∧
      interpret "u" nested {} = .error (.invalidColor nested) := by
  intro nested
  have system : ({} : Resolver).names = Palette.color? := by simp only
  have sigil : ¬ Json.IsMark ({} : Resolver).sigil := by simp [Json.IsMark]
  have refused (body : String) (c : Char) (first : (Text.trim body).toList.head? = some c) (mark : Json.IsMark c)
      (unread : Json.read? (Text.trim body) = none) : interpret "u" body {} = .error (.invalidColor (Text.trim body)) :=
    (((interpret_plain "u" body {}).2.2.2 c first).2 mark unread).2 system sigil
  have written : nested.toList = List.replicate (Json.maxDepth + 1) '[' ++ List.replicate (Json.maxDepth + 1) ']' :=
    String.toList_ofList
  have front : nested.toList.head? = some '[' := by
    rw [written, List.replicate_succ, List.cons_append, List.head?_cons]
  have back : nested.toList.getLast? = some ']' := by
    rw [written, List.replicate_succ' (a := ']'), ← List.append_assoc, List.getLast?_concat]
  have solid : Text.trim nested = nested := Text.trim_of_ends front back rfl rfl
  have deep : Json.read? nested = none := Json.read?_deep written
  refine ⟨?_, ?_, ?_, ?_⟩
  · exact refused "\n\x7b\"color\": \"red\" " '\x7b' (by decide +kernel) (by simp [Json.IsMark]) (by cbv)
  · exact refused "\"red\" red" '"' (by decide +kernel) (by simp [Json.IsMark]) (by cbv)
  · exact refused "[1e999]" '[' (by decide +kernel) (by simp [Json.IsMark]) (by cbv)
  · have whole := refused nested '[' (by rw [solid, front]) (by simp [Json.IsMark]) (by rw [solid, deep])
    rwa [solid] at whole

end Payload

end ColorResolution
