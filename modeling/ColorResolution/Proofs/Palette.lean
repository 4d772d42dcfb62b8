import ColorResolution.Proofs.Payload.Bodies
import ColorResolution.Proofs.Table

/-!
# The names of the palette

What the palette knows is said here without the key: a text names a colour if, without the blanks at its ends and in
small letters, it is a name of the palette, alone or with the word behind it. No name of the palette ends with the word,
so the word is taken from no name, and of two words behind a name one stays. Main statement: these texts are known and
no others, and a text that does not end with the word may be given it.
-/
namespace ColorResolution

namespace Text

variable {p : Char → Bool} {cs ds : List Char}

theorem dropEnds_of_last (solid : ∀ c, cs.getLast? = some c → p c = false) : dropEnds p cs = cs.dropWhile p := by
  rw [dropEnds_eq, List.rdropWhile_eq_self_iff]
  intro kept
  have rest : cs.dropWhile p <:+ cs := List.dropWhile_suffix p
  rw [rest.getLast kept, solid _ (List.getLast?_eq_some_getLast _)]
  exact Bool.false_ne_true

/-- Behind a last character that stays, nothing is lost of what else stays. -/
theorem dropEnds_append (solid : ∀ c, cs.getLast? = some c → p c = false) (solid' : ∀ c ∈ ds, p c = false)
    (some : ds ≠ []) : dropEnds p (cs ++ ds) = dropEnds p cs ++ ds := by
  have last : ∀ c, (cs ++ ds).getLast? = Option.some c → p c = false := by
    intro c found
    rw [List.getLast?_append_of_ne_nil cs some] at found
    exact solid' c (List.mem_of_getLast? found)
  rw [dropEnds_of_last last, dropEnds_of_last solid, List.dropWhile_append]
  split
  next nothing =>
    have kept : ds.dropWhile p = ds := by
      rw [List.dropWhile_eq_self_iff]
      intro first
      simp [solid' _ (List.getElem_mem first)]
    rw [List.isEmpty_iff.mp nothing, kept, List.nil_append]
  next => rfl

end Text

namespace Palette

/-! ## The word behind a name -/

section
variable {text base : List Char}

theorem dropSuffix_append (some : base ≠ []) : dropSuffix (base ++ suffix) = base := by
  have ends : suffix.isSuffixOf (base ++ suffix) = true := List.isSuffixOf_iff_suffix.mpr (List.suffix_append base suffix)
  have longer : suffix.length < (base ++ suffix).length := by
    have := List.length_pos_iff.mpr some
    rw [List.length_append]
    omega
  rw [dropSuffix, ends, decide_eq_true longer, Bool.and_self, if_pos rfl, List.length_append, Nat.add_sub_cancel,
    List.take_left]

theorem dropSuffix_of_not_suffix (bare : ¬ suffix <:+ text) : dropSuffix text = text := by
  have noEnd : suffix.isSuffixOf text = false := by rwa [Bool.eq_false_iff, ne_eq, List.isSuffixOf_iff_suffix]
  rw [dropSuffix, noEnd, Bool.false_and, if_neg Bool.false_ne_true]

/-- At most one word is dropped. -/
theorem eq_dropSuffix (text : List Char) : text = dropSuffix text ∨ text = dropSuffix text ++ suffix := by
  by_cases ends : suffix <:+ text
  · obtain ⟨base, rfl⟩ := ends
    rcases base.eq_nil_or_concat with rfl | ⟨_, _, rfl⟩
    · exact .inl rfl
    · exact .inr (by rw [dropSuffix_append (by simp)])
  · exact .inl (dropSuffix_of_not_suffix ends).symm

end

/-! ## Names -/

/-- A name of letters that does not end with the word. -/
structure Plain (base : String) : Prop where
  some : base.toList ≠ []
  bare : ¬ suffix <:+ base.toList
  letters : ∀ c ∈ base.toList, c.isAlpha = true

theorem plain_of_mem {base : String} {c : Color} (entry : (base, c) ∈ entries) : Plain base := by
  have some : ∀ e ∈ entries, e.1.toList ≠ [] := by decide
  have bare : ∀ e ∈ entries, suffix.isSuffixOf e.1.toList = false := by decide
  have letters : ∀ e ∈ entries, e.1.toList.all Char.isAlpha = true := by decide
  refine ⟨some _ entry, ?_, List.all_eq_true.mp (letters _ entry)⟩
  rw [← List.isSuffixOf_iff_suffix, bare _ entry]
  exact Bool.false_ne_true

theorem entries_distinct : (entries.map Prod.fst).Nodup := by decide

/-- A text as names are compared: without the blanks at its ends, in small letters. -/
def folded (name : String) : List Char := (Text.trim name).toList.map Char.toLower

/-- The two ways to write a name, alone and with the word behind it. -/
def Written (base : String) (text : List Char) : Prop := text = base.toList ∨ text = base.toList ++ suffix

section
variable {name base : String} {c : Color}

theorem toList_key (name : String) : (key name).toList = dropSuffix (folded name) := by
  rw [key, String.toList_ofList, folded]

theorem key_eq_iff (plain : Plain base) : key name = base ↔ Written base (folded name) := by
  rw [← String.toList_inj, toList_key]
  constructor
  · intro same
    have split := eq_dropSuffix (folded name)
    rwa [same] at split
  · rintro (alone | followed)
    · rw [alone, dropSuffix_of_not_suffix plain.bare]
    · rw [followed, dropSuffix_append plain.some]

theorem color?_eq_some_iff : color? name = some c ↔ ∃ base, (base, c) ∈ entries ∧ Written base (folded name) := by
  rw [color?, Table.lookup_eq_some_iff_mem entries_distinct]
  constructor
  · intro entry
    exact ⟨key name, entry, (key_eq_iff (plain_of_mem entry)).mp rfl⟩
  · rintro ⟨base, entry, written⟩
    rwa [(key_eq_iff (plain_of_mem entry)).mpr written]

theorem color?_eq_none_iff : color? name = none ↔ ∀ base c, (base, c) ∈ entries → ¬ Written base (folded name) := by
  rw [Option.eq_none_iff_forall_not_mem]
  constructor
  · intro unknown base c entry written
    exact unknown c (color?_eq_some_iff.mpr ⟨base, entry, written⟩)
  · intro unwritten c known
    obtain ⟨base, entry, written⟩ := color?_eq_some_iff.mp known
    exact unwritten base c entry written

/-! ## What is no name -/

/-- Texts close to names: nothing, the word alone, two words, and a character that is no letter, such as a blank between
a name and the word or a letter beyond ASCII. -/
inductive Foreign (name : String) : Prop
  | empty : folded name = [] → Foreign name
  | word : folded name = suffix → Foreign name
  | doubled (front : List Char) : folded name = front ++ suffix ++ suffix → Foreign name
  | character (c : Char) : c ∈ (Text.trim name).toList → c.isAlpha = false → Foreign name

theorem Written.letters {text : List Char} (plain : Plain base) (written : Written base text) :
    ∀ c ∈ text, c.isAlpha = true := by
  have word : ∀ c ∈ suffix, c.isAlpha = true := List.all_eq_true.mp rfl
  intro c member
  rcases written with rfl | rfl
  · exact plain.letters c member
  · exact (List.mem_append.mp member).elim (plain.letters c) (word c)

theorem Foreign.unwritten (foreign : Foreign name) (plain : Plain base) : ¬ Written base (folded name) := by
  intro written
  cases foreign with
  | empty nothing =>
    rw [Written, nothing] at written
    rcases written with same | same
    · exact plain.some same.symm
    · exact plain.some (List.append_eq_nil_iff.mp same.symm).1
  | word same =>
    rw [Written, same] at written
    rcases written with same | same
    · exact plain.bare (same ▸ List.suffix_rfl)
    · exact plain.some (List.self_eq_append_left.mp same)
  | doubled front same =>
    rw [Written, same] at written
    rcases written with same | same
    · exact plain.bare (same ▸ List.suffix_append _ _)
    · exact plain.bare (List.append_cancel_right same ▸ List.suffix_append _ _)
  | character c member noLetter =>
    have letter := written.letters plain c.toLower (List.mem_map_of_mem member)
    rw [Char.isAlpha_toLower_eq_isAlpha, noLetter] at letter
    cases letter

/-! ## A word more -/

theorem folded_append {word : String} (ends : ∀ c, name.toList.getLast? = some c → Text.isBlank c = false)
    (solid : ∀ c ∈ word.toList, Text.isBlank c = false) (some : word.toList ≠ []) :
    folded (name ++ word) = folded name ++ word.toList.map Char.toLower := by
  rw [folded, Text.toList_trim, String.toList_append, Text.dropEnds_append ends solid some, List.map_append, folded,
    Text.toList_trim]

theorem folded_suffix (ends : ∀ c, name.toList.getLast? = some c → Text.isBlank c = false) :
    folded name <:+ name.toList.map Char.toLower := by
  rw [folded, Text.toList_trim, Text.dropEnds_of_last ends]
  exact (List.dropWhile_suffix _).map _

/-- A text that does not end with the word is looked up alike with and without it. -/
theorem color?_append_word (ends : ∀ c, name.toList.getLast? = some c → Text.isBlank c = false)
    (bare : ¬ suffix <:+ name.toList.map Char.toLower) : color? (name ++ "Color") = color? name := by
  have longer : folded (name ++ "Color") = folded name ++ suffix := folded_append ends (by simp [Text.isBlank]) (by simp)
  have stays : dropSuffix (folded name) = folded name :=
    dropSuffix_of_not_suffix fun word => bare (word.trans (folded_suffix ends))
  rcases (folded name).eq_nil_or_concat with nothing | ⟨_, _, some⟩
  · -- the word alone is looked up, and nothing else is without it
    have foreign : Foreign name := .empty nothing
    have foreign' : Foreign (name ++ "Color") := .word (by rw [longer, nothing, List.nil_append])
    rw [color?_eq_none_iff.mpr fun base c entry => foreign.unwritten (plain_of_mem entry),
      color?_eq_none_iff.mpr fun base c entry => foreign'.unwritten (plain_of_mem entry)]
  · have same : key (name ++ "Color") = key name := by
      rw [← String.toList_inj, toList_key, toList_key, longer, stays, dropSuffix_append (by simp [some])]
    rw [color?, color?, same]

end

/-- Main statement: the palette knows a text exactly if it is one of its names in either way of writing. -/
theorem knows_written_names (name : String) :
    (∀ c, color? name = some c ↔ ∃ base, (base, c) ∈ entries ∧ Written base (folded name)) ∧
    (color? name = none ↔ ∀ base c, (base, c) ∈ entries → ¬ Written base (folded name)) ∧
    (Foreign name → color? name = none) ∧
    ((∀ c, name.toList.getLast? = some c → Text.isBlank c = false) → ¬ suffix <:+ name.toList.map Char.toLower →
      color? name = color? (name ++ "Color")) :=
  ⟨fun _ => color?_eq_some_iff, color?_eq_none_iff,
    fun foreign => color?_eq_none_iff.mpr fun _ _ entry => foreign.unwritten (plain_of_mem entry),
    fun ends bare => (color?_append_word ends bare).symm⟩

/-- A blank in front is no matter, one before the word is, and so is a letter that only looks like one of ASCII. -/
theorem knows_written_names_of_grey :
    (∀ c, " darkGray".toList.getLast? = some c → Text.isBlank c = false) ∧
      ¬ suffix <:+ " darkGray".toList.map Char.toLower ∧
      color? " darkGrayColor" = some (.grey 85) ∧ Foreign "red Color" ∧ Foreign "blac\u212A" ∧
      color? "red Color" = none ∧ color? "blac\u212A" = none := by
  have ends : ∀ c, " darkGray".toList.getLast? = some c → Text.isBlank c = false := by
    intro c found
    obtain rfl : 'y' = c := Option.some.inj found
    rfl
  have bare : ¬ suffix <:+ " darkGray".toList.map Char.toLower := by
    rw [← List.isSuffixOf_iff_suffix]
    decide
  have known : color? " darkGray" = some (.grey 85) := by decide +kernel
  obtain ⟨_, _, _, same⟩ := knows_written_names " darkGray"
  have between : Foreign "red Color" := .character ' ' (by decide +kernel) rfl
  have kelvin : Foreign "blac\u212A" := .character '\u212A' (by decide +kernel) rfl
  exact ⟨ends, bare, (same ends bare).symm.trans known, between, kelvin, (knows_written_names "red Color").2.2.1 between,
    (knows_written_names "blac\u212A").2.2.1 kelvin⟩

end Palette

end ColorResolution
