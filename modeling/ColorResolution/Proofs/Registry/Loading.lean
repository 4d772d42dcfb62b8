import ColorResolution.Proofs.Json.Strings
import ColorResolution.Proofs.Resolver.Shapes
import ColorResolution.Proofs.Table
import ColorResolution.Proofs.Text.Decimal
import ColorResolution.Registry

/-!
# Loading a registry

Between the text and the registry stands a map from names to texts, and in which order its names are gone through is not
told. Main statement: an object of strings is loaded by going through the last texts of its names in some order, and in
every order they come to the same. They are a registry exactly if each of them is a colour, and a failure is that of one
of them; texts that are overridden do not matter.
-/
namespace ColorResolution.Registry

/-- The text that a name has in the end. -/
def LastText (pairs : List (String × String)) (name text : String) : Prop :=
  Payload.LastMember (Json.ofStrings pairs) name (.string text)

def LastColor (pairs : List (String × String)) (name : String) (c : Color) : Prop :=
  ∃ text, LastText pairs name text ∧ entryResolver.resolve text = .ok c

def Absent (pairs : List (String × String)) (name : String) : Prop := ∀ p ∈ pairs, p.1 ≠ name

/-- An order in which the names may be gone through, each with the text that it has in the end. -/
structure Walks (pairs walked : List (String × String)) : Prop where
  distinct : (walked.map Prod.fst).Nodup
  texts : ∀ name text, (name, text) ∈ walked ↔ LastText pairs name text

/-- What a registry of members holds, and how a token of it resolves. -/
structure Holds (pairs : List (String × String)) (registry : Registry) : Prop where
  collected : ∀ colors : List (String × Color), (∀ name c, (name, c) ∈ colors ↔ LastColor pairs name c) →
    registry.same (Table.ofList colors) = true
  size : registry.size = (pairs.map Prod.fst).dedup.length
  present : ∀ name c, registry.get? name = some c ↔ LastColor pairs name c
  absent : ∀ name, Absent pairs name → registry.get? name = none
  resolves : ∀ token name c, DesignToken.Shape '$' token name → LastColor pairs name c →
    (Resolver.withRegistry registry).resolve token = .ok c
  unresolved : ∀ token name, DesignToken.Shape '$' token name → Absent pairs name →
    (Resolver.withRegistry registry).resolve token = .error (.unresolvedToken token)

/-- What members come to. -/
structure Loads (pairs : List (String × String)) (outcome : Except LoadError Registry) : Prop where
  succeeds : (∃ registry, outcome = .ok registry) ↔
    ∀ name text, LastText pairs name text → ∃ c, entryResolver.resolve text = .ok c
  holds : ∀ registry, outcome = .ok registry → Holds pairs registry
  fails : ∀ error, outcome = .error error → ∃ name text cause, error = .invalidEntry name cause ∧
    LastText pairs name text ∧ entryResolver.resolve text = .error cause

/-! ## The texts of names -/

section
variable {pairs : List (String × String)} {name text : String}

theorem lastText_iff : LastText pairs name text ↔ Json.member? pairs name = some text := by
  rw [LastText, ← Payload.member?_eq_some_iff, Json.ofStrings, Json.member?, ← List.map_reverse, Payload.lookup_mapValues,
    Json.member?]
  cases pairs.reverse.lookup name <;> simp

theorem LastText.unique {other : String} (last : LastText pairs name text) (again : LastText pairs name other) :
    text = other :=
  Option.some.inj ((lastText_iff.mp last).symm.trans (lastText_iff.mp again))

theorem absent_iff : Absent pairs name ↔ ∀ text, ¬ LastText pairs name text := by
  simp only [lastText_iff, ← Option.eq_none_iff_forall_ne_some, Json.member?, List.lookup_eq_none_iff, Absent,
    List.mem_reverse, bne_iff_ne, ne_comm]

theorem exists_lastText (present : ¬ Absent pairs name) : ∃ text, LastText pairs name text := by
  by_contra never
  exact present (absent_iff.mpr (not_exists.mp never))

theorem LastColor.unique {c d : Color} (last : LastColor pairs name c) (again : LastColor pairs name d) : c = d := by
  obtain ⟨text, isLast, resolved⟩ := last
  obtain ⟨other, isLast', resolved'⟩ := again
  obtain rfl := isLast.unique isLast'
  exact Except.ok.inj (resolved.symm.trans resolved')

/-- A table of the last colours answers with them, in whatever order and however often they are listed. -/
theorem get?_ofList_iff {colors : List (String × Color)}
    (listed : ∀ name c, (name, c) ∈ colors ↔ LastColor pairs name c)
    (name : String) (c : Color) : (Table.ofList colors).get? name = some c ↔ LastColor pairs name c := by
  have listed_of_found {d : Color} (found : Json.member? colors name = some d) : LastColor pairs name d := by
    obtain ⟨_, _, split, _⟩ := List.lookup_eq_some_iff.mp found
    exact (listed name d).mp (List.mem_reverse.mp (split ▸ List.mem_append_right _ List.mem_cons_self))
  rw [Table.get?_ofList]
  constructor
  · exact listed_of_found
  · intro last
    cases found : Json.member? colors name with
    | none =>
      have missing := List.lookup_eq_none_iff.mp found (name, c) (List.mem_reverse.mpr ((listed name c).mpr last))
      exact absurd rfl (bne_iff_ne.mp missing)
    | some d => rw [(listed_of_found found).unique last]

theorem walks_entries (pairs : List (String × String)) : Walks pairs (Table.ofList pairs).entries where
  distinct := (Table.ofList pairs).distinct
  texts name text := by rw [Table.mem_entries_iff, Table.get?_ofList, lastText_iff]

end

/-! ## Resolving one text after another -/

/-- An entry and its colour. -/
def Resolved (entry : String × String) (color : String × Color) : Prop :=
  entry.1 = color.1 ∧ entryResolver.resolve entry.2 = .ok color.2

/-- Either all texts resolve, and their colours are put in, or one that does not is reported. -/
theorem ofTexts_cases (start : Registry) (walked : List (String × String)) :
    (∃ colors, List.Forall₂ Resolved walked colors ∧
      ofTexts start walked = .ok (colors.foldl (fun t e => t.insert e.1 e.2) start)) ∨
    ∃ name text cause, (name, text) ∈ walked ∧ entryResolver.resolve text = .error cause ∧
      ofTexts start walked = .error (.invalidEntry name cause) := by
  induction walked generalizing start with
  | nil => exact .inl ⟨[], .nil, rfl⟩
  | cons entry rest ih =>
    obtain ⟨name, text⟩ := entry
    cases resolved : entryResolver.resolve text with
    | error cause => exact .inr ⟨name, text, cause, List.mem_cons_self, resolved, by rw [ofTexts, resolved]⟩
    | ok c =>
      have goesOn : ofTexts start ((name, text) :: rest) = ofTexts (start.insert name c) rest := by rw [ofTexts, resolved]
      rw [goesOn]
      rcases ih (start.insert name c) with ⟨colors, all, loaded⟩ | ⟨other, bad, cause, member, failed, reported⟩
      · exact .inl ⟨(name, c) :: colors, .cons ⟨rfl, resolved⟩ all, loaded⟩
      · exact .inr ⟨other, bad, cause, List.mem_cons_of_mem _ member, failed, reported⟩

section
variable {walked : List (String × String)} {colors : List (String × Color)}

theorem exists_resolved (all : List.Forall₂ Resolved walked colors) {name text : String}
    (member : (name, text) ∈ walked) :
    ∃ c, entryResolver.resolve text = .ok c := by
  induction all with
  | nil => cases member
  | @cons entry color _ _ first _ ih =>
    rcases List.mem_cons.mp member with rfl | later
    · exact ⟨color.2, first.2⟩
    · exact ih later

theorem mem_resolved_iff (all : List.Forall₂ Resolved walked colors) (name : String) (c : Color) :
    (name, c) ∈ colors ↔ ∃ text, (name, text) ∈ walked ∧ entryResolver.resolve text = .ok c := by
  induction all with
  | nil => simp
  | @cons entry color _ _ first _ ih =>
    obtain ⟨other, text⟩ := entry
    obtain ⟨rfl, resolved⟩ := first
    rw [List.mem_cons, ih]
    constructor
    · rintro (rfl | ⟨text', member, resolved'⟩)
      · exact ⟨text, List.mem_cons_self, resolved⟩
      · exact ⟨text', List.mem_cons_of_mem _ member, resolved'⟩
    · rintro ⟨text', member, resolved'⟩
      rcases List.mem_cons.mp member with same | member
      · cases same
        exact .inl (Prod.ext rfl (Except.ok.inj (resolved'.symm.trans resolved)))
      · exact .inr ⟨text', member, resolved'⟩

end

/-! ## The registry -/

theorem not_isBlank_of_nameChar {c : Char} (char : c.isAlphanum = true ∨ c = '.' ∨ c = '-' ∨ c = '_') :
    Text.isBlank c = false := by
  rcases char with letter | rfl | rfl | rfl
  · have inside : 48 ≤ c.val.toNat ∧ c.val.toNat ≤ 122 := by
      simp only [Char.isAlphanum, Char.isAlpha, Char.isUpper, Char.isLower, Char.isDigit, Bool.or_eq_true, Bool.and_eq_true,
        decide_eq_true_eq, ge_iff_le, UInt32.le_iff_toNat_le] at letter
      change (((65 ≤ c.val.toNat ∧ c.val.toNat ≤ 90) ∨ (97 ≤ c.val.toNat ∧ c.val.toNat ≤ 122)) ∨
        (48 ≤ c.val.toNat ∧ c.val.toNat ≤ 57)) at letter
      omega
    change 48 ≤ c.toNat ∧ c.toNat ≤ 122 at inside
    simp only [Text.isBlank, Bool.or_eq_false_iff, Bool.and_eq_false_iff, decide_eq_false_iff_not, beq_eq_false_iff_ne]
    omega
  · rfl
  · rfl
  · rfl

/-- A token of the shape that the usual configuration expects is looked up, whatever else its name may read as. -/
theorem resolve_token (registry : Registry) {token name : String} (shape : DesignToken.Shape '$' token name) :
    (Resolver.withRegistry registry).resolve token =
      (registry.get? name).elim (.error (.unresolvedToken token)) .ok := by
  have some : token ≠ "" := by
    rintro rfl
    cases shape.split
  have solid : ∀ c ∈ token.toList, Text.isBlank c = false := by
    intro c member
    rw [shape.split] at member
    rcases List.mem_cons.mp member with rfl | behind
    · rfl
    · exact not_isBlank_of_nameChar (shape.chars c behind)
  have filled : token.toList ≠ [] := shape.split ▸ List.cons_ne_nil _ _
  have trimmed : Text.trim token = token :=
    Text.trim_of_ends (List.head?_eq_some_head filled) (List.getLast?_eq_some_getLast filled)
      (solid _ (List.head_mem filled)) (solid _ (List.getLast_mem filled))
  have unmarked : Matcher.matchHex true token = none := by
    refine Matcher.matchHex_eq_none_iff.mpr ⟨by simp [shape.split], fun bare => ?_⟩
    exact absurd (bare.2.digits '$' (shape.split ▸ List.mem_cons_self)) (by decide)
  have decided : (Resolver.withRegistry registry).Decided token _ := .token some unmarked shape.notFunctional shape
  have resolution := (Resolver.withRegistry registry).decided_resolution token
  rw [trimmed] at resolution
  rw [Resolver.resolve, resolution.unique decided]
  rfl

section
variable {pairs walked : List (String × String)} {registry : Registry}

theorem Holds.of_present (resolve : ∀ name text, LastText pairs name text → ∃ c, entryResolver.resolve text = .ok c)
    (present : ∀ name c, registry.get? name = some c ↔ LastColor pairs name c) : Holds pairs registry := by
  have absent (name : String) (missing : Absent pairs name) : registry.get? name = none := by
    rw [Option.eq_none_iff_forall_ne_some]
    intro c held
    obtain ⟨text, last, _⟩ := (present name c).mp held
    exact absent_iff.mp missing text last
  refine ⟨?_, ?_, present, absent, ?_, ?_⟩
  · intro colors collected
    rw [Table.same_iff]
    intro name
    ext c
    rw [present, get?_ofList_iff collected]
  · apply Table.size_eq_of_keys registry (List.nodup_dedup _)
    intro name
    rw [List.mem_dedup]
    constructor
    · intro listed none
      obtain ⟨p, member, rfl⟩ := List.mem_map.mp listed
      obtain ⟨text, last⟩ := exists_lastText fun missing : Absent pairs p.1 => missing p member rfl
      obtain ⟨c, resolved⟩ := resolve p.1 text last
      rw [(present p.1 c).mpr ⟨text, last, resolved⟩] at none
      cases none
    · intro held
      by_contra unlisted
      exact held (absent name fun p member same => unlisted (List.mem_map.mpr ⟨p, member, same⟩))
  · intro token name c shape last
    rw [resolve_token registry shape, (present name c).mpr last, Option.elim_some]
  · intro token name shape missing
    rw [resolve_token registry shape, absent name missing, Option.elim_none]

/-- In whatever order the names are gone through, their last texts come to the same. -/
theorem loads_ofTexts (walks : Walks pairs walked) : Loads pairs (ofTexts Table.empty walked) := by
  rcases ofTexts_cases Table.empty walked with ⟨colors, all, loaded⟩ | ⟨name, text, cause, member, failed, reported⟩
  · have listed (name : String) (c : Color) : (name, c) ∈ colors ↔ LastColor pairs name c := by
      simp only [mem_resolved_iff all, walks.texts, LastColor]
    have resolve (name text : String) (last : LastText pairs name text) : ∃ c, entryResolver.resolve text = .ok c :=
      exists_resolved all ((walks.texts name text).mpr last)
    rw [loaded]
    refine ⟨iff_of_true ⟨_, rfl⟩ resolve, ?_, ?_⟩
    · rintro _ ⟨⟩
      exact .of_present resolve (get?_ofList_iff listed)
    · rintro _ ⟨⟩
  · have last := (walks.texts name text).mp member
    rw [reported]
    refine ⟨?_, ?_, ?_⟩
    · constructor
      · rintro ⟨_, ⟨⟩⟩
      · intro resolve
        obtain ⟨c, resolved⟩ := resolve name text last
        rw [failed] at resolved
        cases resolved
    · rintro _ ⟨⟩
    · rintro _ ⟨⟩
      exact ⟨name, text, cause, rfl, last, failed⟩

end

/-- Main statement: what becomes of an object of strings. -/
theorem load_walks {text : String} {pairs : List (String × String)}
    (document : Json.read? text = some (.object (Json.ofStrings pairs))) :
    Loads pairs (load text) ∧
    (∃ walked, Walks pairs walked ∧ load text = ofTexts Table.empty walked) ∧
    (∀ walked, Walks pairs walked → Loads pairs (ofTexts Table.empty walked)) ∧
    ∀ others, (∀ name text, LastText others name text ↔ LastText pairs name text) →
      ∀ walked, Walks others walked ↔ Walks pairs walked := by
  have loaded : load text = ofTexts Table.empty (Table.ofList pairs).entries := by
    rw [load, Json.readStrings_of_read? document]
  refine ⟨?_, ⟨_, walks_entries pairs, loaded⟩, fun walked => loads_ofTexts, fun others same walked => ?_⟩
  · rw [loaded]
    exact loads_ofTexts (walks_entries pairs)
  · constructor
    · rintro ⟨distinct, texts⟩
      exact ⟨distinct, fun name text => (texts name text).trans (same name text)⟩
    · rintro ⟨distinct, texts⟩
      exact ⟨distinct, fun name text => (texts name text).trans (same name text).symm⟩

/-- A text that is overridden need not be a colour. -/
theorem load_walks_of_repeated :
    let text := "\x7b\"ink\": \"$ink\", \"brand.primary\": \"#f50\", \"ink\": \"black\"\x7d"
    let pairs := [("ink", "$ink"), ("brand.primary", "#f50"), ("ink", "black")]
    Json.read? text = some (.object (Json.ofStrings pairs)) ∧ ∃ registry, load text = .ok registry ∧ registry.size = 2 ∧
      (Resolver.withRegistry registry).resolve "$ink" = .ok .black ∧
      (Resolver.withRegistry registry).resolve "$other" = .error (.unresolvedToken "$other") := by
  intro text pairs
  have document : Json.read? text = some (.object (Json.ofStrings pairs)) := by cbv
  have ink : LastText pairs "ink" "black" := lastText_iff.mpr rfl
  have black : entryResolver.resolve "black" = .ok .black := by decide +kernel
  have brand : LastText pairs "brand.primary" "#f50" := lastText_iff.mpr rfl
  have orange : entryResolver.resolve "#f50" = .ok (.rgb 255 85 0) := by decide +kernel
  obtain ⟨loads, _⟩ := load_walks document
  have resolve (name text : String) (last : LastText pairs name text) : ∃ c, entryResolver.resolve text = .ok c := by
    by_cases isInk : name = "ink"
    · subst isInk
      exact ⟨_, last.unique ink ▸ black⟩
    by_cases isBrand : name = "brand.primary"
    · subst isBrand
      exact ⟨_, last.unique brand ▸ orange⟩
    have absent : Absent pairs name := by simp [Absent, pairs, Ne.symm isInk, Ne.symm isBrand]
    exact absurd last (absent_iff.mp absent text)
  obtain ⟨registry, loaded⟩ := loads.succeeds.mpr resolve
  have holds := loads.holds registry loaded
  refine ⟨document, registry, loaded, holds.size, ?_, ?_⟩
  · exact holds.resolves "$ink" "ink" .black (DesignToken.name?_eq_some_iff.mp (by decide +kernel)) ⟨"black", ink, black⟩
  · exact holds.unresolved "$other" "other" (DesignToken.name?_eq_some_iff.mp (by decide +kernel)) (by simp [Absent, pairs])

end ColorResolution.Registry
