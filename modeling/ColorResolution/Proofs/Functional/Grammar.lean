import ColorResolution.Proofs.Functional.Comments
import ColorResolution.Proofs.Functional.Value
import Mathlib.Data.List.Basic

/-!
# The grammar of the functional notation

Which texts are of the notation, and which colours they describe, as relations beside the reader. Components stand
between single commas, each with blanks and comments on both sides; only the last comment of the body may be left open.
A numeral gives the byte of its level, and as the fourth component that of an alpha value; a percentage gives the byte of
its share. Main statement: reading a text gives what the grammar says of it, and nothing else.
-/
namespace ColorResolution.Functional

open Binary

/-- A component is a numeral, or a numeral of hundredths with a percent sign directly after it. It is worked out in 64
bits and kept in 32. -/
inductive Component.Written : Component → List Char → Prop
  | number {n : Numeral} {v : Number} {text : List Char} : n.Written text → n.Means v →
    Component.Written (.number (single.convert v)) text
  | percentage {n : Numeral} {v : Number} {text : List Char} : n.Written text → n.Means v →
    Component.Written (.percentage (single.convert (double.div v (double.ofNat 100)))) (text ++ ['%'])

/-- The bodies that list components. -/
inductive Lists : List Char → List Component → Prop
  | last {before text after : List Char} {c : Component} : Gap before → c.Written text → LastGap after →
    Lists (before ++ (text ++ after)) [c]
  | more {before text after rest : List Char} {c : Component} {cs : List Component} : Gap before → c.Written text →
    Gap after → Lists rest cs → Lists (before ++ (text ++ (after ++ ',' :: rest))) (c :: cs)

/-- The byte of a red, green or blue component. -/
inductive Component.Gives : Component → UInt8 → Prop
  | level (v : Number) : Component.Gives (.number v) (Channel.ofLevel v)
  | share (v : Number) : Component.Gives (.percentage v) (Channel.ofShare v)

/-- The byte of an alpha component. -/
inductive Component.GivesAlpha : Component → UInt8 → Prop
  | level (v : Number) : Component.GivesAlpha (.number v) (Channel.ofAlpha v)
  | share (v : Number) : Component.GivesAlpha (.percentage v) (Channel.ofShare v)

/-- The colour of three or four components; without a fourth it is opaque. -/
inductive Paints : List Component → Color → Prop
  | three {r g b : Component} {x y z : UInt8} : r.Gives x → g.Gives y → b.Gives z → Paints [r, g, b] ⟨x, y, z, 255⟩
  | four {r g b a : Component} {x y z w : UInt8} : r.Gives x → g.Gives y → b.Gives z → a.GivesAlpha w →
    Paints [r, g, b, a] ⟨x, y, z, w⟩

/-- The text is of the notation, with this text between its first bracket and the bracket at its end. -/
def Encloses (s : String) (body : List Char) : Prop :=
  ∃ name, s.toList = name ++ '(' :: (body ++ [')']) ∧ '(' ∉ name ∧
    (name.map Char.toLower = ['r', 'g', 'b'] ∨ name.map Char.toLower = ['r', 'g', 'b', 'a'])

/-- What the grammar says of a text. -/
inductive Describes (s : String) : Option (Except ColorError Color) → Prop
  | other : (∀ body, ¬ Encloses s body) → Describes s none
  | color {body : List Char} {cs : List Component} {color : Color} : Encloses s body → Lists body cs → Paints cs color →
    Describes s (some (.ok color))
  | refused {body : List Char} : Encloses s body → (∀ cs color, Lists body cs → ¬ Paints cs color) →
    Describes s (some (.error (.invalidColor s)))

/-! ## The characters of a component -/

def isPart (c : Char) : Bool := c.isDigit || isSign c || isPoint c || c == 'e' || c == 'E' || c == '%'

section
variable {text : List Char}

theorem isPart_of_isDigit {c : Char} (digit : c.isDigit = true) : isPart c = true := by
  simp [isPart, digit]

theorem isSpace_of_isPart {c : Char} (part : isPart c = true) : isSpace c = false := by
  rw [Bool.eq_false_iff]
  intro space
  simp only [isSpace, Bool.or_eq_true, beq_iff_eq] at space
  rcases space with (((rfl | rfl) | rfl) | rfl) | rfl <;> cases part

theorem parts_of_sign {negative : Bool} (written : Sign negative text) : ∀ c ∈ text, isPart c = true := by
  cases written <;> simp [isPart, isSign]

theorem parts_of_digits (digits : Digits text) : ∀ c ∈ text, isPart c = true :=
  fun c member => isPart_of_isDigit (digits c member)

theorem parts_of_fraction {ds : List Char} (written : Fraction ds text) : ∀ c ∈ text, isPart c = true := by
  cases written with
  | none => simp
  | point _ digits => exact List.forall_mem_cons.mpr ⟨rfl, parts_of_digits digits⟩

theorem parts_of_power {power : Option (Bool × List Char)} (written : Power power text) :
    ∀ c ∈ text, isPart c = true := by
  cases written with
  | none => simp
  | raised isLetter sign _ digits =>
    refine List.forall_mem_cons.mpr ⟨?_, List.forall_mem_append.mpr ⟨parts_of_sign sign, parts_of_digits digits⟩⟩
    rcases isLetter with rfl | rfl <;> rfl

theorem Numeral.parts_of_written {n : Numeral} (written : n.Written text) : ∀ c ∈ text, isPart c = true := by
  cases written with
  | parts sign digits fraction _ power =>
    simp only [List.forall_mem_append]
    exact ⟨parts_of_sign sign, parts_of_digits digits, parts_of_fraction fraction, parts_of_power power⟩

theorem Component.parts_of_written {c : Component} (written : c.Written text) : ∀ d ∈ text, isPart d = true := by
  cases written with
  | number written _ => exact Numeral.parts_of_written written
  | percentage written _ =>
    exact List.forall_mem_append.mpr ⟨Numeral.parts_of_written written, List.forall_mem_singleton.mpr rfl⟩

theorem Numeral.ne_nil_of_written {n : Numeral} (written : n.Written text) : text ≠ [] := by
  cases written with
  | parts _ _ fraction some _ =>
    rcases some with some | some
    · simp [some]
    · cases fraction with
      | none => exact absurd rfl some
      | point => simp

theorem Component.ne_nil_of_written {c : Component} (written : c.Written text) : text ≠ [] := by
  cases written with
  | number written _ => exact Numeral.ne_nil_of_written written
  | percentage => simp

/-- No character of a component separates components or begins a comment. -/
theorem Component.not_mem_of_written {c : Component} {d : Char} (written : c.Written text) (other : isPart d = false) :
    d ∉ text := by
  intro member
  rw [Component.parts_of_written written d member] at other
  cases other

end

/-! ## One piece -/

section
variable {p : Char → Bool} {before text after : List Char}

theorem dropWhile_all (all : ∀ c ∈ before, p c = true) (solid : ∀ c ∈ text, p c = false) (rest : List Char)
    (some : text ≠ []) : (before ++ (text ++ rest)).dropWhile p = text ++ rest := by
  rw [List.dropWhile_append_of_pos all]
  cases text with
  | nil => exact absurd rfl some
  | cons c text => rw [List.cons_append, List.dropWhile_cons_of_neg (by simp [solid c List.mem_cons_self])]

theorem dropEnds_of_solid (front : ∀ c ∈ before, p c = true) (back : ∀ c ∈ after, p c = true)
    (solid : ∀ c ∈ text, p c = false) (some : text ≠ []) : Text.dropEnds p (before ++ (text ++ after)) = text := by
  have reversed : (text ++ after).reverse = after.reverse ++ (text.reverse ++ []) := by simp
  rw [Text.dropEnds, dropWhile_all front solid after some, reversed, dropWhile_all, List.append_nil,
    List.reverse_reverse]
  · exact fun c member => back c (List.mem_reverse.mp member)
  · exact fun c member => solid c (List.mem_reverse.mp member)
  · simpa using some

theorem exists_dropEnds (p : Char → Bool) (cs : List Char) :
    ∃ before after, cs = before ++ (Text.dropEnds p cs ++ after) ∧ (∀ c ∈ before, p c = true) ∧
      ∀ c ∈ after, p c = true := by
  refine ⟨cs.takeWhile p, ((cs.dropWhile p).reverse.takeWhile p).reverse, ?_, ?_, ?_⟩
  · rw [Text.dropEnds, ← List.reverse_append, List.takeWhile_append_dropWhile, List.reverse_reverse,
      List.takeWhile_append_dropWhile]
  · exact fun c member => List.mem_takeWhile_imp member
  · exact fun c member => List.mem_takeWhile_imp (List.mem_reverse.mp member)

theorem Component.written_of_read? {piece : List Char} {c : Component} (found : Component.read? piece = some c) :
    c.Written (Text.dropEnds isSpace piece) := by
  unfold Component.read? at found
  split at found
  next n reads =>
    cases found
    obtain ⟨text, whole, written⟩ := Numeral.written_of_read? reads
    rw [whole, List.append_nil]
    exact .number written ((Numeral.means_iff written).mpr rfl)
  next n reads =>
    cases found
    obtain ⟨text, whole, written⟩ := Numeral.written_of_read? reads
    rw [whole]
    exact .percentage written ((Numeral.means_iff written).mpr rfl)
  · cases found

theorem Component.read?_of_written {piece : List Char} {c : Component}
    (written : c.Written (Text.dropEnds isSpace piece)) : Component.read? piece = some c := by
  rw [Component.read?]
  generalize Text.dropEnds isSpace piece = text at written ⊢
  cases written with
  | number written means =>
    have reads := Numeral.read?_of_written written .nothing
    rw [List.append_nil] at reads
    rw [reads, (Numeral.means_iff written).mp means]
  | percentage written means =>
    rw [Numeral.read?_of_written written (.percent []), (Numeral.means_iff written).mp means]
    rfl

/-- A piece is a component between blanks. -/
theorem Component.read?_eq_some_iff {piece : List Char} {c : Component} :
    Component.read? piece = some c ↔
      ∃ before text after, piece = before ++ (text ++ after) ∧ (∀ b ∈ before, isSpace b = true) ∧
        (∀ b ∈ after, isSpace b = true) ∧ c.Written text := by
  constructor
  · intro found
    obtain ⟨before, after, split, front, back⟩ := exists_dropEnds isSpace piece
    exact ⟨before, _, after, split, front, back, Component.written_of_read? found⟩
  · rintro ⟨before, text, after, rfl, front, back, written⟩
    have solid : ∀ d ∈ text, isSpace d = false :=
      fun d member => isSpace_of_isPart (Component.parts_of_written written d member)
    apply Component.read?_of_written
    rwa [dropEnds_of_solid front back solid (Component.ne_nil_of_written written)]

end

/-! ## Pieces between commas -/

section
variable {cs piece rest body : List Char} {others : List (List Char)}

theorem pieces_ne_nil (cs : List Char) : pieces cs ≠ [] := by
  cases cs with
  | nil => exact List.cons_ne_nil _ _
  | cons c cs =>
    rw [pieces]
    split
    · exact List.cons_ne_nil _ _
    · split <;> exact List.cons_ne_nil _ _

theorem pieces_cons {c : Char} (noComma : c ≠ ',') (split : pieces cs = piece :: others) :
    pieces (c :: cs) = (c :: piece) :: others := by
  rw [pieces, if_neg noComma, split]

theorem pieces_comma (noComma : ',' ∉ piece) (rest : List Char) :
    pieces (piece ++ ',' :: rest) = piece :: pieces rest := by
  induction piece with
  | nil => rw [List.nil_append, pieces, if_pos rfl]
  | cons c piece ih =>
    obtain ⟨first, noComma⟩ := List.ne_and_not_mem_of_not_mem_cons noComma
    exact pieces_cons first.symm (ih noComma)

theorem pieces_single (noComma : ',' ∉ piece) : pieces piece = [piece] := by
  induction piece with
  | nil => rfl
  | cons c piece ih =>
    obtain ⟨first, noComma⟩ := List.ne_and_not_mem_of_not_mem_cons noComma
    exact pieces_cons first.symm (ih noComma)

theorem pieces_eq_cons (split : pieces cs = piece :: others) :
    (others = [] ∧ cs = piece) ∨ ∃ rest, cs = piece ++ ',' :: rest ∧ pieces rest = others := by
  induction cs generalizing piece with
  | nil =>
    cases split
    exact .inl ⟨rfl, rfl⟩
  | cons c cs ih =>
    by_cases comma : c = ','
    · rw [pieces, if_pos comma] at split
      cases split
      exact .inr ⟨cs, by rw [comma, List.nil_append], rfl⟩
    cases inside : pieces cs with
    | nil => exact absurd inside (pieces_ne_nil cs)
    | cons first more =>
      rw [pieces_cons comma inside] at split
      cases split
      rcases ih inside with ⟨rfl, rfl⟩ | ⟨rest, rfl, more⟩
      · exact .inl ⟨rfl, rfl⟩
      · exact .inr ⟨rest, rfl, more⟩

/-! ## Lists of components -/

theorem noComma_of_spaces (spaces : ∀ b ∈ rest, isSpace b = true) : ',' ∉ rest := by
  intro member
  cases spaces ',' member

/-- What the blanks of a piece and its component were before comments became blanks. -/
theorem exists_gap {before text tail : List Char} {c : Component} (front : ∀ b ∈ before, isSpace b = true)
    (written : c.Written text) (split : uncomment false body = before ++ (text ++ tail)) :
    ∃ gap rest, body = gap ++ (text ++ rest) ∧ Gap gap ∧ uncomment false rest = tail := by
  have some : text ++ tail ≠ [] := List.append_ne_nil_of_left_ne_nil (Component.ne_nil_of_written written) tail
  obtain ⟨gap, more, rfl, isGap, left⟩ := gap_of_uncomment front some split
  obtain ⟨rest, rfl, remains⟩ := plain_of_uncomment (Component.not_mem_of_written written rfl) left
  exact ⟨gap, rest, rfl, isGap, remains⟩

theorem lists_of_pieces {parts : List (List Char)} {cs : List Component} (split : pieces (uncomment false body) = parts)
    (found : parts.mapM Component.read? = some cs) : Lists body cs := by
  induction parts generalizing body cs with
  | nil => exact absurd split (pieces_ne_nil _)
  -- the piece is taken off the front of the body, gap by gap, and the comma after it comes from a comma
  | cons piece parts ih =>
    rw [List.mapM_cons] at found
    obtain ⟨c, isFirst, found⟩ := Option.bind_eq_some_iff.mp found
    obtain ⟨more, areRest, found⟩ := Option.bind_eq_some_iff.mp found
    cases found
    obtain ⟨before, text, after, rfl, front, back, written⟩ := Component.read?_eq_some_iff.mp isFirst
    rcases pieces_eq_cons split with ⟨rfl, whole⟩ | ⟨tail, whole, behind⟩
    · obtain ⟨gap, rest, rfl, isGap, left⟩ := exists_gap front written whole
      cases areRest
      exact .last isGap written (lastGap_of_uncomment back left)
    · rw [List.append_assoc, List.append_assoc] at whole
      obtain ⟨gap, afterText, rfl, isGap, left⟩ := exists_gap front written whole
      obtain ⟨gapAfter, fromComma, rfl, isGapAfter, left⟩ := gap_of_uncomment back (List.cons_ne_nil _ _) left
      have comma : uncomment false fromComma = [','] ++ tail := left
      obtain ⟨rest, rfl, remains⟩ := plain_of_uncomment (by decide) comma
      rw [← remains] at behind
      exact .more isGap written isGapAfter (ih behind areRest)

theorem pieces_of_lists {cs : List Component} (lists : Lists body cs) :
    (pieces (uncomment false body)).mapM Component.read? = some cs := by
  induction lists with
  | @last before text after c isGap written isLast =>
    obtain ⟨blanks, front, left⟩ := uncomment_gap isGap (text ++ after)
    have back := uncomment_lastGap isLast
    have noComma : ',' ∉ blanks ++ (text ++ uncomment false after) := by
      simp only [List.mem_append, not_or]
      exact ⟨noComma_of_spaces front, Component.not_mem_of_written written rfl, noComma_of_spaces back⟩
    rw [left, uncomment_plain (Component.not_mem_of_written written rfl), pieces_single noComma, List.mapM_cons,
      Component.read?_eq_some_iff.mpr ⟨blanks, text, _, rfl, front, back, written⟩]
    rfl
  | @more before text after rest c cs isGap written isGapAfter _ ih =>
    obtain ⟨blanks, front, left⟩ := uncomment_gap isGap (text ++ (after ++ ',' :: rest))
    obtain ⟨blanksAfter, back, leftAfter⟩ := uncomment_gap isGapAfter (',' :: rest)
    have noComma : ',' ∉ blanks ++ (text ++ blanksAfter) := by
      simp only [List.mem_append, not_or]
      exact ⟨noComma_of_spaces front, Component.not_mem_of_written written rfl, noComma_of_spaces back⟩
    have comma : uncomment false (',' :: rest) = ',' :: uncomment false rest := rfl
    have whole : uncomment false (before ++ (text ++ (after ++ ',' :: rest))) =
        (blanks ++ (text ++ blanksAfter)) ++ ',' :: uncomment false rest := by
      rw [left, uncomment_plain (Component.not_mem_of_written written rfl), leftAfter, comma]
      simp only [List.append_assoc]
    rw [whole, pieces_comma noComma, List.mapM_cons,
      Component.read?_eq_some_iff.mpr ⟨blanks, text, blanksAfter, rfl, front, back, written⟩, ih]
    rfl

/-! ## The colour of a list -/

theorem Component.gives_iff {c : Component} {b : UInt8} : c.Gives b ↔ b = c.channel := by
  constructor
  · rintro (_ | _) <;> rfl
  · rintro rfl
    cases c with
    | number v => exact .level v
    | percentage v => exact .share v

theorem Component.givesAlpha_iff {c : Component} {b : UInt8} : c.GivesAlpha b ↔ b = c.alpha := by
  constructor
  · rintro (_ | _) <;> rfl
  · rintro rfl
    cases c with
    | number v => exact .level v
    | percentage v => exact .share v

theorem Component.gives_channel (c : Component) : c.Gives c.channel := gives_iff.mpr rfl

theorem Component.givesAlpha_alpha (c : Component) : c.GivesAlpha c.alpha := givesAlpha_iff.mpr rfl

theorem ofComponents?_eq_some_iff {cs : List Component} {color : Color} :
    ofComponents? cs = some color ↔ Paints cs color := by
  constructor
  · intro found
    unfold ofComponents? at found
    split at found
    next r g b =>
      cases found
      exact .three r.gives_channel g.gives_channel b.gives_channel
    next r g b a =>
      cases found
      exact .four r.gives_channel g.gives_channel b.gives_channel a.givesAlpha_alpha
    · cases found
  · intro paints
    cases paints with
    | three red green blue =>
      rw [Component.gives_iff.mp red, Component.gives_iff.mp green, Component.gives_iff.mp blue]
      rfl
    | four red green blue alpha =>
      rw [Component.gives_iff.mp red, Component.gives_iff.mp green, Component.gives_iff.mp blue,
        Component.givesAlpha_iff.mp alpha]
      rfl

theorem decode?_eq_some_iff {color : Color} : decode? body = some color ↔ ∃ cs, Lists body cs ∧ Paints cs color := by
  rw [decode?, Option.bind_eq_some_iff]
  constructor
  · rintro ⟨cs, found, colored⟩
    exact ⟨cs, lists_of_pieces rfl found, ofComponents?_eq_some_iff.mp colored⟩
  · rintro ⟨cs, lists, paints⟩
    exact ⟨cs, pieces_of_lists lists, ofComponents?_eq_some_iff.mpr paints⟩

theorem decode?_eq_none_iff : decode? body = none ↔ ∀ cs color, Lists body cs → ¬ Paints cs color := by
  rw [Option.eq_none_iff_forall_ne_some]
  constructor
  · exact fun undecoded cs color lists paints => undecoded color (decode?_eq_some_iff.mpr ⟨cs, lists, paints⟩)
  · intro unpainted color decoded
    obtain ⟨cs, lists, paints⟩ := decode?_eq_some_iff.mp decoded
    exact unpainted cs color lists paints

end

/-! ## The form -/

theorem isName_iff {name : List Char} :
    isName name = true ↔ name.map Char.toLower = ['r', 'g', 'b'] ∨ name.map Char.toLower = ['r', 'g', 'b', 'a'] := by
  simp [isName]

theorem takeWhile_name {name : List Char} (closed : '(' ∉ name) (rest : List Char) :
    (name ++ '(' :: rest).takeWhile (· != '(') = name ∧ (name ++ '(' :: rest).dropWhile (· != '(') = '(' :: rest := by
  have others : ∀ c ∈ name, (c != '(') = true := by
    intro c member
    rw [bne_iff_ne]
    rintro rfl
    exact closed member
  rw [List.takeWhile_append_of_pos others, List.dropWhile_append_of_pos others]
  simp

theorem body?_eq_some_iff {s : String} {body : List Char} : body? s.toList = some body ↔ Encloses s body := by
  constructor
  · intro found
    unfold body? at found
    split at found
    · cases found
    next first rest opens =>
      split at found
      next accepted =>
        cases found
        obtain ⟨named, ends⟩ := Bool.and_eq_true _ _ ▸ accepted
        obtain rfl : first = '(' := by
          have stops := List.head_dropWhile_not (· != '(') (l := s.toList) (by rw [opens]; exact List.cons_ne_nil _ _)
          simpa [opens] using stops
        refine ⟨s.toList.takeWhile (· != '('), ?_, ?_, isName_iff.mp named⟩
        · have last := List.dropLast_append_getLast? ')' (Option.mem_def.mpr (beq_iff_eq.mp ends))
          rw [last, ← opens, List.takeWhile_append_dropWhile]
        · intro member
          simpa using List.mem_takeWhile_imp member
      · cases found
  · rintro ⟨name, split, closed, named⟩
    obtain ⟨front, opens⟩ := takeWhile_name closed (body ++ [')'])
    rw [body?, split, opens, front]
    simp [isName_iff.mpr named]

theorem describes_parse? (s : String) : Describes s (parse? s) := by
  rw [parse?]
  cases form : body? s.toList with
  | none =>
    apply Describes.other
    intro body encloses
    rw [body?_eq_some_iff.mpr encloses] at form
    cases form
  | some body =>
    have encloses := body?_eq_some_iff.mp form
    rw [Option.map_some]
    cases decoded : decode? body with
    | some color =>
      obtain ⟨cs, lists, paints⟩ := decode?_eq_some_iff.mp decoded
      exact .color encloses lists paints
    | none => exact .refused encloses (decode?_eq_none_iff.mp decoded)

theorem parse?_of_describes {s : String} {result : Option (Except ColorError Color)} (describes : Describes s result) :
    parse? s = result := by
  cases describes with
  | other alien =>
    rw [parse?, Option.map_eq_none_iff, Option.eq_none_iff_forall_ne_some]
    exact fun body form => alien body (body?_eq_some_iff.mp form)
  | color encloses lists paints =>
    rw [parse?, body?_eq_some_iff.mpr encloses, Option.map_some, decode?_eq_some_iff.mpr ⟨_, lists, paints⟩]
  | refused encloses unpainted =>
    rw [parse?, body?_eq_some_iff.mpr encloses, Option.map_some, decode?_eq_none_iff.mpr unpainted]

/-- Main statement: a text gives what the grammar says of it, and nothing else. -/
theorem parse?_eq_iff_describes (s : String) (result : Option (Except ColorError Color)) :
    parse? s = result ↔ Describes s result := by
  constructor
  · rintro rfl
    exact describes_parse? s
  · exact parse?_of_describes

example : parse? "RGBA(1e1,/*,*/+.5e1 ,100%, 2/*,3)" = some (.ok ⟨10, 5, 255, 2⟩) := by decide +kernel

end ColorResolution.Functional
