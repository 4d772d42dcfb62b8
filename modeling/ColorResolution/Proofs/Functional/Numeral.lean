import ColorResolution.Functional.Numeral
import Mathlib.Data.List.TakeWhile

/-!
# How numerals are written

The texts of a numeral, as a relation on its parts, beside the reader that takes the longest numeral at the front of a
text. What is read was written there, and before nothing or a percent sign the reader finds all that is written.
-/
namespace ColorResolution.Functional

/-- A sign, true for minus; plus may be left out. -/
inductive Sign : Bool → List Char → Prop
  | none : Sign false []
  | plus : Sign false ['+']
  | minus : Sign true ['-']

def Digits (ds : List Char) : Prop := ∀ d ∈ ds, d.isDigit = true

/-- A point needs at least one digit after it. -/
inductive Fraction : List Char → List Char → Prop
  | none : Fraction [] []
  | point {ds : List Char} : ds ≠ [] → Digits ds → Fraction ds ('.' :: ds)

inductive Power : Option (Bool × List Char) → List Char → Prop
  | none : Power none []
  | raised {letter : Char} {negative : Bool} {sign ds : List Char} : letter = 'e' ∨ letter = 'E' → Sign negative sign →
    ds ≠ [] → Digits ds → Power (some (negative, ds)) (letter :: (sign ++ ds))

/-- A numeral is written as sign, digits, fraction and power; the digits or the whole fraction may be missing. -/
inductive Numeral.Written : Numeral → List Char → Prop
  | parts {negative : Bool} {whole fraction : List Char} {power : Option (Bool × List Char)}
    {sign point raised : List Char} : Sign negative sign → Digits whole → Fraction fraction point →
    whole ≠ [] ∨ fraction ≠ [] → Power power raised →
    Numeral.Written ⟨negative, whole, fraction, power⟩ (sign ++ (whole ++ (point ++ raised)))

/-- The texts before which every numeral ends. -/
inductive Stops : List Char → Prop
  | nothing : Stops []
  | percent (rest : List Char) : Stops ('%' :: rest)

/-- The text does not begin with a character of the class. -/
def Avoids (p : Char → Bool) (cs : List Char) : Prop := ∀ c rest, cs = c :: rest → p c = false

def isSign (c : Char) : Bool := c == '+' || c == '-'

def isPoint (c : Char) : Bool := c == '.'

section
variable {p : Char → Bool} {cs ds rest sign point raised : List Char} {negative : Bool}

theorem avoids_nil : Avoids p [] := by
  rintro c rest ⟨⟩

theorem avoids_cons {c : Char} (other : p c = false) : Avoids p (c :: rest) := by
  rintro _ _ ⟨⟩
  exact other

theorem isSign_of_isDigit {c : Char} (digit : c.isDigit = true) : isSign c = false := by
  rw [Bool.eq_false_iff]
  intro sign
  rcases Bool.or_eq_true _ _ ▸ sign with plus | minus
  · rw [beq_iff_eq.mp plus] at digit
    cases digit
  · rw [beq_iff_eq.mp minus] at digit
    cases digit

theorem avoids_digits (digits : Digits ds) (more : ds ≠ [] ∨ Avoids isSign rest) : Avoids isSign (ds ++ rest) := by
  cases ds with
  | nil => exact more.resolve_left (fun filled => filled rfl)
  | cons d ds => exact avoids_cons (isSign_of_isDigit (digits d List.mem_cons_self))

/-! ## A run of digits -/

theorem takeWhile_digits (digits : Digits ds) (stop : Avoids Char.isDigit rest) :
    (ds ++ rest).takeWhile Char.isDigit = ds := by
  rw [List.takeWhile_append_of_pos digits]
  cases rest with
  | nil => simp
  | cons c rest => simp [stop c rest rfl]

theorem dropWhile_digits (digits : Digits ds) (stop : Avoids Char.isDigit rest) :
    (ds ++ rest).dropWhile Char.isDigit = rest := by
  rw [List.dropWhile_append_of_pos digits]
  cases rest with
  | nil => rfl
  | cons c rest => simp [stop c rest rfl]

theorem digits_takeWhile (cs : List Char) : Digits (cs.takeWhile Char.isDigit) := fun _ member =>
  List.mem_takeWhile_imp member

/-! ## Signs -/

theorem readSign_of_sign (written : Sign negative sign) (stop : Avoids isSign rest) :
    Text.readSign (sign ++ rest) = (negative, rest) := by
  cases written with
  | plus => rfl
  | minus => rfl
  | none =>
    rw [List.nil_append]
    unfold Text.readSign
    split
    next more => cases stop _ _ rfl
    next more => cases stop _ _ rfl
    next => rfl

theorem sign_of_readSign (cs : List Char) :
    ∃ sign, cs = sign ++ (Text.readSign cs).2 ∧ Sign (Text.readSign cs).1 sign := by
  unfold Text.readSign
  split
  · exact ⟨['+'], rfl, .plus⟩
  · exact ⟨['-'], rfl, .minus⟩
  · exact ⟨[], rfl, .none⟩

/-! ## Fractions -/

theorem readFraction_of_fraction (written : Fraction ds point) (digit : Avoids Char.isDigit rest)
    (noPoint : Avoids isPoint rest) : readFraction (point ++ rest) = (ds, rest) := by
  cases written with
  | none =>
    rw [List.nil_append]
    unfold readFraction
    split
    next more => cases noPoint _ _ rfl
    next => rfl
  | point some digits =>
    rw [List.cons_append, readFraction, takeWhile_digits digits digit, dropWhile_digits digits digit,
      if_neg (by simpa using some)]

theorem fraction_of_readFraction (cs : List Char) :
    ∃ point, cs = point ++ (readFraction cs).2 ∧ Fraction (readFraction cs).1 point := by
  unfold readFraction
  split
  next after =>
    split
    · exact ⟨[], rfl, .none⟩
    next some =>
      refine ⟨'.' :: after.takeWhile Char.isDigit, ?_, .point ?_ (digits_takeWhile after)⟩
      · rw [List.cons_append, List.takeWhile_append_dropWhile]
      · exact fun empty => some (List.isEmpty_iff.mpr empty)
  · exact ⟨[], rfl, .none⟩

/-! ## Powers -/

theorem readPower_of_power {power : Option (Bool × List Char)} (written : Power power raised) (stop : Stops rest) :
    readPower (raised ++ rest) = (power, rest) := by
  cases written with
  | none => cases stop <;> rfl
  | @raised letter negative sign ds isLetter written some digits =>
    have digit : Avoids Char.isDigit rest := by
      cases stop with
      | nothing => exact avoids_nil
      | percent rest => exact avoids_cons rfl
    have unsigned : Text.readSign (sign ++ (ds ++ rest)) = (negative, ds ++ rest) :=
      readSign_of_sign written (avoids_digits digits (.inl some))
    have exponent : (letter == 'e' || letter == 'E') = true := by simpa using isLetter
    rw [List.cons_append, List.append_assoc, readPower, unsigned]
    simp [takeWhile_digits digits digit, dropWhile_digits digits digit, exponent, some]

theorem power_of_readPower (cs : List Char) :
    ∃ raised, cs = raised ++ (readPower cs).2 ∧ Power (readPower cs).1 raised := by
  cases cs with
  | nil => exact ⟨[], rfl, .none⟩
  | cons letter cs =>
    obtain ⟨sign, split, written⟩ := sign_of_readSign cs
    simp only [readPower]
    split
    next exponent =>
      obtain ⟨isLetter, some⟩ := Bool.and_eq_true _ _ ▸ exponent
      refine ⟨letter :: (sign ++ (Text.readSign cs).2.takeWhile Char.isDigit), ?_,
        .raised (by simpa using isLetter) written (by simpa using some) (digits_takeWhile _)⟩
      rw [List.cons_append, List.append_assoc, List.takeWhile_append_dropWhile, ← split]
    · exact ⟨[], rfl, .none⟩

end

/-! ## Whole numerals -/

section
variable {cs text rest : List Char} {n : Numeral}

theorem avoids_raised {p : Char → Bool} {power : Option (Bool × List Char)} {raised : List Char}
    (written : Power power raised) (stop : Stops rest) (small : p 'e' = false) (large : p 'E' = false)
    (percent : p '%' = false) : Avoids p (raised ++ rest) := by
  cases written with
  | none =>
    cases stop with
    | nothing => exact avoids_nil
    | percent rest => exact avoids_cons percent
  | raised isLetter =>
    rcases isLetter with rfl | rfl
    · exact avoids_cons small
    · exact avoids_cons large

theorem avoids_point {p : Char → Bool} {ds point : List Char} (written : Fraction ds point) (none : p '.' = false)
    (stop : Avoids p rest) : Avoids p (point ++ rest) := by
  cases written with
  | none => exact stop
  | point => exact avoids_cons none

/-- The longest numeral is the whole of what is written, as nothing after it belongs to a numeral. -/
theorem Numeral.read?_of_written (written : n.Written text) (stop : Stops rest) :
    Numeral.read? (text ++ rest) = some (n, rest) := by
  cases written with
  | @parts negative whole fraction power sign point raised isSigned digits isFraction some isPower =>
    -- each part ends where the next one begins, since the parts begin with characters of their own
    have noDigit : Avoids Char.isDigit (raised ++ rest) := avoids_raised isPower stop rfl rfl rfl
    have noPoint : Avoids isPoint (raised ++ rest) := avoids_raised isPower stop rfl rfl rfl
    have afterWhole : Avoids Char.isDigit (point ++ (raised ++ rest)) := avoids_point isFraction rfl noDigit
    have unsigned : Avoids isSign (whole ++ (point ++ (raised ++ rest))) := by
      apply avoids_digits digits
      right
      exact avoids_point isFraction rfl (avoids_raised isPower stop rfl rfl rfl)
    have filled : (whole.isEmpty && fraction.isEmpty) = false := by
      rcases some with some | some <;> simp [some]
    simp only [List.append_assoc, Numeral.read?, readSign_of_sign isSigned unsigned, takeWhile_digits digits afterWhole,
      dropWhile_digits digits afterWhole, readFraction_of_fraction isFraction noDigit noPoint, filled,
      readPower_of_power isPower stop]
    rfl

theorem Numeral.written_of_read? (found : Numeral.read? cs = some (n, rest)) :
    ∃ text, cs = text ++ rest ∧ n.Written text := by
  obtain ⟨sign, splitSign, isSigned⟩ := sign_of_readSign cs
  obtain ⟨point, splitPoint, isFraction⟩ := fraction_of_readFraction ((Text.readSign cs).2.dropWhile Char.isDigit)
  obtain ⟨raised, splitPower, isPower⟩ :=
    power_of_readPower (readFraction ((Text.readSign cs).2.dropWhile Char.isDigit)).2
  simp only [Numeral.read?] at found
  split at found
  · cases found
  next filled =>
    cases found
    refine ⟨_, ?_, .parts isSigned (digits_takeWhile _) isFraction ?_ isPower⟩
    · rw [List.append_assoc, List.append_assoc, List.append_assoc, ← splitPower, ← splitPoint,
        List.takeWhile_append_dropWhile, ← splitSign]
    · by_contra neither
      obtain ⟨noWhole, noFraction⟩ := not_or.mp neither
      exact filled (by simp [not_not.mp noWhole, not_not.mp noFraction])

end

end ColorResolution.Functional
