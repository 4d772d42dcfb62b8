import ColorResolution.Functional.Basic

/-!
# Blanks and comments

What is left of a text when every comment has become a blank. A comment ends at the first closing mark after its
opening, or reaches to the end. Main statements: what becomes nothing but blanks are blanks and comments, of which the
last one may be left open if nothing follows, and a piece without a blank is left as it stands.
-/
namespace ColorResolution.Functional

/-- The text holds no closing mark. -/
def Unclosed (cs : List Char) : Prop := ¬ ['*', '/'] <:+: cs

/-- Blanks and closed comments, in any order. -/
inductive Gap : List Char → Prop
  | nil : Gap []
  | blank {c : Char} {cs : List Char} : isSpace c = true → Gap cs → Gap (c :: cs)
  | comment {inner cs : List Char} : Unclosed inner → Gap cs → Gap ('/' :: '*' :: (inner ++ '*' :: '/' :: cs))

/-- At the end of a text the last comment may be left open. -/
inductive LastGap : List Char → Prop
  | closed {cs : List Char} : Gap cs → LastGap cs
  | opened {cs inner : List Char} : Gap cs → Unclosed inner → LastGap (cs ++ '/' :: '*' :: inner)

section
variable {c : Char} {cs inner text rest tail blanks body gap : List Char}

/-! ## Inside a comment -/

theorem unclosed_cons_iff : Unclosed (c :: cs) ↔ Unclosed cs ∧ ¬ (c = '*' ∧ ∃ more, cs = '/' :: more) := by
  have marked : ['*', '/'] <+: c :: cs ↔ c = '*' ∧ ∃ more, cs = '/' :: more := by
    rw [List.cons_prefix_cons, eq_comm]
    refine and_congr_right fun _ => ?_
    cases cs with
    | nil => simp
    | cons d ds => simp [List.cons_prefix_cons, eq_comm]
  rw [Unclosed, Unclosed, List.infix_cons_iff, marked, not_or, and_comm]

theorem uncomment_inside (stays : ¬ (c = '*' ∧ ∃ more, cs = '/' :: more)) :
    uncomment true (c :: cs) = uncomment true cs := by
  rw [uncomment]
  intro more star slash
  exact stays ⟨star, more, slash⟩

/-- The two characters of the mark cannot overlap the text before it. -/
theorem not_mark_of_unclosed (unclosed : Unclosed (c :: inner)) :
    ¬ (c = '*' ∧ ∃ more, inner ++ '*' :: '/' :: rest = '/' :: more) := by
  rintro ⟨star, more, slash⟩
  cases inner with
  | nil => cases slash
  | cons d inner =>
    have first : d = '/' := (List.cons.inj slash).1
    exact (unclosed_cons_iff.mp unclosed).2 ⟨star, inner, by rw [first]⟩

theorem uncomment_closed (unclosed : Unclosed inner) :
    uncomment true (inner ++ '*' :: '/' :: rest) = uncomment false rest := by
  induction inner with
  | nil => rfl
  | cons c inner ih =>
    rw [List.cons_append, uncomment_inside (not_mark_of_unclosed unclosed), ih (unclosed_cons_iff.mp unclosed).1]

theorem uncomment_unclosed (unclosed : Unclosed inner) : uncomment true inner = [] := by
  induction inner with
  | nil => rfl
  | cons c inner ih =>
    obtain ⟨inside, stays⟩ := unclosed_cons_iff.mp unclosed
    rw [uncomment_inside stays, ih inside]

/-- A comment is closed by its first mark or never. -/
theorem closed_or_unclosed (cs : List Char) :
    (∃ inner rest, cs = inner ++ '*' :: '/' :: rest ∧ Unclosed inner) ∨ Unclosed cs := by
  induction cs with
  | nil =>
    right
    simp [Unclosed]
  | cons c cs ih =>
    by_cases mark : c = '*' ∧ ∃ more, cs = '/' :: more
    · obtain ⟨rfl, more, rfl⟩ := mark
      exact .inl ⟨[], more, rfl, by simp [Unclosed]⟩
    rcases ih with ⟨inner, rest, rfl, unclosed⟩ | unclosed
    · refine .inl ⟨c :: inner, rest, rfl, unclosed_cons_iff.mpr ⟨unclosed, ?_⟩⟩
      rintro ⟨star, more, rfl⟩
      exact mark ⟨star, more ++ '*' :: '/' :: rest, rfl⟩
    · exact .inr (unclosed_cons_iff.mpr ⟨unclosed, mark⟩)

/-! ## Outside of comments -/

theorem uncomment_outside (plain : ¬ (c = '/' ∧ ∃ more, cs = '*' :: more)) :
    uncomment false (c :: cs) = c :: uncomment false cs := by
  rw [uncomment]
  intro more slash star
  exact plain ⟨slash, more, star⟩

/-- The front of a text whose first character has become `c`: that character itself, or a comment. -/
theorem uncomment_eq_cons (split : uncomment false body = c :: tail) :
    (∃ rest, body = c :: rest ∧ uncomment false rest = tail) ∨
      (∃ inner rest, c = ' ' ∧ Unclosed inner ∧ body = '/' :: '*' :: (inner ++ '*' :: '/' :: rest) ∧
        uncomment false rest = tail) ∨
      ∃ inner, c = ' ' ∧ tail = [] ∧ Unclosed inner ∧ body = '/' :: '*' :: inner := by
  cases body with
  | nil => cases split
  | cons d rest =>
    by_cases starts : d = '/' ∧ ∃ more, rest = '*' :: more
    · obtain ⟨rfl, more, rfl⟩ := starts
      have blank : ' ' :: uncomment true more = c :: tail := split
      obtain ⟨isBlank, left⟩ := List.cons.inj blank
      rcases closed_or_unclosed more with ⟨inner, rest, rfl, unclosed⟩ | unclosed
      · rw [uncomment_closed unclosed] at left
        exact .inr (.inl ⟨inner, rest, isBlank.symm, unclosed, rfl, left⟩)
      · rw [uncomment_unclosed unclosed] at left
        exact .inr (.inr ⟨more, isBlank.symm, left.symm, unclosed, rfl⟩)
    · rw [uncomment_outside starts] at split
      obtain ⟨same, left⟩ := List.cons.inj split
      exact .inl ⟨rest, by rw [same], left⟩

theorem eq_nil_of_uncomment (nothing : uncomment false body = []) : body = [] := by
  cases body with
  | nil => rfl
  | cons d rest =>
    by_cases starts : d = '/' ∧ ∃ more, rest = '*' :: more
    · obtain ⟨rfl, more, rfl⟩ := starts
      cases nothing
    · rw [uncomment_outside starts] at nothing
      cases nothing

/-! ## Gaps -/

theorem uncomment_gap (isGap : Gap gap) (rest : List Char) :
    ∃ blanks, (∀ b ∈ blanks, isSpace b = true) ∧ uncomment false (gap ++ rest) = blanks ++ uncomment false rest := by
  induction isGap with
  | nil => exact ⟨[], by simp, rfl⟩
  | @blank c cs space _ ih =>
    obtain ⟨blanks, spaces, left⟩ := ih
    have noSlash : c ≠ '/' := by
      rintro rfl
      cases space
    refine ⟨c :: blanks, List.forall_mem_cons.mpr ⟨space, spaces⟩, ?_⟩
    rw [List.cons_append, uncomment_outside fun starts => noSlash starts.1, left, List.cons_append]
  | @comment inner cs unclosed _ ih =>
    obtain ⟨blanks, spaces, left⟩ := ih
    refine ⟨' ' :: blanks, List.forall_mem_cons.mpr ⟨rfl, spaces⟩, ?_⟩
    simp only [List.cons_append, List.append_assoc]
    rw [uncomment, uncomment_closed unclosed, left]

theorem uncomment_lastGap (isGap : LastGap gap) : ∀ b ∈ uncomment false gap, isSpace b = true := by
  cases isGap with
  | closed isGap =>
    obtain ⟨blanks, spaces, left⟩ := uncomment_gap isGap []
    rw [List.append_nil] at left
    rw [left, uncomment, List.append_nil]
    exact spaces
  | opened isGap unclosed =>
    obtain ⟨blanks, spaces, left⟩ := uncomment_gap isGap _
    rw [left, uncomment, uncomment_unclosed unclosed]
    intro b member
    rcases List.mem_append.mp member with before | last
    · exact spaces b before
    · rw [List.mem_singleton.mp last]
      rfl

theorem LastGap.blank (space : isSpace c = true) (isGap : LastGap cs) : LastGap (c :: cs) := by
  cases isGap with
  | closed isGap => exact .closed (.blank space isGap)
  | opened isGap unclosed => exact .opened (.blank space isGap) unclosed

theorem LastGap.comment (unclosed : Unclosed inner) (isGap : LastGap cs) :
    LastGap ('/' :: '*' :: (inner ++ '*' :: '/' :: cs)) := by
  cases isGap with
  | closed isGap => exact .closed (.comment unclosed isGap)
  | @opened gap last isGap unclosedLast =>
    have whole := LastGap.opened (.comment unclosed isGap) unclosedLast
    simpa only [List.cons_append, List.append_assoc] using whole

/-- Blanks before something that stays come from a gap. -/
theorem gap_of_uncomment (spaces : ∀ b ∈ blanks, isSpace b = true) (some : tail ≠ [])
    (split : uncomment false body = blanks ++ tail) :
    ∃ gap rest, body = gap ++ rest ∧ Gap gap ∧ uncomment false rest = tail := by
  induction blanks generalizing body with
  | nil => exact ⟨[], body, rfl, .nil, split⟩
  | cons b blanks ih =>
    obtain ⟨space, spaces⟩ := List.forall_mem_cons.mp spaces
    rcases uncomment_eq_cons split with ⟨rest, rfl, left⟩ | ⟨inner, rest, _, unclosed, rfl, left⟩ | ⟨_, _, none, _⟩
    · obtain ⟨gap, rest, rfl, isGap, left⟩ := ih spaces left
      exact ⟨b :: gap, rest, rfl, .blank space isGap, left⟩
    · obtain ⟨gap, rest, rfl, isGap, left⟩ := ih spaces left
      exact ⟨'/' :: '*' :: (inner ++ '*' :: '/' :: gap), rest, by simp, .comment unclosed isGap, left⟩
    -- an open comment leaves nothing, but something is left
    · exact absurd (List.append_eq_nil_iff.mp none).2 some

theorem lastGap_of_uncomment (spaces : ∀ b ∈ blanks, isSpace b = true) (split : uncomment false body = blanks) :
    LastGap body := by
  induction blanks generalizing body with
  | nil =>
    rw [eq_nil_of_uncomment split]
    exact .closed .nil
  | cons b blanks ih =>
    obtain ⟨space, spaces⟩ := List.forall_mem_cons.mp spaces
    rcases uncomment_eq_cons split with ⟨rest, rfl, left⟩ | ⟨inner, rest, _, unclosed, rfl, left⟩ |
      ⟨inner, _, _, unclosed, rfl⟩
    · exact .blank space (ih spaces left)
    · exact .comment unclosed (ih spaces left)
    · exact .opened .nil unclosed

/-! ## Pieces that stay -/

theorem uncomment_plain (plain : '/' ∉ text) (rest : List Char) :
    uncomment false (text ++ rest) = text ++ uncomment false rest := by
  induction text with
  | nil => rfl
  | cons c text ih =>
    obtain ⟨noSlash, plain⟩ := List.ne_and_not_mem_of_not_mem_cons plain
    rw [List.cons_append, uncomment_outside fun starts => noSlash starts.1.symm, ih plain, List.cons_append]

theorem plain_of_uncomment (solid : ' ' ∉ text) (split : uncomment false body = text ++ tail) :
    ∃ rest, body = text ++ rest ∧ uncomment false rest = tail := by
  induction text generalizing body with
  | nil => exact ⟨body, rfl, split⟩
  | cons c text ih =>
    obtain ⟨noBlank, solid⟩ := List.ne_and_not_mem_of_not_mem_cons solid
    rcases uncomment_eq_cons split with ⟨rest, rfl, left⟩ | ⟨_, _, isBlank, _⟩ | ⟨_, isBlank, _⟩
    · obtain ⟨last, split, becomes⟩ := ih solid left
      exact ⟨last, by rw [split, List.cons_append], becomes⟩
    · exact absurd isBlank.symm noBlank
    · exact absurd isBlank.symm noBlank

end

end ColorResolution.Functional
