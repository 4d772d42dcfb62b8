import ColorResolution.Proofs.Payload.Grammar

/-!
# Bodies that are plain texts

A JSON string, array or object begins with a mark of its own. So a body with any other first character is no document,
and it is resolved as it stands.
-/
namespace ColorResolution.Payload

section
variable {c : Char} {rest : List Char}

/-- Without a bracket in front the reader looks for a value without parts. -/
theorem readValue_of_head (depth : Nat) (solid : Json.isSpace c = false) (noArray : c ≠ '[') (noObject : c ≠ '\x7b') :
    Json.readValue depth (c :: rest) = (Json.readScalar (c :: rest)).toOption := by
  have stays : Json.skipSpace (c :: rest) = c :: rest := List.dropWhile_cons_of_neg (by simp [solid])
  unfold Json.readValue
  rw [stays]
  split <;> simp_all

theorem not_document_of_readLiteral? {v : Json.Value} {more : List Char}
    (reads : Json.readLiteral? c rest = some (.ok (v, more))) : ¬ Document v := by
  have word (value : Json.Value) (letters : List Char) (plain : ¬ Document value)
      (read : (Json.readWord letters rest).map (fun more => (value, more)) = .ok (v, more)) : ¬ Document v := by
    cases outcome : Json.readWord letters rest with
    | error fault => simp [outcome, Except.map] at read
    | ok left =>
      simp only [outcome, Except.map, Except.ok.injEq, Prod.mk.injEq] at read
      exact read.1 ▸ plain
  unfold Json.readLiteral? at reads
  split at reads
  · exact word .null _ (by rintro ⟨⟩) (Option.some.inj reads)
  · exact word (.boolean true) _ (by rintro ⟨⟩) (Option.some.inj reads)
  · exact word (.boolean false) _ (by rintro ⟨⟩) (Option.some.inj reads)
  · cases reads

/-- Without a quotation mark in front a value without parts is a number or a word. -/
theorem not_document_of_readScalar {v : Json.Value} {more : List Char} (noText : c ≠ '"')
    (reads : Json.readScalar (c :: rest) = .ok (v, more)) : ¬ Document v := by
  simp only [Json.readScalar, if_neg noText] at reads
  split at reads
  · cases outcome : Json.readNumeral (c :: rest) with
    | error fault => simp [outcome, Except.map] at reads
    | ok number =>
      simp only [outcome, Except.map, Except.ok.injEq, Prod.mk.injEq] at reads
      have plain : ¬ Document (.number number.1) := by rintro ⟨⟩
      exact reads.1 ▸ plain
  · cases outcome : Json.readLiteral? c rest with
    | none => simp [outcome] at reads
    | some word =>
      rw [outcome, Option.getD_some] at reads
      exact not_document_of_readLiteral? (outcome.trans (congrArg some reads))

end

theorem document?_eq_none {text : String} (noDocument : ∀ v, Json.read? text = some v → ¬ Document v) :
    document? text = none := by
  unfold document?
  split
  next s reads => exact absurd (.string s) (noDocument _ reads)
  next items reads => exact absurd (.array items) (noDocument _ reads)
  next members reads => exact absurd (.object members) (noDocument _ reads)
  · rfl

/-- A text with another first character than the three marks is no document. -/
theorem document?_of_head {text : String} {c : Char} {rest : List Char} (split : text.toList = c :: rest)
    (solid : Json.isSpace c = false) (noText : c ≠ '"') (noArray : c ≠ '[') (noObject : c ≠ '\x7b') :
    document? text = none := by
  apply document?_eq_none
  intro v reads
  rw [Json.read?, split, readValue_of_head _ solid noArray noObject] at reads
  cases outcome : Json.readScalar (c :: rest) with
  | error fault => simp [outcome, Except.toOption] at reads
  | ok found =>
    obtain ⟨value, more⟩ := found
    have same : value = v := by
      simp only [outcome, Except.toOption] at reads
      split at reads
      · exact Option.some.inj reads
      · cases reads
    exact same ▸ not_document_of_readScalar noText outcome

/-- A body that is no document is resolved as it stands. -/
theorem interpret_of_plain {text : String} (url : String) (r : Resolver) (some : Text.trim text ≠ "")
    (plain : document? (Text.trim text) = none) : interpret url text r = r.resolve (Text.trim text) := by
  have full : (Text.trim text).isEmpty = false := by simpa using some
  simp [interpret, full, plain]

end ColorResolution.Payload
