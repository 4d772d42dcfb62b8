import ColorResolution.Source
import ColorResolution.Fetch.Web
import ColorResolution.Proofs.Fetch.Scheme
import ColorResolution.Proofs.Resolver.Shapes

/-!
# Sources and their fetches

An input is a URL if the text without the blanks at its ends has a scheme that is fetched. Main statement: the fetcher,
which looks for the first mark of the text, never refuses the scheme of such a URL; every other text is refused for its
scheme or is a bare path.
-/
namespace ColorResolution.Source

open Url

/-- What the fetcher answers to the text of a source. -/
structure Answered (config : FetchConfig) (client : Client) (files : FileSystem) (source : Source) : Prop where
  url : ∀ text, source = .url text →
    ∀ other, fetch config client.transport files text ≠ .error (.unsupportedScheme other)
  foreign : ∀ text, source = .token text → Marked text →
    fetch config client.transport files text = .error (.unsupportedScheme text)
  bare : ∀ text, source = .token text → ¬ Marked text →
    Route.ofUrl text = .file text ∧ fetch config client.transport files text =
      if config.allowFiles then (readFileText files text).mapError (.io text) else .error (.forbidden text)

section
variable {config : FetchConfig} {client : Client} {files : FileSystem} {input text : String}

theorem startsAsUrl_iff : startsAsUrl text.toList = true ↔ ∃ name ∈ names, Of name text := by
  have starts : urlStarts = names.map (· ++ String.ofList mark) := by decide
  have plain : ∀ name ∈ names, ':' ∉ name.toList := by decide
  rw [startsAsUrl, starts, List.any_map, List.any_eq_true]
  refine exists_congr fun name => and_congr_right fun member => ?_
  rw [Function.comp_apply, List.isPrefixOf_iff_prefix, String.toList_append, String.toList_ofList,
    of_iff_prefix (plain name member)]

theorem classify_of_named (named : ∃ name ∈ names, Of name (Text.trim input)) :
    classify input = .url (Text.trim input) := by
  simp only [classify, startsAsUrl_iff.mpr named, if_true]

theorem classify_of_foreign (foreign : ∀ name ∈ names, ¬ Of name (Text.trim input)) :
    classify input = .token (Text.trim input) := by
  have noStart : ¬ startsAsUrl (Text.trim input).toList = true := by
    rw [startsAsUrl_iff]
    rintro ⟨name, member, named⟩
    exact foreign name member named
  simp only [classify, noStart, Bool.false_eq_true, if_false]

theorem classify_eq_url_iff : classify input = .url text ↔ text = Text.trim input ∧ ∃ name ∈ names, Of name text := by
  by_cases named : ∃ name ∈ names, Of name (Text.trim input)
  · rw [classify_of_named named, Source.url.injEq, eq_comm]
    exact (and_iff_left_of_imp fun same => same ▸ named).symm
  · rw [classify_of_foreign (by simpa using named)]
    refine iff_of_false (by simp) ?_
    rintro ⟨rfl, again⟩
    exact named again

theorem classify_eq_token_iff :
    classify input = .token text ↔ text = Text.trim input ∧ ∀ name ∈ names, ¬ Of name text := by
  by_cases foreign : ∀ name ∈ names, ¬ Of name (Text.trim input)
  · rw [classify_of_foreign foreign, Source.token.injEq, eq_comm]
    exact (and_iff_left_of_imp fun same => same ▸ foreign).symm
  · rw [classify_of_named (by simpa using foreign)]
    refine iff_of_false (by simp) ?_
    rintro ⟨rfl, again⟩
    exact foreign again

theorem text_classify (input : String) : (classify input).text = Text.trim input := by
  by_cases named : ∃ name ∈ names, Of name (Text.trim input)
  · rw [classify_of_named named, Source.text]
  · rw [classify_of_foreign (by simpa using named), Source.text]

theorem classify_text (input : String) : classify (classify input).text = classify input := by
  rw [text_classify, classify, classify, Text.trim_trim]

/-- A text with a scheme that is fetched goes to the client or is a path. -/
theorem fetch_named {name : String} (member : name ∈ names) (named : Of name text) (other : String) :
    fetch config client.transport files text ≠ .error (.unsupportedScheme other) := by
  have either : name = "http" ∨ name = "https" ∨ name = "file" := by simpa [names] using member
  rcases either with rfl | rfl | rfl
  · rw [fetch_of_web (.inl named)]
    exact client.transport_ne_unsupportedScheme text other
  · rw [fetch_of_web (.inr named)]
    exact client.transport_ne_unsupportedScheme text other
  · rw [fetch_of_path (.behind named)]
    generalize readFileText files (String.ofList (text.toList.drop 7)) = content
    split
    · cases content with
      | error message =>
        change Except.error (FetchError.io text message) ≠ _
        simp
      | ok content =>
        change Except.ok content ≠ _
        simp
    · simp

theorem answered_classify (config : FetchConfig) (client : Client) (files : FileSystem) (input : String) :
    Answered config client files (classify input) where
  url text found := by
    obtain ⟨_, name, member, named⟩ := classify_eq_url_iff.mp found
    exact fetch_named member named
  foreign text found marked := by
    obtain ⟨_, foreign⟩ := classify_eq_token_iff.mp found
    exact fetch_of_foreign marked foreign
  bare text found unmarked := ⟨ofUrl_eq_iff.mpr (.file (.bare unmarked)), fetch_of_path (.bare unmarked)⟩

end

/-- Main statement: an input is told to be a URL by the scheme that the fetcher finds in it. -/
theorem classify_agrees (input : String) :
    (∀ text, classify input = .url text ↔ text = Text.trim input ∧ ∃ name ∈ names, Of name text) ∧
    (∀ text, classify input = .token text ↔ text = Text.trim input ∧ ∀ name ∈ names, ¬ Of name text) ∧
    classify (classify input).text = classify input ∧
    ∀ config client files, Answered config client files (classify input) :=
  ⟨fun _ => classify_eq_url_iff, fun _ => classify_eq_token_iff, classify_text input,
    fun config client files => answered_classify config client files input⟩

example : classify " FILE://a " = .url "FILE://a" := by decide

end ColorResolution.Source
