import ColorResolution.Proofs.Fetch.Overlap
import ColorResolution.Proofs.Loader.History

/-!
# What a clear takes from later fetches

A fetch stores its text without regard to the clears since its look-up. So after a clear of its URL the cache may come
to hold a text that the inner fetcher was asked for before the clear, and later fetches are served it. Main statement:
this happens after a clear exactly if at the clear a fetch of the URL had reached the inner fetcher and could still
store a text; otherwise every text that is returned afterwards was asked for afterwards.
-/
namespace ColorResolution

namespace CachingFetcher

/-- A text of a URL that was asked of the inner fetcher and stored in a part of a run. -/
def Fetched (url text : String) (part : List Happening) : Prop :=
  ∃ id, .reached id url ∈ part ∧ .finished id url (.ok text) ∈ part

/-- A fetch that begins in a part of a run returns only a text fetched in that part. -/
def Afresh (url : String) (part : List Happening) : Prop :=
  ∀ id text h, .began id url ∈ part → h ∈ part → h.Returns id url (.ok text) → Fetched url text part

variable {s t u : CachingFetcher} {c h : Happening} {part : List Happening} {url : String}

theorem Fetched.concat {text : String} (fetched : Fetched url text part) (h : Happening) :
    Fetched url text (part ++ [h]) := by
  obtain ⟨id, reached, finished⟩ := fetched
  exact ⟨id, List.mem_append_left _ reached, List.mem_append_left _ finished⟩

/-- Since a part of a run began no text of a URL has come from before it. -/
structure Since (url : String) (part : List Happening) (s : CachingFetcher) : Prop where
  flights : ∀ f ∈ s.flights, f.MayStore url → .reached f.id url ∈ part
  cache : ∀ text, s.cache.get? url = some text → Fetched url text part
  returned : ∀ h ∈ part, ∀ id text, h.Returns id url (.ok text) → Fetched url text part

theorem Since.cache_step (since : Since url part s) (step : Step s h t) {text : String}
    (held : t.cache.get? url = some text) : Fetched url text (part ++ [h]) := by
  rw [step.cache] at held
  rcases h.get?_of_onCache held with ⟨id, rfl⟩ | ⟨before, _⟩
  · cases step with
    | moves goesOn => cases goesOn
    | leaves leaves =>
      cases leaves with
      | returns =>
        have reached := since.flights _ (by simp) (.answered id text)
        exact ⟨id, List.mem_append_left _ reached, by simp⟩
  · exact (since.cache text before).concat h

theorem Since.flights_step (since : Since url part s) (step : Step s h t) (f : Flight) (member : f ∈ t.flights)
    (stores : f.MayStore url) : .reached f.id url ∈ part ++ [h] := by
  rcases step.of_mem member with before | ⟨other, _, rfl⟩ | ⟨g, before, stage, goesOn, rfl⟩
  · exact List.mem_append_left _ (since.flights f before stores)
  · cases stores
  · cases goesOn with
    | misses => cases stores
    | reaches =>
      cases stores
      simp
    | hears result =>
      cases stores
      have reached := since.flights _ before (.reached _)
      exact List.mem_append_left _ reached

theorem Since.step (since : Since url part s) (step : Step s h t) : Since url (part ++ [h]) t where
  flights := since.flights_step step
  cache := fun _ held => since.cache_step step held
  returned := by
    intro other member id text returns
    rcases List.mem_append.mp member with before | last
    · exact (since.returned other before id text returns).concat h
    · rw [List.mem_singleton.mp last] at returns
      exact since.cache_step step (step.get?_of_returns returns)

theorem Run.since (run : Run s part t) (absent : s.cache.get? url = none)
    (none : ∀ f ∈ s.flights, ¬ f.MayStore url) : Since url part t := by
  induction run with
  | nil =>
    refine ⟨fun f member stores => absurd stores (none f member), fun text held => ?_, by simp⟩
    rw [absent] at held
    cases held
  | concat _ step ih => exact ih.step step

/-- The end of a fetch that may store a text, and a later fetch that is served that text. -/
theorem exists_stale {cache : Cache} {n : Nat} {before after : List Flight} {f : Flight} (stores : f.MayStore url) :
    ∃ part text u, Run ⟨cache, n, before ++ f :: after⟩
      (part ++ [.finished f.id url (.ok text)] ++ [.began n url, .served n url text]) u ∧
      ∀ id, .reached id url ∉ part := by
  cases stores with
  | reached id =>
    have ended := run_returned cache n id url before after (.ok "")
    exact ⟨[.answered id url (.ok "")], "", _, ended.trans (run_served (by simp [Cache.get?_finish_ok])), by simp⟩
  | answered id text =>
    have ended : Run ⟨cache, n, before ++ ⟨id, url, .answered (.ok text)⟩ :: after⟩
        ([] ++ [.finished id url (.ok text)]) _ := Run.nil.concat (.leaves .returns)
    exact ⟨[], text, _, ended.trans (run_served (by simp [Happening.onCache, Cache.get?_finish_ok])), by simp⟩

/-- Main statement: after a clear of a URL the fetches that begin later return only texts that were fetched later,
exactly if no fetch of the URL that had reached the inner fetcher may still store a text. -/
theorem afresh_after_clear_iff (step : Step s c t) (clears : c.Clears url) :
    (∀ part u, Run t part u → Afresh url part) ↔ ∀ f ∈ s.flights, ¬ f.MayStore url := by
  have absent : t.cache.get? url = none := by
    rw [step.cache]
    exact Happening.get?_onCache_of_clears clears s.cache
  have same : t.flights = s.flights := by
    cases clears <;> cases step <;> first | rfl | contradiction
  constructor
  · intro afresh f member stores
    obtain ⟨before, after, split⟩ := List.append_of_mem member
    obtain ⟨cache, n, flights⟩ := t
    dsimp only at same
    rw [same, split] at afresh
    obtain ⟨part, text, u, run, never⟩ := exists_stale stores
    obtain ⟨id, reached, _⟩ := afresh _ u run n text _ (by simp) (by simp) (.served text)
    simp [never] at reached
  · intro none part u run id text h _ member returns
    exact (run.since absent (same ▸ none)).returned h member id text returns

/-- A fetch that waits for its answer at a clear brings its text to later fetches; without fetches nothing does. -/
theorem afresh_after_clear_iff_of_waiting :
    (¬ ∀ part u, Run ⟨Table.empty, 1, [⟨0, "u", .reached⟩]⟩ part u → Afresh "u" part) ∧
      ∀ part u, Run ⟨Table.empty, 1, []⟩ part u → Afresh "u" part := by
  constructor
  · intro afresh
    have none := (afresh_after_clear_iff (s := ⟨Table.empty, 1, [⟨0, "u", .reached⟩]⟩) .clears .cleared).mp afresh
    exact none _ (by simp) (.reached 0)
  · exact (afresh_after_clear_iff (s := ⟨Table.empty, 1, []⟩) .clears .cleared).mpr (by simp)

end CachingFetcher

/-- A task that waits at a gate while its URL is cleared from the cache stores its text afterwards. A fetch made after
that is served this text, though the reply has changed meanwhile, and reaches no fetcher. -/
theorem World.served_stale_text :
    let w := opened .sharded (Table.empty.insert "u" ⟨.body "red", true⟩) [({}, true)]
    let earlier : List Event := [.step (.act 0 (.request "u")), .step (.act 0 (.clearCached "u")), .step (.release "u")]
    let later : List Event := [.step (.setReply "u" ⟨.body "blue", false⟩), .step (.act 0 (.fetch "u"))]
    (w.history (earlier ++ later)).map Moment.report =
      [⟨.issued ⟨0, 0, "u"⟩, [], ["u"]⟩, ⟨.count 0, [], []⟩, ⟨.done, [], []⟩,
        ⟨.done, [], []⟩, ⟨.body (.ok "red"), [], []⟩] := rfl

end ColorResolution
