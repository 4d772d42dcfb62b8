import Mathlib.Data.List.Induction
import Mathlib.Data.List.Nodup
import ColorResolution.Fetch.Reply

/-!
# Overlapping fetches through a cache

A fetch looks into the cache when it comes to run. If nothing is there it reaches the inner fetcher, waits for the
answer, and stores its text. A fetch that finds its text, or that has stored its result, returns it in the same step;
failures are not stored. Between the steps of one fetch those of others may fall, and clears of one URL or of the whole
cache, and a fetch may be abandoned at any point. The inner fetcher may answer each call as it likes; if it crashes,
that is a failure like others to the cache.

A run is a sequence of such steps. What it does to the cache is read off what was seen of it, and every fetch that has
returned can be followed back through it.

Embedded are `fetch`, `clear_cache_for_url` and `clear` of a `CachingFetcher`, step by step.
-/
namespace ColorResolution

/-- How far a fetch has come. -/
inductive Stage where
  | begun
  | missed
  | reached
  | answered (result : Except FetchError String)

/-- A fetch that has not ended. -/
structure Flight where
  id : Nat
  url : String
  stage : Stage

/-- A cache in front of a fetcher, with the fetches through it that have not ended. -/
structure CachingFetcher where
  cache : Cache
  nextId : Nat
  flights : List Flight

/-- What can be seen of a caching fetcher. -/
inductive Happening where
  | began (id : Nat) (url : String)
  | missed (id : Nat) (url : String)
  | reached (id : Nat) (url : String)
  | answered (id : Nat) (url : String) (result : Except FetchError String)
  | served (id : Nat) (url text : String)
  | finished (id : Nat) (url : String) (result : Except FetchError String)
  | abandoned (id : Nat) (url : String)
  | forgot (url : String)
  | cleared

namespace Happening

/-- The result that a fetch returns, out of the cache or from the inner fetcher. -/
inductive Returns (id : Nat) (url : String) : Except FetchError String → Happening → Prop
  | served (text : String) : Returns id url (.ok text) (.served id url text)
  | finished (result : Except FetchError String) : Returns id url result (.finished id url result)

/-- The fetch that begins. -/
def begun : Happening → List Nat
  | began id _ => [id]
  | _ => []

/-- The fetch that ends. -/
def ended : Happening → List Nat
  | served id _ _ => [id]
  | finished id _ _ => [id]
  | abandoned id _ => [id]
  | _ => []

/-- The URL leaves the cache, alone or with all others. -/
inductive Clears (url : String) : Happening → Prop
  | forgot : Clears url (.forgot url)
  | cleared : Clears url .cleared

/-- What becomes of the cache. -/
def onCache (c : Cache) : Happening → Cache
  | finished _ url result => c.finish url result
  | forgot url => c.erase url
  | cleared => Table.empty
  | _ => c

theorem get?_of_onCache {h : Happening} {c : Cache} {url text : String} (held : (h.onCache c).get? url = some text) :
    (∃ id, h = .finished id url (.ok text)) ∨ c.get? url = some text ∧ ¬ h.Clears url := by
  cases h with
  | finished id other result =>
    cases result with
    | error cause => exact .inr ⟨held, fun clears => by cases clears⟩
    | ok stored =>
      rw [onCache, Cache.get?_finish_ok] at held
      split at held
      next same =>
        cases held
        exact .inl ⟨id, by rw [same]⟩
      next => exact .inr ⟨held, fun clears => by cases clears⟩
  | forgot other =>
    rw [onCache, Table.get?_erase] at held
    split at held
    · cases held
    next different =>
      refine .inr ⟨held, fun clears => ?_⟩
      cases clears
      exact different rfl
  | cleared => cases held
  | _ => exact .inr ⟨held, fun clears => by cases clears⟩

theorem get?_onCache_of_clears {h : Happening} {url : String} (clears : h.Clears url) (c : Cache) :
    (h.onCache c).get? url = none := by
  cases clears with
  | forgot => rw [onCache, Table.get?_erase, if_pos rfl]
  | cleared => rfl

/-- A text stays in the cache, perhaps replaced by another one, until it is cleared. -/
theorem get?_onCache_ne_none {h : Happening} {c : Cache} {url : String} (held : c.get? url ≠ none)
    (keeps : ¬ h.Clears url) : (h.onCache c).get? url ≠ none := by
  cases h with
  | finished id other result =>
    cases result with
    | error cause => exact held
    | ok stored =>
      rw [onCache, Cache.get?_finish_ok]
      split
      · simp
      · exact held
  | forgot other =>
    rw [onCache, Table.get?_erase, if_neg]
    · exact held
    · rintro rfl
      exact keeps .forgot
  | cleared => exact absurd .cleared keeps
  | _ => exact held

end Happening

namespace Flight

/-- What a fetch that goes on does next. -/
inductive Moves (c : Cache) : Flight → Happening → Stage → Prop
  | misses {id : Nat} {url : String} : c.get? url = none → Moves c ⟨id, url, .begun⟩ (.missed id url) .missed
  | reaches {id : Nat} {url : String} : Moves c ⟨id, url, .missed⟩ (.reached id url) .reached
  | hears {id : Nat} {url : String} (result : Except FetchError String) :
    Moves c ⟨id, url, .reached⟩ (.answered id url result) (.answered result)

/-- How a fetch ends. -/
inductive Leaves (c : Cache) : Flight → Happening → Prop
  | hits {id : Nat} {url text : String} : c.get? url = some text → Leaves c ⟨id, url, .begun⟩ (.served id url text)
  | returns {id : Nat} {url : String} {result : Except FetchError String} :
    Leaves c ⟨id, url, .answered result⟩ (.finished id url result)
  | abandoned (f : Flight) : Leaves c f (.abandoned f.id f.url)

/-- A fetch that has reached the inner fetcher and may yet store a text. -/
inductive MayStore (url : String) : Flight → Prop
  | reached (id : Nat) : MayStore url ⟨id, url, .reached⟩
  | answered (id : Nat) (text : String) : MayStore url ⟨id, url, .answered (.ok text)⟩

end Flight

namespace CachingFetcher

def new : CachingFetcher := ⟨Table.empty, 0, []⟩

/-- The numbers of the fetches that have not ended. -/
def ids (s : CachingFetcher) : List Nat := s.flights.map Flight.id

inductive Step : CachingFetcher → Happening → CachingFetcher → Prop
  | begins {c : Cache} {n : Nat} {flights : List Flight} (url : String) :
    Step ⟨c, n, flights⟩ (.began n url) ⟨c, n + 1, flights ++ [⟨n, url, .begun⟩]⟩
  | moves {c : Cache} {n : Nat} {before after : List Flight} {f : Flight} {h : Happening} {stage : Stage} :
    f.Moves c h stage → Step ⟨c, n, before ++ f :: after⟩ h ⟨c, n, before ++ { f with stage := stage } :: after⟩
  | leaves {c : Cache} {n : Nat} {before after : List Flight} {f : Flight} {h : Happening} :
    f.Leaves c h → Step ⟨c, n, before ++ f :: after⟩ h ⟨h.onCache c, n, before ++ after⟩
  | forgets {c : Cache} {n : Nat} {flights : List Flight} (url : String) :
    Step ⟨c, n, flights⟩ (.forgot url) ⟨c.erase url, n, flights⟩
  | clears {c : Cache} {n : Nat} {flights : List Flight} : Step ⟨c, n, flights⟩ .cleared ⟨Table.empty, n, flights⟩

/-- A run, with what was seen of it. -/
inductive Run (s : CachingFetcher) : List Happening → CachingFetcher → Prop
  | nil : Run s [] s
  | concat {trace : List Happening} {h : Happening} {t u : CachingFetcher} :
    Run s trace t → Step t h u → Run s (trace ++ [h]) u

variable {s t u : CachingFetcher} {h : Happening} {trace earlier later : List Happening}

theorem Run.trans (first : Run s earlier t) (second : Run t later u) : Run s (earlier ++ later) u := by
  induction second with
  | nil => simpa using first
  | concat _ step ih =>
    rw [← List.append_assoc]
    exact ih.concat step

theorem run_concat_iff : Run s (trace ++ [h]) u ↔ ∃ t, Run s trace t ∧ Step t h u := by
  constructor
  · intro run
    generalize whole : trace ++ [h] = all at run
    cases run with
    | nil => simp at whole
    | concat first step =>
      obtain ⟨rfl, last⟩ := List.append_inj' whole rfl
      cases last
      exact ⟨_, first, step⟩
  · rintro ⟨t, first, step⟩
    exact first.concat step

/-- A run can be cut at any point. -/
theorem Run.split (run : Run s (earlier ++ later) u) : ∃ t, Run s earlier t ∧ Run t later u := by
  induction later using List.reverseRecOn generalizing u with
  | nil => exact ⟨u, by simpa using run, .nil⟩
  | append_singleton later h ih =>
    rw [← List.append_assoc, run_concat_iff] at run
    obtain ⟨t, first, step⟩ := run
    obtain ⟨m, before, after⟩ := ih first
    exact ⟨m, before, after.concat step⟩

theorem Run.split_at (run : Run s (earlier ++ h :: later) u) :
    ∃ t t', Run s earlier t ∧ Step t h t' ∧ Run t' later u := by
  rw [List.append_cons] at run
  obtain ⟨t', first, after⟩ := run.split
  obtain ⟨t, before, step⟩ := run_concat_iff.mp first
  exact ⟨t, t', before, step, after⟩

/-- A fetch after a step was there before it, began with it or went on with it. -/
theorem Step.of_mem (step : Step s h t) {f : Flight} (member : f ∈ t.flights) :
    f ∈ s.flights ∨ (∃ url, h = .began s.nextId url ∧ f = ⟨s.nextId, url, .begun⟩) ∨
      ∃ g ∈ s.flights, ∃ stage, g.Moves s.cache h stage ∧ f = { g with stage := stage } := by
  cases step with
  | begins url =>
    rcases List.mem_append.mp member with before | last
    · exact .inl before
    · exact .inr (.inl ⟨url, rfl, List.mem_singleton.mp last⟩)
  | @moves c n before after g h stage goesOn =>
    simp only [List.mem_append, List.mem_cons] at member ⊢
    rcases member with first | rfl | last
    · exact .inl (.inl first)
    · exact .inr (.inr ⟨g, .inr (.inl rfl), stage, goesOn, rfl⟩)
    · exact .inl (.inr (.inr last))
  | leaves =>
    simp only [List.mem_append, List.mem_cons] at member ⊢
    exact .inl (member.imp_right .inr)
  | forgets => exact .inl member
  | clears => exact .inl member

/-- A fetch before a step is there after it, goes on with it or leaves with it. -/
theorem Step.of_mem_before (step : Step s h t) {f : Flight} (member : f ∈ s.flights) :
    f ∈ t.flights ∨ (∃ stage, f.Moves s.cache h stage ∧ { f with stage := stage } ∈ t.flights) ∨
      f.Leaves s.cache h := by
  cases step with
  | begins => exact .inl (List.mem_append_left _ member)
  | @moves c n before after g h stage goesOn =>
    simp only [List.mem_append, List.mem_cons] at member ⊢
    rcases member with first | rfl | last
    · exact .inl (.inl first)
    · exact .inr (.inl ⟨stage, goesOn, .inr (.inl rfl)⟩)
    · exact .inl (.inr (.inr last))
  | leaves leaves =>
    simp only [List.mem_append, List.mem_cons] at member ⊢
    rcases member with first | rfl | last
    · exact .inl (.inl first)
    · exact .inr (.inr leaves)
    · exact .inl (.inr last)
  | forgets => exact .inl member
  | clears => exact .inl member

/-! ## One fetch by itself -/

section Alone

variable {url text : String}

theorem run_served (held : s.cache.get? url = some text) :
    Run s [.began s.nextId url, .served s.nextId url text] { s with nextId := s.nextId + 1 } := by
  have begins : Run s ([] ++ [.began s.nextId url]) _ := Run.nil.concat (.begins url)
  have served := begins.concat (.leaves (.hits held))
  rwa [List.append_nil] at served

theorem run_reached (absent : s.cache.get? url = none) :
    Run s [.began s.nextId url, .missed s.nextId url, .reached s.nextId url]
      { s with nextId := s.nextId + 1, flights := s.flights ++ [⟨s.nextId, url, .reached⟩] } := by
  have begins : Run s ([] ++ [.began s.nextId url]) _ := Run.nil.concat (.begins url)
  have missed := begins.concat (.moves (.misses absent))
  exact missed.concat (.moves .reaches)

theorem run_returned (c : Cache) (n id : Nat) (url : String) (before after : List Flight)
    (result : Except FetchError String) :
    Run ⟨c, n, before ++ ⟨id, url, .reached⟩ :: after⟩ [.answered id url result, .finished id url result]
      ⟨c.finish url result, n, before ++ after⟩ := by
  have hears : Run ⟨c, n, before ++ ⟨id, url, .reached⟩ :: after⟩ ([] ++ [.answered id url result]) _ :=
    Run.nil.concat (.moves (.hears result))
  exact hears.concat (.leaves .returns)

theorem run_abandoned (c : Cache) (n : Nat) (f : Flight) (before after : List Flight) :
    Run ⟨c, n, before ++ f :: after⟩ [.abandoned f.id f.url] ⟨c, n, before ++ after⟩ :=
  Run.nil.concat (.leaves (.abandoned f))

/-- A fetch by itself that does not find its URL. -/
theorem run_fetched (absent : s.cache.get? url = none) (result : Except FetchError String) :
    Run s ([.began s.nextId url, .missed s.nextId url, .reached s.nextId url] ++
        [.answered s.nextId url result, .finished s.nextId url result])
      { s with cache := s.cache.finish url result, nextId := s.nextId + 1 } := by
  have returned := (run_reached absent).trans (run_returned _ _ _ _ s.flights [] result)
  rwa [List.append_nil] at returned

end Alone

/-! ## The cache -/

theorem Step.cache (step : Step s h t) : t.cache = h.onCache s.cache := by
  cases step with
  | moves goesOn => cases goesOn <;> rfl
  | _ => rfl

/-- A text in the cache was there from the start, or was stored; and it has not been cleared since. -/
theorem Run.get? (run : Run s trace t) {url text : String} (held : t.cache.get? url = some text) :
    (s.cache.get? url = some text ∧ ∀ h ∈ trace, ¬ h.Clears url) ∨
      ∃ earlier id later, trace = earlier ++ .finished id url (.ok text) :: later ∧ ∀ h ∈ later, ¬ h.Clears url := by
  induction run with
  | nil => exact .inl ⟨held, by simp⟩
  | @concat trace h t u _ step ih =>
    rw [step.cache] at held
    rcases h.get?_of_onCache held with ⟨id, rfl⟩ | ⟨before, keeps⟩
    · exact .inr ⟨trace, id, [], rfl, by simp⟩
    · rcases ih before with ⟨start, never⟩ | ⟨earlier, id, later, rfl, never⟩
      · refine .inl ⟨start, ?_⟩
        simpa [or_imp, forall_and] using ⟨never, keeps⟩
      · refine .inr ⟨earlier, id, later ++ [h], by simp, ?_⟩
        simpa [or_imp, forall_and] using ⟨never, keeps⟩

theorem Run.get?_ne_none (run : Run s trace t) {url : String} (held : s.cache.get? url ≠ none)
    (keeps : ∀ h ∈ trace, ¬ h.Clears url) : t.cache.get? url ≠ none := by
  induction run with
  | nil => exact held
  | @concat trace h t u _ step ih =>
    rw [step.cache]
    exact h.get?_onCache_ne_none (ih fun other member => keeps other (by simp [member])) (keeps h (by simp))

/-- A fetch that returns a text leaves it, or a later one, in the cache. -/
theorem Step.get?_of_returns (step : Step s h t) {id : Nat} {url text : String} (returns : h.Returns id url (.ok text)) :
    t.cache.get? url = some text := by
  rw [step.cache]
  cases returns with
  | finished => rw [Happening.onCache, Cache.get?_finish_ok, if_pos rfl]
  | served =>
    cases step with
    | moves goesOn => cases goesOn
    | leaves ends =>
      cases ends with
      | hits held => exact held

/-! ## The fetches of a run -/

theorem Step.conserved (step : Step s h t) : (s.ids ++ h.begun).Perm (t.ids ++ h.ended) := by
  cases step with
  | begins url => simp [ids, Happening.begun, Happening.ended]
  | moves goesOn => cases goesOn <;> simp [ids, Happening.begun, Happening.ended]
  | @leaves c n before after f h leaves =>
    have single : h.begun = [] ∧ h.ended = [f.id] := by cases leaves <;> simp [Happening.begun, Happening.ended]
    rw [single.1, single.2]
    simpa [ids] using List.perm_middle.trans (List.perm_append_singleton f.id _).symm
  | forgets => exact .refl _
  | clears => exact .refl _

theorem Step.numbered (step : Step s h t) : List.range t.nextId = List.range s.nextId ++ h.begun := by
  cases step with
  | begins url => exact List.range_succ
  | moves goesOn => cases goesOn <;> simp [Happening.begun]
  | leaves leaves => cases leaves <;> simp [Happening.begun]
  | forgets => simp [Happening.begun]
  | clears => simp [Happening.begun]

/-- Every fetch that has begun is under way or has ended, and no number is used twice. -/
theorem Run.conserved (run : Run new trace s) :
    (s.ids ++ trace.flatMap Happening.ended).Perm (trace.flatMap Happening.begun) ∧
      trace.flatMap Happening.begun = List.range s.nextId := by
  induction run with
  | nil => exact ⟨.refl _, rfl⟩
  | @concat trace h t u _ step ih =>
    obtain ⟨balance, numbers⟩ := ih
    rw [List.flatMap_append, List.flatMap_append, List.flatMap_singleton, List.flatMap_singleton]
    have ends : (u.ids ++ (trace.flatMap Happening.ended ++ h.ended)).Perm
        (u.ids ++ h.ended ++ trace.flatMap Happening.ended) := by
      rw [List.append_assoc]
      exact List.perm_append_comm.append_left u.ids
    have begins : (t.ids ++ h.begun ++ trace.flatMap Happening.ended).Perm
        (t.ids ++ trace.flatMap Happening.ended ++ h.begun) := by
      rw [List.append_assoc, List.append_assoc]
      exact List.perm_append_comm.append_left t.ids
    -- the step puts what ends in the place of what begins
    have exchanged := step.conserved.symm.append_right (trace.flatMap Happening.ended)
    refine ⟨ends.trans (exchanged.trans (begins.trans (balance.append_right h.begun))), ?_⟩
    rw [numbers, step.numbered]

theorem Run.begun_not_ended (run : Run new trace s) {f : Flight} (member : f ∈ s.flights) :
    f.id ∈ trace.flatMap Happening.begun ∧ f.id ∉ trace.flatMap Happening.ended := by
  obtain ⟨balance, numbers⟩ := run.conserved
  have underWay : f.id ∈ s.ids := List.mem_map_of_mem member
  have distinct : (s.ids ++ trace.flatMap Happening.ended).Nodup := by
    rw [balance.nodup_iff, numbers]
    exact List.nodup_range
  exact ⟨balance.subset (List.mem_append_left _ underWay), List.disjoint_of_nodup_append distinct underWay⟩

end CachingFetcher

/-- What a run shows of a fetch that has reached the inner fetcher and has not ended. -/
structure Flight.Shown (trace : List Happening) (f : Flight) : Prop where
  reached : f.stage ≠ .begun → f.stage ≠ .missed → .reached f.id f.url ∈ trace
  answered : ∀ result, f.stage = .answered result → .answered f.id f.url result ∈ trace

theorem Flight.Shown.concat {trace : List Happening} {f : Flight} (shown : f.Shown trace) (h : Happening) :
    f.Shown (trace ++ [h]) where
  reached := fun notBegun notMissed => List.mem_append_left _ (shown.reached notBegun notMissed)
  answered := fun result stage => List.mem_append_left _ (shown.answered result stage)

theorem Flight.Moves.shown {c : Cache} {trace : List Happening} {f : Flight} {h : Happening} {stage : Stage}
    (goesOn : f.Moves c h stage) (shown : f.Shown trace) : Flight.Shown (trace ++ [h]) { f with stage := stage } := by
  obtain ⟨reached, answered⟩ := shown.concat h
  cases goesOn with
  | misses absent => exact ⟨by simp, by simp⟩
  | reaches => exact ⟨by simp, by simp⟩
  | hears result =>
    have reached := reached (by simp) (by simp)
    exact ⟨fun _ _ => reached, by simp⟩

namespace CachingFetcher

variable {s t u : CachingFetcher} {h : Happening} {trace earlier later : List Happening}

theorem Run.shown (run : Run new trace s) (f : Flight) (member : f ∈ s.flights) : f.Shown trace := by
  induction run generalizing f with
  | nil => cases member
  | @concat trace h t u _ step ih =>
    rcases step.of_mem member with before | ⟨url, rfl, rfl⟩ | ⟨g, before, stage, goesOn, rfl⟩
    · exact (ih f before).concat h
    · exact ⟨by simp, by simp⟩
    · exact goesOn.shown (ih g before)

/-- A result that a fetch has stored is the answer to its own call. -/
theorem Run.answered_of_finished (run : Run new trace s) {id : Nat} {url : String} {result : Except FetchError String}
    (member : .finished id url result ∈ trace) : .reached id url ∈ trace ∧ .answered id url result ∈ trace := by
  obtain ⟨earlier, later, rfl⟩ := List.append_of_mem member
  obtain ⟨t, _, before, step, _⟩ := run.split_at
  refine And.imp (List.mem_append_left _) (List.mem_append_left _) ?_
  cases step with
  | moves goesOn => cases goesOn
  | leaves leaves =>
    cases leaves with
    | returns =>
      have shown := before.shown ⟨id, url, .answered result⟩ (by simp)
      exact ⟨shown.reached (by simp) (by simp), shown.answered result rfl⟩

end CachingFetcher

end ColorResolution
