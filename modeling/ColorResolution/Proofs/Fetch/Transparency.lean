import ColorResolution.Proofs.Fetch.Overlap
import ColorResolution.Proofs.Table

/-!
# A cache in front of a fetcher with fixed replies

If the inner fetcher always gives a URL the same answer, a cache in front of it does not show in the results, however
the fetches overlap and whatever is cleared. It holds exactly the URLs that were fetched since they were last cleared.
If no fetch begins before the others have ended, a URL with a text reaches the inner fetcher again only after it was
cleared, or after the fetch that reached it was abandoned.
-/
namespace ColorResolution

namespace CachingFetcher

/-- Every call of the inner fetcher was answered with something that it gives for the URL. -/
def Answered (gives : String → Except FetchError String → Prop) (trace : List Happening) : Prop :=
  ∀ id url result, .answered id url result ∈ trace → gives url result

/-- The inner fetcher's answers are fixed. -/
def AnsweredBy (inner : String → Except FetchError String) (trace : List Happening) : Prop :=
  Answered (fun url result => result = inner url) trace

/-- A fetch has returned a text of the URL, and since then the URL has not been cleared. -/
def FetchedSinceCleared (url : String) (trace : List Happening) : Prop :=
  ∃ earlier h later id text, trace = earlier ++ h :: later ∧ h.Returns id url (.ok text) ∧
    ∀ other ∈ later, ¬ other.Clears url

/-- When a fetch begins, those that began before it have ended. -/
def Successive (trace : List Happening) : Prop :=
  ∀ earlier id url later, trace = earlier ++ .began id url :: later →
    ∀ other ∈ earlier.flatMap Happening.begun, other ∈ earlier.flatMap Happening.ended

variable {inner : String → Except FetchError String} {s t u : CachingFetcher} {h : Happening}
  {trace part : List Happening} {url text : String}

/-! ## Results -/

/-- A text that is served was in the cache from the start, or was stored. -/
theorem Run.finished_of_served (run : Run s trace t) {id : Nat} (member : .served id url text ∈ trace) :
    s.cache.get? url = some text ∨ ∃ other, .finished other url (.ok text) ∈ trace := by
  obtain ⟨earlier, later, rfl⟩ := List.append_of_mem member
  obtain ⟨m, m', before, step, _⟩ := run.split_at
  have held : m.cache.get? url = some text := by
    cases step with
    | moves goesOn => cases goesOn
    | leaves leaves =>
      cases leaves with
      | hits held => exact held
  refine (before.get? held).imp And.left ?_
  rintro ⟨first, other, rest, rfl, _⟩
  exact ⟨other, by simp⟩

/-- A result that is returned is the answer to some call of the inner fetcher. -/
theorem Run.answered_of_returns (run : Run new trace s) (member : h ∈ trace) {id : Nat}
    {result : Except FetchError String} (returns : h.Returns id url result) :
    ∃ other, .answered other url result ∈ trace := by
  cases returns with
  | finished => exact ⟨id, (run.answered_of_finished member).2⟩
  | served text =>
    rcases run.finished_of_served member with held | ⟨other, finished⟩
    · cases held
    · exact ⟨other, (run.answered_of_finished finished).2⟩

theorem Run.returns_inner (run : Run new trace s) (fixed : AnsweredBy inner trace) (member : h ∈ trace) {id : Nat}
    {result : Except FetchError String} (returns : h.Returns id url result) : result = inner url := by
  obtain ⟨other, answered⟩ := run.answered_of_returns member returns
  exact fixed other url result answered

theorem Run.holds_inner (run : Run new trace s) (fixed : AnsweredBy inner trace)
    (held : s.cache.get? url = some text) : inner url = .ok text := by
  rcases run.get? held with ⟨start, _⟩ | ⟨earlier, id, later, rfl, _⟩
  · cases start
  · have returns : (Happening.finished id url (.ok text)).Returns id url (.ok text) := .finished _
    exact (run.returns_inner fixed (by simp) returns).symm

theorem Run.mem_keys_iff (run : Run new trace s) (url : String) :
    url ∈ s.cache.keys ↔ FetchedSinceCleared url trace := by
  rw [Table.mem_keys_iff]
  constructor
  · intro held
    obtain ⟨text, held⟩ := Option.ne_none_iff_exists'.mp held
    rcases run.get? held with ⟨start, _⟩ | ⟨earlier, id, later, rfl, keeps⟩
    · cases start
    · exact ⟨earlier, _, later, id, text, rfl, .finished _, keeps⟩
  · rintro ⟨earlier, h, later, id, text, rfl, returns, keeps⟩
    obtain ⟨m, m', _, step, after⟩ := run.split_at
    refine after.get?_ne_none ?_ keeps
    simp [step.get?_of_returns returns]

/-- A fetch that returns a failure has reached the inner fetcher. -/
theorem Run.reached_of_fails (run : Run new trace s) (member : h ∈ trace) {id : Nat} {cause : FetchError}
    (returns : h.Returns id url (.error cause)) : .reached id url ∈ trace := by
  cases returns with
  | finished => exact (run.answered_of_finished member).1

/-! ## One fetch after another -/

theorem Successive.of_append (successive : Successive (trace ++ part)) : Successive trace := by
  intro earlier id url later split
  exact successive earlier id url (later ++ part) (by simp [split])

/-- When a fetch begins, no other is under way. -/
theorem Run.idle (run : Run new trace s) {id : Nat} (successive : Successive (trace ++ [.began id url])) :
    s.flights = [] := by
  rw [List.eq_nil_iff_forall_not_mem]
  intro f member
  obtain ⟨begun, goesOn⟩ := run.begun_not_ended member
  exact goesOn (successive trace id url [] rfl f.id begun)

theorem Run.one_at_a_time (run : Run new trace s) (successive : Successive trace) : s.flights.length ≤ 1 := by
  induction run with
  | nil => exact Nat.zero_le 1
  | @concat trace h t u run step ih =>
    have before := ih successive.of_append
    cases step with
    | @begins c n flights url =>
      have idle : flights = [] := run.idle successive
      rw [idle]
      exact Nat.le_refl 1
    | moves => simpa using before
    | leaves =>
      simp only [List.length_append, List.length_cons] at before ⊢
      omega
    | forgets => exact before
    | clears => exact before

theorem Run.alone (run : Run new trace s) (successive : Successive trace) {f g : Flight} (member : f ∈ s.flights)
    (other : g ∈ s.flights) : f = g := by
  have single := run.one_at_a_time successive
  cases flights : s.flights with
  | nil =>
    rw [flights] at member
    cases member
  | cons only rest =>
    rw [flights, List.length_cons] at single
    obtain rfl : rest = [] := List.length_eq_zero_iff.mp (by omega)
    rw [flights, List.mem_singleton] at member other
    rw [member, other]

/-- Where nothing but a fetch by itself can store a text, a URL that it has looked up in vain stays out of the cache. -/
theorem Run.uncached (run : Run new trace s) (successive : Successive trace) (f : Flight) (member : f ∈ s.flights)
    (looked : f.stage ≠ .begun) : s.cache.get? f.url = none := by
  induction run generalizing f with
  | nil => cases member
  | @concat trace h t u run step ih =>
    have earlier := ih successive.of_append
    rcases step.of_mem member with before | ⟨url, _, rfl⟩ | ⟨g, before, stage, goesOn, rfl⟩
    · have absent := earlier f before looked
      rw [step.cache, ← Option.not_isSome_iff_eq_none, Option.isSome_iff_exists]
      rintro ⟨text, held⟩
      rcases h.get?_of_onCache held with ⟨id, rfl⟩ | ⟨held, _⟩
      · -- a text is stored by the only fetch there is, and it leaves with that
        cases step with
        | moves goesOn => cases goesOn
        | leaves =>
          have one := run.one_at_a_time successive.of_append
          have two := List.length_pos_of_mem member
          simp only [List.length_append, List.length_cons] at one two
          omega
      · rw [absent] at held
        cases held
    · exact absurd rfl looked
    · rw [step.cache]
      cases goesOn with
      | misses absent => exact absent
      | reaches =>
        have absent := earlier _ before (by simp)
        exact absent
      | hears =>
        have absent := earlier _ before (by simp)
        exact absent

/-- A text of the URL is in the cache, or a call that reached the inner fetcher may still bring it. -/
def Secured (id : Nat) (url : String) (s : CachingFetcher) : Prop :=
  s.cache.get? url ≠ none ∨ ∃ f ∈ s.flights, f.id = id ∧ f.MayStore url

theorem Step.missed_of_reached {id : Nat} (step : Step s (.reached id url) t) :
    ⟨id, url, .missed⟩ ∈ s.flights ∧ ⟨id, url, .reached⟩ ∈ t.flights := by
  cases step with
  | moves goesOn =>
    cases goesOn with
    | reaches => simp
  | leaves leaves => cases leaves

theorem Secured.step {id : Nat} (secured : Secured id url s) (step : Step s h t) (keeps : ¬ h.Clears url)
    (goesOn : h ≠ .abandoned id url) (body : ∀ other result, h = .answered other url result → result = .ok text) :
    Secured id url t := by
  rcases secured with held | ⟨f, member, rfl, stores⟩
  · refine .inl ?_
    rw [step.cache]
    exact h.get?_onCache_ne_none held keeps
  · rcases step.of_mem_before member with stays | ⟨stage, moves, member⟩ | leaves
    · exact .inr ⟨f, stays, rfl, stores⟩
    · cases moves with
      | misses => cases stores
      | reaches => cases stores
      | hears result =>
        cases stores
        rw [body _ result rfl] at member
        exact .inr ⟨_, member, rfl, .answered _ text⟩
    · cases leaves with
      | hits => cases stores
      | returns =>
        cases stores
        refine .inl ?_
        simp [step.get?_of_returns (.finished _)]
      | abandoned => cases stores <;> exact absurd rfl goesOn

theorem Run.secured {id : Nat} (run : Run s part t) (secured : Secured id url s) (keeps : ∀ h ∈ part, ¬ h.Clears url)
    (goesOn : .abandoned id url ∉ part) (fixed : AnsweredBy inner part) (body : inner url = .ok text) :
    Secured id url t := by
  induction run with
  | nil => exact secured
  | @concat part h t u run step ih =>
    rw [List.mem_append, not_or] at goesOn
    have before := ih (fun other member => keeps other (List.mem_append_left _ member)) goesOn.1
      fun id url result member => fixed id url result (List.mem_append_left _ member)
    have answer (other : Nat) (result : Except FetchError String) (same : h = .answered other url result) :
        result = .ok text :=
      (fixed other url result (by simp [same])).trans body
    exact before.step step (keeps h (by simp)) (fun same => goesOn.2 (by simp [same])) answer

/-- A URL that reaches the inner fetcher is neither in the cache nor on its way into it. -/
theorem Run.not_secured (run : Run new trace s) (successive : Successive trace) {first second : Nat}
    (step : Step s (.reached second url) t) : ¬ Secured first url s := by
  have missed := step.missed_of_reached.1
  rintro (held | ⟨f, member, _, stores⟩)
  · exact held (run.uncached successive _ missed (by simp))
  · rw [run.alone successive member missed] at stores
    cases stores

/-- A URL with a text that has reached the inner fetcher reaches it again only after a clear, or after the first fetch
has been abandoned. -/
theorem Run.reached_again (run : Run new trace s) (successive : Successive trace) (fixed : AnsweredBy inner trace)
    (body : inner url = .ok text) {earlier later : List Happening} {first second : Nat}
    (split : trace = earlier ++ .reached first url :: part ++ .reached second url :: later) :
    (∃ h ∈ part, h.Clears url) ∨ .abandoned first url ∈ part := by
  apply Classical.byContradiction
  intro neither
  rw [not_or] at neither
  obtain ⟨keeps, goesOn⟩ := neither
  subst split
  obtain ⟨m, _, before, again, _⟩ := run.split_at
  obtain ⟨_, n, _, reaches, between⟩ := before.split_at
  have underWay : Secured first url n := .inr ⟨_, reaches.missed_of_reached.2, rfl, .reached first⟩
  have secured : Secured first url m :=
    between.secured underWay (fun h member clears => keeps ⟨h, member, clears⟩) goesOn
      (fun id url result member => fixed id url result (by simp [member])) body
  exact before.not_secured successive.of_append again secured

/-- That a cache does not show: what was returned, what is held, and what reached the inner fetcher. -/
structure Transparent (inner : String → Except FetchError String) (trace : List Happening) (s : CachingFetcher) :
    Prop where
  results : ∀ h ∈ trace, ∀ id url result, h.Returns id url result → result = inner url
  texts : ∀ url text, s.cache.get? url = some text → inner url = .ok text
  keys : ∀ url, url ∈ s.cache.keys ↔ FetchedSinceCleared url trace
  once : Successive trace → ∀ url text, inner url = .ok text → ∀ earlier part later first second,
    trace = earlier ++ .reached first url :: part ++ .reached second url :: later →
    (∃ h ∈ part, h.Clears url) ∨ .abandoned first url ∈ part
  failures : ∀ h ∈ trace, ∀ id url result cause, inner url = .error cause → h.Returns id url result →
    .reached id url ∈ trace

/-- Main statement: with fixed answers a cache does not show in any run. -/
theorem Run.transparent (run : Run new trace s) (fixed : AnsweredBy inner trace) : Transparent inner trace s where
  results := fun _ member _ _ _ returns => run.returns_inner fixed member returns
  texts := fun _ _ held => run.holds_inner fixed held
  keys := run.mem_keys_iff
  once := fun successive _ _ body _ _ _ _ _ split => run.reached_again successive fixed body split
  failures := by
    intro h member id url result cause failing returns
    obtain rfl : result = .error cause := (run.returns_inner fixed member returns).trans failing
    exact run.reached_of_fails member returns

end CachingFetcher

end ColorResolution
