import ColorResolution.Proofs.Fetch.Overlap
import ColorResolution.Proofs.Loader.Observation
import ColorResolution.Proofs.Loader.Provenance

/-!
# Batches of URLs

The resolutions of a batch begin together and share the loader's cache. Polled in their order, each goes on until it has
ended or stands before a gate. Main statement: a batch whose replies come at once gives what its URLs give one after
another. A URL in the cache is not fetched; of the others one with a text is fetched once if there is a cache, and one
with a failure as often as it occurs.

Embedded beside `resolveAllNow` is `resolve_urls` as it polls its futures.
-/
namespace ColorResolution

/-- A reply that comes at once, with a text or a failure. -/
inductive Reply.Prompt : Reply → Prop
  | body (text : String) : Prompt ⟨.body text, false⟩
  | failure (cause : Failure) : Prompt ⟨.failure cause, false⟩

theorem Reply.Prompt.ungated {r : Reply} (prompt : r.Prompt) : r.gated = false := by cases prompt <;> rfl

/-! ## One resolution -/

namespace Loader

section
variable {replies : Replies} {l : Loader} {url other text : String}

theorem resolveNow_held (held : l.cached? url = some text) :
    l.resolveNow replies url = (l, some (Payload.ofFetched l.resolver url (.ok text)), []) := by
  simp only [resolveNow, fetchNow, held, Option.map_some]

theorem resolveNow_gated (absent : l.cached? url = none) (gated : (replies.reply url).gated = true) :
    l.resolveNow replies url = (l, none, [url]) := by
  simp only [resolveNow, fetchNow, absent, gated, if_true, Option.map_none]

theorem resolveNow_absent (absent : l.cached? url = none) (ungated : (replies.reply url).gated = false) :
    l.resolveNow replies url = (l.store url ((replies.reply url).answer.result url),
      some (Payload.ofFetched l.resolver url ((replies.reply url).answer.result url)), [url]) := by
  simp [resolveNow, fetchNow, absent, ungated]

end

end Loader

/-! ## Resolutions that begin together -/

/-- How far the resolution of a URL has come. -/
inductive Progress where
  | fetching (stage : Stage)
  | ended (result : Except ColorError Color)

/-- The resolution of a URL, which goes on when it is polled. -/
structure Future where
  url : String
  progress : Progress

namespace Future

def begin (url : String) : Future := ⟨url, .fetching .begun⟩

def result? (f : Future) : Option (Except ColorError Color) :=
  match f.progress with
  | .fetching _ => none
  | .ended result => some result

/-- From one point where others may go on to the next; with it comes the URL, if the fetcher was reached. -/
def advance? (replies : Replies) (l : Loader) (f : Future) : Option (Future × Loader × List String) :=
  match f.progress with
  | .fetching .begun =>
    match l.cached? f.url with
    | some text => some ({ f with progress := .ended (Payload.ofFetched l.resolver f.url (.ok text)) }, l, [])
    | none => some ({ f with progress := .fetching .missed }, l, [])
  | .fetching .missed => some ({ f with progress := .fetching .reached }, l, [f.url])
  | .fetching .reached =>
    let reply := replies.reply f.url
    if reply.gated then none
    else some ({ f with progress := .fetching (.answered (reply.answer.result f.url)) }, l, [])
  | .fetching (.answered result) =>
    some ({ f with progress := .ended (Payload.ofFetched l.resolver f.url result) }, l.store f.url result, [])
  | .ended _ => none

/-- A future goes on as far as it can. -/
inductive Goes (replies : Replies) : Future → Loader → Future → Loader → List String → Prop
  | stays {f : Future} {l : Loader} : f.advance? replies l = none → Goes replies f l f l []
  | goes {f g h : Future} {l m n : Loader} {reached more : List String} : f.advance? replies l = some (g, m, reached) →
    Goes replies g m h n more → Goes replies f l h n (reached ++ more)

/-- Futures go on one after another. -/
inductive Polls (replies : Replies) : List Future → Loader → List Future → Loader → List String → Prop
  | nil {l : Loader} : Polls replies [] l [] l []
  | cons {f g : Future} {fs gs : List Future} {l m n : Loader} {reached more : List String} :
    Goes replies f l g m reached → Polls replies fs m gs n more →
    Polls replies (f :: fs) l (g :: gs) n (reached ++ more)

variable {replies : Replies} {f g h : Future} {fs gs hs : List Future} {l m n : Loader} {reached more : List String}

theorem Goes.unique (first : Goes replies f l g m reached) (second : Goes replies f l h n more) :
    g = h ∧ m = n ∧ reached = more := by
  induction first generalizing h n more with
  | stays stuck =>
    cases second with
    | stays => exact ⟨rfl, rfl, rfl⟩
    | goes advances => cases stuck.symm.trans advances
  | goes advances _ ih =>
    cases second with
    | stays stuck => cases stuck.symm.trans advances
    | goes again rest =>
      cases advances.symm.trans again
      obtain ⟨rfl, rfl, rfl⟩ := ih rest
      exact ⟨rfl, rfl, rfl⟩

theorem Polls.unique (first : Polls replies fs l gs m reached) (second : Polls replies fs l hs n more) :
    gs = hs ∧ m = n ∧ reached = more := by
  induction first generalizing hs n more with
  | nil =>
    cases second
    exact ⟨rfl, rfl, rfl⟩
  | cons goes _ ih =>
    cases second with
    | cons again rest =>
      obtain ⟨rfl, rfl, rfl⟩ := goes.unique again
      obtain ⟨rfl, rfl, rfl⟩ := ih rest
      exact ⟨rfl, rfl, rfl⟩

/-- A resolution that begins goes on as one without others would. -/
theorem goes_begin (replies : Replies) (l : Loader) (url : String) :
    ∃ f, Goes replies (begin url) l f (l.resolveNow replies url).1 (l.resolveNow replies url).2.2 ∧
      f.result? = (l.resolveNow replies url).2.1 := by
  cases held : l.cached? url with
  | some text =>
    have hits : (begin url).advance? replies l =
        some (⟨url, .ended (Payload.ofFetched l.resolver url (.ok text))⟩, l, []) := by
      simp only [advance?, begin, held]
    rw [Loader.resolveNow_held held]
    exact ⟨_, .goes hits (.stays rfl), rfl⟩
  | none =>
    have misses : (begin url).advance? replies l = some (⟨url, .fetching .missed⟩, l, []) := by
      simp only [advance?, begin, held]
    have reaches : advance? replies l ⟨url, .fetching .missed⟩ = some (⟨url, .fetching .reached⟩, l, [url]) := rfl
    cases gated : (replies.reply url).gated with
    | true =>
      have stuck : advance? replies l ⟨url, .fetching .reached⟩ = none := if_pos gated
      rw [Loader.resolveNow_gated held gated]
      exact ⟨_, .goes misses (.goes reaches (.stays stuck)), rfl⟩
    | false =>
      generalize answer : (replies.reply url).answer.result url = result
      have hears : advance? replies l ⟨url, .fetching .reached⟩ =
          some (⟨url, .fetching (.answered result)⟩, l, []) := by
        rw [← answer]
        exact if_neg (ne_true_of_eq_false gated)
      have ends : advance? replies l ⟨url, .fetching (.answered result)⟩ =
          some (⟨url, .ended (Payload.ofFetched l.resolver url result)⟩, l.store url result, []) := rfl
      rw [Loader.resolveNow_absent held gated, answer]
      exact ⟨_, .goes misses (.goes reaches (.goes hears (.goes ends (.stays rfl)))), rfl⟩

/-- So do resolutions that begin together. -/
theorem polls_begin (replies : Replies) (l : Loader) (urls : List String) :
    ∃ fs, Polls replies (urls.map begin) l fs (l.resolveAllNow replies urls).1 (l.resolveAllNow replies urls).2.2 ∧
      fs.map result? = (l.resolveAllNow replies urls).2.1 := by
  induction urls generalizing l with
  | nil => exact ⟨[], .nil, rfl⟩
  | cons url rest ih =>
    obtain ⟨f, goes, result⟩ := goes_begin replies l url
    obtain ⟨fs, polls, results⟩ := ih (l.resolveNow replies url).1
    refine ⟨f :: fs, .cons goes polls, ?_⟩
    rw [List.map_cons, result, results]
    rfl

end Future

/-! ## One after another -/

namespace Loader

section
variable {replies : Replies} {l : Loader} {url other : String} {urls : List String}

theorem resolveNow_prompt (l : Loader) (prompt : (replies.reply url).Prompt) :
    ∃ result, (l.resolveNow replies url).2.1 = some result := by
  cases held : l.cached? url with
  | some text => exact ⟨_, by rw [resolveNow_held held]⟩
  | none => exact ⟨_, by rw [resolveNow_absent held prompt.ungated]⟩

theorem resolveAllNow_prompt (l : Loader) (prompt : ∀ url ∈ urls, (replies.reply url).Prompt) :
    ∃ results : List (Except ColorError Color), (l.resolveAllNow replies urls).2.1 = results.map some := by
  induction urls generalizing l with
  | nil => exact ⟨[], rfl⟩
  | cons url rest ih =>
    obtain ⟨first, others⟩ := List.forall_mem_cons.mp prompt
    obtain ⟨result, found⟩ := resolveNow_prompt l first
    obtain ⟨results, founds⟩ := ih (l.resolveNow replies url).1 others
    refine ⟨result :: results, ?_⟩
    rw [List.map_cons, ← found, ← founds]
    rfl

/-- Without a cache each URL is fetched. -/
theorem resolveAllNow_fetched_of_uncached (urls : List String) (uncached : l.cache = none) :
    (l.resolveAllNow replies urls).2.2 = urls := by
  induction urls generalizing l with
  | nil => rfl
  | cons url rest ih =>
    have absent : l.cached? url = none := by rw [cached?, uncached, Option.bind_none]
    have reached : (l.resolveNow replies url).2.2 = [url] := by
      cases gated : (replies.reply url).gated with
      | true => rw [resolveNow_gated absent gated]
      | false => rw [resolveNow_absent absent gated]
    change (l.resolveNow replies url).2.2 ++ _ = _
    rw [reached]
    exact congrArg (url :: ·) (ih (fetchNow_uncached replies url uncached))

/-! ### How often a URL is fetched -/

theorem store_error (l : Loader) (url : String) (cause : FetchError) : l.store url (.error cause) = l := by
  have same : l.cache.map (fun c => c.finish url (.error cause)) = l.cache := Option.map_id'
  rw [store, same]

theorem cached?_store_ne (different : other ≠ url) (result : Except FetchError String) :
    (l.store other result).cached? url = l.cached? url := by
  cases result with
  | error cause => rw [store_error]
  | ok text => cases cache : l.cache <;> simp [store, cached?, cache, Cache.get?_finish_ok, Ne.symm different]

theorem cached?_store_ok (cached : l.cache.isSome) (url text : String) :
    (l.store url (.ok text)).cached? url = some text := by
  obtain ⟨c, cache⟩ := Option.isSome_iff_exists.mp cached
  simp [store, cached?, cache, Cache.get?_finish_ok]

theorem isSome_cache_resolveNow (l : Loader) (replies : Replies) (url : String) :
    (l.resolveNow replies url).1.cache.isSome = l.cache.isSome := by
  cases held : l.cached? url with
  | some text => rw [resolveNow_held held]
  | none =>
    cases gated : (replies.reply url).gated with
    | true => rw [resolveNow_gated held gated]
    | false => rw [resolveNow_absent held gated, store, Option.isSome_map]

/-- The resolution of another URL neither fetches a URL nor changes what the cache holds for it. -/
theorem resolveNow_other (l : Loader) (replies : Replies) (different : other ≠ url) :
    (l.resolveNow replies other).1.cached? url = l.cached? url ∧ url ∉ (l.resolveNow replies other).2.2 := by
  have unlisted : url ∉ [other] := by simpa using Ne.symm different
  cases held : l.cached? other with
  | some text =>
    rw [resolveNow_held held]
    exact ⟨rfl, List.not_mem_nil⟩
  | none =>
    cases gated : (replies.reply other).gated with
    | true =>
      rw [resolveNow_gated held gated]
      exact ⟨rfl, unlisted⟩
    | false =>
      rw [resolveNow_absent held gated]
      exact ⟨cached?_store_ne different _, unlisted⟩

theorem count_resolveAllNow_cons (l : Loader) (url other : String) (rest : List String) :
    (l.resolveAllNow replies (other :: rest)).2.2.count url =
      (l.resolveNow replies other).2.2.count url +
        ((l.resolveNow replies other).1.resolveAllNow replies rest).2.2.count url :=
  List.count_append

/-- The count of fetches of a URL by a batch, from its count by one resolution. -/
theorem count_resolveAllNow_of_other (l : Loader) (different : other ≠ url) (rest : List String) :
    (l.resolveAllNow replies (other :: rest)).2.2.count url =
      ((l.resolveNow replies other).1.resolveAllNow replies rest).2.2.count url := by
  rw [count_resolveAllNow_cons, List.count_eq_zero_of_not_mem (resolveNow_other l replies different).2, Nat.zero_add]

/-- A URL that the cache holds is not fetched. -/
theorem count_fetched_of_held (urls : List String) (held : l.cached? url ≠ none) :
    (l.resolveAllNow replies urls).2.2.count url = 0 := by
  induction urls generalizing l with
  | nil => rfl
  | cons other rest ih =>
    by_cases same : other = url
    · subst same
      obtain ⟨text, found⟩ := Option.ne_none_iff_exists'.mp held
      rw [count_resolveAllNow_cons, resolveNow_held found, ih held]
      rfl
    · rw [count_resolveAllNow_of_other l same]
      exact ih (by rwa [(resolveNow_other l replies same).1])

/-- One with a failure, which no cache keeps, is fetched whenever it occurs. -/
theorem count_fetched_of_failure (urls : List String) (absent : l.cached? url = none) {cause : Failure}
    (reply : replies.reply url = ⟨.failure cause, false⟩) :
    (l.resolveAllNow replies urls).2.2.count url = urls.count url := by
  induction urls generalizing l with
  | nil => rfl
  | cons other rest ih =>
    by_cases same : other = url
    · subst same
      have step := resolveNow_absent absent (by rw [reply])
      rw [reply, Answer.result, store_error] at step
      rw [count_resolveAllNow_cons, step, ih absent, List.count_singleton_self, List.count_cons_self, Nat.add_comm]
    · rw [count_resolveAllNow_of_other l same, List.count_cons_of_ne same]
      exact ih (by rwa [(resolveNow_other l replies same).1])

/-- One with a text, which a cache keeps, is fetched where it occurs first. -/
theorem count_fetched_of_body (cached : l.cache.isSome) (absent : l.cached? url = none) {text : String}
    (reply : replies.reply url = ⟨.body text, false⟩) (member : url ∈ urls) :
    (l.resolveAllNow replies urls).2.2.count url = 1 := by
  induction urls generalizing l with
  | nil => cases member
  | cons other rest ih =>
    by_cases same : other = url
    · subst same
      have step := resolveNow_absent absent (by rw [reply])
      rw [reply, Answer.result] at step
      have held : (l.store other (.ok text)).cached? other ≠ none := by
        rw [cached?_store_ok cached]
        exact Option.some_ne_none text
      rw [count_resolveAllNow_cons, step, count_fetched_of_held rest held, List.count_singleton_self]
    · rw [count_resolveAllNow_of_other l same]
      have behind : url ∈ rest := (List.mem_cons.mp member).resolve_left (Ne.symm same)
      have kept : (l.resolveNow replies other).1.cache.isSome := by rwa [isSome_cache_resolveNow]
      exact ih kept (by rwa [(resolveNow_other l replies same).1]) behind

end

end Loader

/-! ## Batches in a world -/

namespace World

/-- The steps that resolve URLs one after another. -/
def oneByOne (k : Nat) (urls : List String) : List Step := urls.map fun url => .act k (.resolveUrl url)

/-- A batch, its resolutions polled in turn, and the same URLs one after another come to the same, with so many fetches
of each URL. -/
structure Batched (w : World) (k : Nat) (l : Loader) (urls : List String) (results : List (Except ColorError Color))
    (fetched : List String) (last : World) : Prop where
  batch : w.step (.act k (.resolveUrls urls)) = (last, ⟨.colors results, [], fetched⟩)
  polled : ∃ futures next, futures.map Future.result? = results.map some ∧ w.put k next = last ∧
    ∀ others other reached, Future.Polls w.replies (urls.map Future.begin) l others other reached ↔
      others = futures ∧ other = next ∧ reached = fetched
  world : (w.run (oneByOne k urls)).1 = last
  outcomes : (w.run (oneByOne k urls)).2.map Report.outcome = results.map .color
  reached : (w.run (oneByOne k urls)).2.flatMap Report.fetched = fetched
  uncached : l.cache = none → fetched = urls
  body : l.cache.isSome → ∀ url ∈ urls, ∀ text, w.replies.reply url = ⟨.body text, false⟩ →
    fetched.count url = if (l.cached? url).isSome then 0 else 1
  failure : ∀ url ∈ urls, ∀ cause, w.replies.reply url = ⟨.failure cause, false⟩ →
    fetched.count url = if (l.cached? url).isSome then 0 else urls.count url

variable {w : World} {k : Nat} {l : Loader} {urls : List String}

/-- What the loader does with a batch, URL by URL. -/
theorem run_oneByOne (alive : w.loader? k = some l) (urls : List String) :
    (w.run (oneByOne k urls)).1 = w.put k (l.resolveAllNow w.replies urls).1 ∧
    (w.run (oneByOne k urls)).2.map Report.outcome =
      (l.resolveAllNow w.replies urls).2.1.map (fun found => found.elim .blocked .color) ∧
    (w.run (oneByOne k urls)).2.flatMap Report.fetched = (l.resolveAllNow w.replies urls).2.2 := by
  induction urls generalizing w l with
  | nil => exact ⟨(put_self alive).symm, rfl, rfl⟩
  | cons url rest ih =>
    obtain ⟨last, outcomes, reached⟩ := ih (loader?_put alive (l.resolveNow w.replies url).1)
    rw [put_put] at last
    rw [oneByOne, List.map_cons, run, step_act_eq alive (.resolveUrl url) rfl]
    exact ⟨last, congrArg (_ :: ·) outcomes, congrArg (_ ++ ·) reached⟩

/-- Main statement: a batch whose replies come at once gives what its URLs give one after another, and reaches the
fetcher with the same URLs. -/
theorem batch_one_by_one (alive : w.loader? k = some l) (prompt : ∀ url ∈ urls, (w.replies.reply url).Prompt) :
    ∃ results fetched last, Batched w k l urls results fetched last := by
  obtain ⟨results, found⟩ := l.resolveAllNow_prompt prompt
  obtain ⟨last, outcomes, reached⟩ := run_oneByOne alive urls
  obtain ⟨futures, polls, ended⟩ := Future.polls_begin w.replies l urls
  rw [found] at outcomes ended
  rw [List.map_map] at outcomes
  have collected : (results.map some).mapM id = some results := by
    rw [List.mapM_map]
    exact List.mapM_pure.trans (by simp)
  refine ⟨results, (l.resolveAllNow w.replies urls).2.2, w.put k (l.resolveAllNow w.replies urls).1, ?_⟩
  constructor
  case batch =>
    rw [step_act_eq alive (.resolveUrls urls) rfl]
    change (w.put k (l.resolveAllNow w.replies urls).1,
      Report.mk (((l.resolveAllNow w.replies urls).2.1.mapM id).elim .blocked .colors) [] _) = _
    rw [found, collected]
    rfl
  case polled =>
    refine ⟨futures, (l.resolveAllNow w.replies urls).1, ended, rfl, fun others other reached => ⟨fun again => ?_, ?_⟩⟩
    · exact again.unique polls
    · rintro ⟨rfl, rfl, rfl⟩
      exact polls
  case world => exact last
  case outcomes => exact outcomes
  case reached => exact reached
  case uncached => exact l.resolveAllNow_fetched_of_uncached urls
  case body =>
    intro cached url member text reply
    cases held : l.cached? url with
    | some text => exact l.count_fetched_of_held urls (by simp [held])
    | none => exact l.count_fetched_of_body cached held reply member
  case failure =>
    intro url member cause reply
    cases held : l.cached? url with
    | some text => exact l.count_fetched_of_held urls (by simp [held])
    | none => exact l.count_fetched_of_failure urls held reply

/-- With a cache, a text and a failure twice each. -/
theorem batch_one_by_one_of_repeats :
    let w := opened .sharded (Table.empty.insert "a" ⟨.body "red", false⟩) [({}, true)]
    ∃ results fetched last, Batched w 0 (Loader.fresh {} true) ["a", "b", "a", "b"] results fetched last ∧
      fetched.count "a" = 1 ∧ fetched.count "b" = 2 := by
  intro w
  have prompt : ∀ url ∈ ["a", "b", "a", "b"], (w.replies.reply url).Prompt := by
    have a : (w.replies.reply "a").Prompt := .body "red"
    have b : (w.replies.reply "b").Prompt := .failure (.status 404)
    simp [a, b]
  obtain ⟨results, fetched, last, batched⟩ := batch_one_by_one (w := w) (k := 0) (l := Loader.fresh {} true) rfl prompt
  exact ⟨results, fetched, last, batched, batched.body rfl "a" (by decide) "red" rfl,
    batched.failure "b" (by decide) (.status 404) rfl⟩

/-- A failure is not fetched while the cache holds a text from before. -/
theorem failure_behind_text :
    let w := ((opened .sharded (Table.empty.insert "u" ⟨.body "red", false⟩) [({}, true)]).run
      [.act 0 (.resolveUrl "u"), .setReply "u" ⟨.failure .timeout, false⟩]).1
    (∀ url ∈ ["u", "u"], (w.replies.reply url).Prompt) ∧ w.replies.reply "u" = ⟨.failure .timeout, false⟩ ∧
      (w.loader? 0).any (fun l => l.cache.isSome) ∧
      (w.step (.act 0 (.resolveUrls ["u", "u"]))).2.fetched.count "u" ≠ ["u", "u"].count "u" := by
  intro w
  have reply : w.replies.reply "u" = ⟨.failure .timeout, false⟩ := by decide +kernel
  have prompt : (w.replies.reply "u").Prompt := reply ▸ .failure .timeout
  exact ⟨by simp [prompt], reply, by decide +kernel, by decide +kernel⟩

end World

end ColorResolution
