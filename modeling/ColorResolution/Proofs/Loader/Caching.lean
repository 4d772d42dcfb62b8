import Mathlib.Data.List.Forall2
import ColorResolution.Proofs.Fetch.Transparency
import ColorResolution.Proofs.Loader.Conservation

/-!
# A loader's cache as a caching fetcher

What happens to a loader with a cache is a run of a caching fetcher: a task that waits at a gate is a fetch that has
reached the inner fetcher, opening the gate brings its answer, and to cancel it or to end the runtime is to abandon it.
The URLs that reach the fetcher, the clears and the results of direct fetches are those of the run. So with fixed
replies the cache of a loader does not show.
-/
namespace ColorResolution

namespace Happening

/-- The URL that reaches the inner fetcher. -/
def reachedUrl? : Happening → Option String
  | .reached _ url => some url
  | _ => none

/-- The result that a fetch returns. -/
def result? : Happening → Option (Except FetchError String)
  | .served _ _ text => some (.ok text)
  | .finished _ _ result => some result
  | _ => none

def isClear : Happening → Bool
  | .forgot _ => true
  | .cleared => true
  | _ => false

end Happening

/-- What a clear of a loader's cache is. -/
def Action.clears : Action → List Happening
  | .clearCache => [.cleared]
  | .clearCached url => [.forgot url]
  | _ => []

namespace Moment

/-- The URLs with which a loader's step reached the fetcher. -/
def fetched (k : Nat) (m : Moment) : List String := (m.event.action? k).elim [] fun _ => m.report.fetched

/-- The clears of a loader's cache. -/
def clears (k : Nat) (m : Moment) : List Happening := (m.event.action? k).elim [] Action.clears

end Moment

open CachingFetcher

variable {gives : String → Except FetchError String → Prop}

/-- What is seen of a part of a run. -/
structure Shows (gives : String → Except FetchError String → Prop) (fetched : List String) (clears : List Happening)
    (part : List Happening) : Prop where
  answered : Answered gives part
  fetched : part.filterMap Happening.reachedUrl? = fetched
  clears : part.filter Happening.isClear = clears

theorem Shows.nothing : Shows gives [] [] [] := ⟨by simp [Answered], rfl, rfl⟩

theorem Shows.append {fetched more : List String} {clears others part later : List Happening}
    (shows : Shows gives fetched clears part) (next : Shows gives more others later) :
    Shows gives (fetched ++ more) (clears ++ others) (part ++ later) where
  answered := fun id url result member =>
    (List.mem_append.mp member).elim (shows.answered id url result) (next.answered id url result)
  fetched := by rw [List.filterMap_append, shows.fetched, next.fetched]
  clears := by rw [List.filter_append, shows.clears, next.clears]

theorem shows_served (id : Nat) (url text : String) : Shows gives [] [] [.began id url, .served id url text] :=
  ⟨by simp [Answered], rfl, rfl⟩

theorem shows_reached (id : Nat) (url : String) :
    Shows gives [url] [] [.began id url, .missed id url, .reached id url] :=
  ⟨by simp [Answered], rfl, rfl⟩

theorem shows_returned (id : Nat) {url : String} {result : Except FetchError String} (given : gives url result) :
    Shows gives [] [] [.answered id url result, .finished id url result] := by
  refine ⟨?_, rfl, rfl⟩
  intro other url' result' member
  simp only [List.mem_cons, Happening.answered.injEq, List.not_mem_nil, or_false, reduceCtorEq] at member
  obtain ⟨rfl, rfl, rfl⟩ := member
  exact given

theorem shows_abandoned (id : Nat) (url : String) : Shows gives [] [] [.abandoned id url] :=
  ⟨by simp [Answered], rfl, rfl⟩

/-- The replies that the inner fetcher gives. -/
def Replies.Give (gives : String → Except FetchError String → Prop) (replies : Replies) : Prop :=
  replies.All fun url reply => gives url (reply.answer.result url)

/-- An event that brings only replies that the inner fetcher gives. -/
def Event.Gives (gives : String → Except FetchError String → Prop) (e : Event) : Prop :=
  e.Brings fun url reply => gives url (reply.answer.result url)

namespace Loader

/-- The fetch of a task at a gate. -/
structure AtGate (gives : String → Except FetchError String → Prop) (f : Flight) (w : Waiting) : Prop where
  url : f.url = w.url
  stage : f.stage = .reached
  gives : gives w.url (w.answer.result w.url)

/-- A loader and its cache as a caching fetcher. -/
structure Caches (gives : String → Except FetchError String → Prop) (l : Loader) (s : CachingFetcher) : Prop where
  cache : l.cache = some s.cache
  flights : List.Forall₂ (AtGate gives) s.flights l.waiting

variable {l next : Loader} {s t : CachingFetcher}

theorem Caches.cached? (caches : Caches gives l s) (url : String) : l.cached? url = s.cache.get? url := by
  rw [Loader.cached?, caches.cache, Option.bind_some]

/-- A part of a run that leads to a loader and its cache. -/
structure Leads (gives : String → Except FetchError String → Prop) (s : CachingFetcher) (fetched : List String)
    (clears part : List Happening) (next : Loader) (t : CachingFetcher) : Prop where
  shows : Shows gives fetched clears part
  run : Run s part t
  caches : Caches gives next t

theorem Caches.stays (caches : Caches gives l s) : Leads gives s [] [] [] l s := ⟨.nothing, .nil, caches⟩

/-! ## Direct fetches -/

theorem Caches.fetchNow (caches : Caches gives l s) {replies : Replies} (give : replies.Give gives) (url : String) :
    ∃ part t, Leads gives s (l.fetchNow replies url).2.2 [] part (l.fetchNow replies url).1 t ∧
      part.findSome? Happening.result? = (l.fetchNow replies url).2.1 := by
  unfold Loader.fetchNow
  rw [caches.cached?]
  split
  next text held =>
    exact ⟨_, _, ⟨shows_served _ url text, run_served held, caches.cache, caches.flights⟩, rfl⟩
  next absent =>
    dsimp only
    split
    next gated =>
      have abandoned := (run_reached absent).trans (run_abandoned _ _ _ s.flights [])
      rw [List.append_nil] at abandoned
      have shows : Shows gives [url] [] _ := (shows_reached s.nextId url).append (shows_abandoned s.nextId url)
      exact ⟨_, _, ⟨shows, abandoned, caches.cache, caches.flights⟩, rfl⟩
    next =>
      have returned := run_fetched absent ((replies.reply url).answer.result url)
      have shows := (shows_reached s.nextId url).append (shows_returned s.nextId (give url))
      refine ⟨_, _, ⟨shows, returned, ?_, caches.flights⟩, rfl⟩
      simp [store, caches.cache]

theorem Caches.resolveAllNow (caches : Caches gives l s) {replies : Replies} (give : replies.Give gives)
    (urls : List String) :
    ∃ part t, Leads gives s (l.resolveAllNow replies urls).2.2 [] part (l.resolveAllNow replies urls).1 t := by
  induction urls generalizing l s with
  | nil => exact ⟨[], s, caches.stays⟩
  | cons url rest ih =>
    obtain ⟨part, m, first, _⟩ := caches.fetchNow give url
    obtain ⟨later, t, others⟩ := ih first.caches
    exact ⟨part ++ later, t, first.shows.append others.shows, first.run.trans others.run, others.caches⟩

/-! ## Requests and their tasks -/

theorem Caches.request (caches : Caches gives l s) {env : Environment} (give : env.replies.Give gives) (url : String) :
    ∃ part t, Leads gives s (l.request env url).2 [] part (l.request env url).1 t := by
  unfold Loader.request
  dsimp only
  split
  · exact ⟨[], s, .nothing, .nil, caches.cache, caches.flights⟩
  · rw [caches.cached?]
    split
    next text held =>
      exact ⟨_, _, shows_served _ url text, run_served held, caches.cache, caches.flights⟩
    next absent =>
      split
      next gated =>
        refine ⟨_, _, shows_reached _ url, run_reached absent, caches.cache, ?_⟩
        exact List.rel_append caches.flights (.cons ⟨rfl, rfl, give url⟩ .nil)
      next =>
        have returned := run_fetched absent ((env.replies.reply url).answer.result url)
        have shows := (shows_reached s.nextId url).append (shows_returned s.nextId (give url))
        refine ⟨_, _, shows, returned, ?_, caches.flights⟩
        simp [settle, store, complete, caches.cache]

/-- The fetches of some tasks leave one after another, each in its way. -/
theorem leave {flights : List Flight} {waiting : List Waiting} (atGates : List.Forall₂ (AtGate gives) flights waiting)
    (p : Waiting → Bool) (effect : Cache → Waiting → Cache)
    (leaves : ∀ f w, AtGate gives f w → ∃ part, Shows gives [] [] part ∧
      ∀ c n before after, Run ⟨c, n, before ++ f :: after⟩ part ⟨effect c w, n, before ++ after⟩)
    (c : Cache) (n : Nat) (before : List Flight) :
    ∃ part left, Shows gives [] [] part ∧ List.Forall₂ (AtGate gives) left (waiting.filter fun w => !p w) ∧
      Run ⟨c, n, before ++ flights⟩ part ⟨(waiting.filter p).foldl effect c, n, before ++ left⟩ := by
  induction atGates generalizing c before with
  | nil => exact ⟨[], [], .nothing, .nil, .nil⟩
  | @cons f w flights waiting atGate _ ih =>
    -- `before` are the fetches that have stayed so far
    by_cases goes : p w = true
    · obtain ⟨part, shows, run⟩ := leaves f w atGate
      obtain ⟨later, left, others, stay, rest⟩ := ih (effect c w) before
      refine ⟨part ++ later, left, shows.append others, ?_, ?_⟩
      · simpa [goes] using stay
      · rw [List.filter_cons_of_pos goes]
        exact (run c n before flights).trans rest
    · obtain ⟨later, left, others, stay, rest⟩ := ih c (before ++ [f])
      refine ⟨later, f :: left, others, ?_, ?_⟩
      · rw [List.filter_cons_of_pos (by simpa using goes)]
        exact .cons atGate stay
      · rw [List.filter_cons_of_neg goes]
        simpa using rest

/-- The fetches of tasks at an open gate get their answers and store them. -/
theorem Caches.settleWhere (caches : Caches gives l s) (p : Waiting → Bool) :
    ∃ part t, Leads gives s [] [] part (l.settleWhere p) t := by
  obtain ⟨part, left, shows, stay, run⟩ :=
    leave caches.flights p (fun c w => c.finish w.url (w.answer.result w.url)) (by
      rintro ⟨id, url, stage⟩ w ⟨rfl, rfl, given⟩
      exact ⟨_, shows_returned id given, fun c n before after => run_returned c n id _ before after _⟩)
      s.cache s.nextId []
  refine ⟨part, _, shows, run, ?_, ?_⟩
  · rw [settleWhere_cache, caches.cache, Option.map_some]
  · obtain ⟨cache, next⟩ := settleWhere_eq p l
    rw [next]
    exact stay

/-- The fetches of tasks that are ended are abandoned. -/
theorem Caches.abandon (caches : Caches gives l s) (p : Waiting → Bool) (sameCache : next.cache = l.cache)
    (others : next.waiting = l.waiting.filter fun w => !p w) : ∃ part t, Leads gives s [] [] part next t := by
  obtain ⟨part, left, shows, stay, run⟩ :=
    leave caches.flights p (fun c _ => c) (fun f w _ =>
      ⟨_, shows_abandoned f.id f.url, fun c n before after => run_abandoned c n f before after⟩) s.cache s.nextId []
  have unchanged : (l.waiting.filter p).foldl (fun c _ => c) s.cache = s.cache := by
    rw [List.foldl_fixed]
  rw [unchanged] at run
  exact ⟨part, _, shows, run, sameCache.trans caches.cache, others ▸ stay⟩

/-! ## Steps -/

theorem Caches.cancel (caches : Caches gives l s) (id : Nat) :
    ∃ part t, Leads gives s [] [] part (l.cancel id).1 t := by
  unfold Loader.cancel
  split
  · dsimp only
    split
    · exact caches.abandon (fun w => w.id == id) rfl rfl
    · exact caches.abandon (fun w => w.id == id) rfl rfl
  · exact ⟨[], s, caches.stays⟩

/-- Dispatching touches neither the cache nor the tasks. -/
theorem Caches.dispatched {fired : List Completion} (caches : Caches gives l s) (dispatched : Dispatched l fired next) :
    Leads gives s [] [] [] next s := by
  obtain ⟨_, _, _, frame⟩ := dispatched
  refine ⟨.nothing, .nil, ?_⟩
  rw [frame]
  exact ⟨caches.cache, caches.flights⟩

theorem act_fetched_of_dispatches (env : Environment) (self : Nat) (l : Loader) {action : Action}
    (dispatches : action.Dispatches) : (l.act env self action).2.fetched = [] := by
  rcases dispatches with rfl | rfl | rfl
  · rfl
  · simp only [Loader.act]
    split <;> rfl
  · rfl

theorem Caches.clear (caches : Caches gives l s) :
    ∃ t, Leads gives s [] [.cleared] [.cleared] { l with cache := l.cache.map fun _ => Table.empty } t := by
  have cleared : Run s ([] ++ [.cleared]) _ := Run.nil.concat .clears
  refine ⟨_, ⟨by simp [Answered], rfl, rfl⟩, cleared, ?_, caches.flights⟩
  simp [caches.cache]

theorem Caches.forget (caches : Caches gives l s) (url : String) :
    ∃ t, Leads gives s [] [.forgot url] [.forgot url] { l with cache := l.cache.map fun c => c.erase url } t := by
  have forgotten : Run s ([] ++ [.forgot url]) _ := Run.nil.concat (.forgets url)
  refine ⟨_, ⟨by simp [Answered], rfl, rfl⟩, forgotten, ?_, caches.flights⟩
  simp [caches.cache]

theorem Caches.act (caches : Caches gives l s) {env : Environment} (give : env.replies.Give gives) (self : Nat)
    (action : Action) :
    ∃ part t, Leads gives s (l.act env self action).2.fetched action.clears part (l.act env self action).1 t := by
  by_cases dispatches : action.Dispatches
  · have leads := caches.dispatched (act_dispatched env self l dispatches)
    rw [act_fetched_of_dispatches env self l dispatches]
    rcases dispatches with rfl | rfl | rfl <;> exact ⟨[], s, leads⟩
  · cases action with
    | request url => exact caches.request give url
    | cancel handle =>
      simp only [Loader.act]
      split
      · exact caches.cancel handle.id
      · exact ⟨[], s, caches.stays⟩
    | resolveUrl url =>
      obtain ⟨part, t, leads, _⟩ := caches.fetchNow give url
      exact ⟨part, t, leads⟩
    | resolveUrls urls => exact caches.resolveAllNow give urls
    | fetch url =>
      obtain ⟨part, t, leads, _⟩ := caches.fetchNow give url
      exact ⟨part, t, leads⟩
    | clearCache => exact ⟨[.cleared], caches.clear⟩
    | clearCached url => exact ⟨[.forgot url], caches.forget url⟩
    | dispatchReady => exact absurd (.inl rfl) dispatches
    | dispatchNext => exact absurd (.inr (.inl rfl)) dispatches
    | dispatchAll => exact absurd (.inr (.inr rfl)) dispatches
    | _ => exact ⟨[], s, caches.stays⟩

/-- The outcome of a direct fetch is what the fetch of that part of the run returns. -/
def Told (action : Action) (outcome : Outcome) (part : List Happening) : Prop :=
  ∀ url, action = .fetch url → outcome = (part.findSome? Happening.result?).elim .blocked .body

theorem Caches.act_told (caches : Caches gives l s) {env : Environment} (give : env.replies.Give gives) (self : Nat)
    (action : Action) :
    ∃ part t, Leads gives s (l.act env self action).2.fetched action.clears part (l.act env self action).1 t ∧
      Told action (l.act env self action).2.outcome part := by
  by_cases fetches : ∃ url, action = .fetch url
  · obtain ⟨url, rfl⟩ := fetches
    obtain ⟨part, t, leads, found⟩ := caches.fetchNow give url
    refine ⟨part, t, leads, fun _ _ => ?_⟩
    rw [found]
    rfl
  · obtain ⟨part, t, leads⟩ := caches.act give self action
    exact ⟨part, t, leads, fun url same => absurd ⟨url, same⟩ fetches⟩

end Loader

/-- A part of a run depicts a moment of a loader: the URLs that reached the fetcher, the clears, the result of a direct
fetch. -/
structure Moment.Depicted (gives : String → Except FetchError String → Prop) (k : Nat) (m : Moment)
    (part : List Happening) : Prop where
  shows : Shows gives (m.fetched k) (m.clears k) part
  told : ∀ action, m.event = .step (.act k action) → Loader.Told action m.report.outcome part

namespace World

open Loader

variable {w : World} {k : Nat} {l next : Loader} {s : CachingFetcher}

theorem caches_occur (caches : Caches gives l s) (e : Event) (alive : w.loader? k = some l)
    (lives : (w.occur e).1.loader? k = some next) (give : w.replies.Give gives) :
    ∃ part t, Run s part t ∧ Caches gives next t ∧ (Moment.of w e).Depicted gives k part := by
  have quiet {part : List Happening} {t : CachingFetcher} (idle : e.action? k = none)
      (leads : Leads gives s [] [] part next t) :
      ∃ part t, Run s part t ∧ Caches gives next t ∧ (Moment.of w e).Depicted gives k part := by
    refine ⟨part, t, leads.run, leads.caches, ?_, ?_⟩
    · simpa [Moment.fetched, Moment.clears, Moment.of, idle] using leads.shows
    · rintro action rfl
      simp [Event.action?] at idle
  have becomes := (loader?_occur alive e).symm.trans lives
  cases undergoes_of_undergo becomes with
  | acts action =>
    have inForce : w.environment.replies.Give gives := give
    obtain ⟨part, t, leads, told⟩ := caches.act_told inForce k action
    refine ⟨part, t, leads.run, leads.caches, ?_, ?_⟩
    · simpa [Moment.fetched, Moment.clears, Moment.of, Event.action?, occur_report alive action] using leads.shows
    · rintro other ⟨⟩
      rw [Moment.of, occur_report alive action]
      exact told
  | releases url =>
    obtain ⟨part, t, leads⟩ := caches.settleWhere (Waiting.isAt url (w.environment.gate url))
    exact quiet rfl leads
  | ends id =>
    obtain ⟨part, t, leads⟩ := caches.settleWhere fun w => w.id == id
    exact quiet rfl leads
  | aborts turn =>
    have sameCache : (l.abortAll turn).cache = l.cache := rfl
    have none : (l.abortAll turn).waiting = l.waiting.filter fun _ => !true := by simp [abortAll]
    obtain ⟨part, t, leads⟩ := caches.abandon (fun _ => true) sameCache none
    exact quiet rfl leads
  | replies url reply => exact quiet rfl caches.stays
  | otherActs action other => exact quiet (by simp [Event.action?, other]) caches.stays
  | otherEnds id other => exact quiet rfl caches.stays
  | otherDropped other => exact quiet rfl caches.stays

/-- The history of a loader with a cache is a run of a caching fetcher, moment by moment. -/
theorem caching_run (runtime : Runtime) (replies : Replies) (loaders : List (Resolver × Bool)) (events : List Event)
    {r : Resolver} (cached : loaders[k]? = some (r, true)) (give : replies.Give gives)
    (bring : ∀ e ∈ events, e.Gives gives)
    (alive : ((opened runtime replies loaders).after events).loader? k = some l) :
    ∃ parts s, List.Forall₂ (Moment.Depicted gives k) ((opened runtime replies loaders).history events) parts ∧
      Run .new parts.flatten s ∧ Caches gives l s := by
  refine holds_while_alive (p := fun events l => (∀ e ∈ events, e.Gives gives) →
    ∃ parts s, List.Forall₂ (Moment.Depicted gives k) ((opened runtime replies loaders).history events) parts ∧
      Run .new parts.flatten s ∧ Caches gives l s) ?_ ?_ events alive bring
  · intro resolver kind here _
    obtain ⟨rfl, rfl⟩ := Prod.mk.inj (Option.some.inj (here.symm.trans cached))
    exact ⟨[], .new, .nil, .nil, rfl, .nil⟩
  · intro events e first l before after depicts bring
    have earlier : ∀ e ∈ events, e.Gives gives := fun e member => bring e (List.mem_append_left _ member)
    obtain ⟨parts, s, depicted, run, caches⟩ := depicts earlier
    have inForce : ((opened runtime replies loaders).after events).replies.Give gives := all_after give earlier
    obtain ⟨part, t, step, next, shows⟩ := caches_occur caches e before after inForce
    rw [history_concat]
    refine ⟨parts ++ [part], t, List.rel_append depicted (.cons shows .nil), ?_, next⟩
    simpa using run.trans step

theorem answered_flatten {h : History} {parts : List (List Happening)}
    (depicted : List.Forall₂ (Moment.Depicted gives k) h parts) : Answered gives parts.flatten := by
  induction depicted with
  | nil => exact Shows.nothing.answered
  | cons one _ ih =>
    intro id url result member
    exact (List.mem_append.mp member).elim (one.shows.answered id url result) (ih id url result)

/-- Main statement: with fixed answers of the inner fetcher a cache in front of it does not show, however fetches and
clears overlap; and the history of every loader with a cache is such a run. -/
theorem cache_transparent (inner : String → Except FetchError String) :
    (∀ trace s, Run .new trace s → AnsweredBy inner trace → Transparent inner trace s) ∧
    ∀ runtime replies loaders events k r l, loaders[k]? = some (r, true) →
      replies.Give (fun url result => result = inner url) →
      (∀ e ∈ events, e.Gives fun url result => result = inner url) →
      ((opened runtime replies loaders).after events).loader? k = some l →
      ∃ parts s, List.Forall₂ (Moment.Depicted (fun url result => result = inner url) k)
          ((opened runtime replies loaders).history events) parts ∧
        Run .new parts.flatten s ∧ l.cache = some s.cache ∧ Transparent inner parts.flatten s := by
  refine ⟨fun trace s run fixed => run.transparent fixed, ?_⟩
  intro runtime replies loaders events k r l cached give bring alive
  obtain ⟨parts, s, depicted, run, caches⟩ := caching_run runtime replies loaders events cached give bring alive
  exact ⟨parts, s, depicted, run, caches.cache, run.transparent (answered_flatten depicted)⟩

/-- A failing fetch by itself, and a world where a gate is opened after a clear. -/
theorem cache_transparent_of_gate :
    let missing : Except FetchError String := .error (.status "v" 404)
    let inner : String → Except FetchError String := fun url => if url = "u" then .ok "red" else .error (.status url 404)
    let w := opened .sharded (Table.empty.insert "u" ⟨.body "red", true⟩) [({}, true)]
    let events : List Event := [.step (.act 0 (.request "u")), .step (.act 0 .clearCache), .step (.release "u"),
      .step (.act 0 (.fetch "u")), .step (.act 0 (.fetch "v"))]
    Transparent inner
        ([.began 0 "v", .missed 0 "v", .reached 0 "v"] ++ [.answered 0 "v" missing, .finished 0 "v" missing])
        ⟨Table.empty, 1, []⟩ ∧
      ∃ l, (w.after events).loader? 0 = some l ∧
        ∃ parts s, List.Forall₂ (Moment.Depicted (fun url result => result = inner url) 0) (w.history events) parts ∧
          Run .new parts.flatten s ∧ l.cache = some s.cache ∧ Transparent inner parts.flatten s := by
  intro missing inner w events
  have transparent := cache_transparent inner
  constructor
  · have absent : CachingFetcher.new.cache.get? "v" = none := rfl
    have alone := run_fetched absent missing
    have given : missing = inner "v" := rfl
    have fixed : AnsweredBy inner _ := ((shows_reached 0 "v").append (shows_returned 0 given)).answered
    exact transparent.1 _ _ alone fixed
  · have give : Replies.Give (fun url result => result = inner url) w.replies := by
      intro url
      simp only [w, opened, Replies.reply, Table.get?_insert, inner]
      split <;> rfl
    have bring : ∀ e ∈ events, e.Gives fun url result => result = inner url := by
      simp [events, Event.Gives, Event.Brings]
    exact ⟨_, rfl, transparent.2 _ _ _ events 0 {} _ rfl give bring rfl⟩

end World

end ColorResolution
