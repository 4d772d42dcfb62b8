import ColorResolution.Proofs.Loader.Delivery
import ColorResolution.Proofs.Loader.Order
import ColorResolution.Proofs.Payload.Bodies

/-!
# Where the results of callbacks come from

A task goes on with the answer that was in force when its request was made, so later replies do not reach it. Main
statement: a callback of a loader without a cache carries what that answer tells, or the abort of its task; an abort
comes from the answer itself, or from a runtime that ended before the answer could come. Without gates the callbacks
fire in the order of the requests.
-/
namespace ColorResolution

/-! ## What an answer tells -/

/-- What a body or a failure tells the callback of a request. A crash tells nothing. -/
inductive Answer.Tells (r : Resolver) (url : String) : Answer → Except ColorError Color → Prop
  | body (text : String) : Tells r url (.body text) (Payload.interpret url text r)
  | failure (cause : Failure) : Tells r url (.failure cause) (.error (.fetch (cause.error url)))

/-- The result of a task that was ended before its fetch. -/
def Completion.aborted : Except ColorError Color := .error (.fetch .aborted)

theorem Answer.tells_or_aborted (r : Resolver) (url : String) (answer : Answer) :
    answer.Tells r url (Payload.ofFetched r url (answer.result url)) ∨
      Payload.ofFetched r url (answer.result url) = Completion.aborted := by
  cases answer with
  | body text => exact .inl (.body text)
  | failure cause => exact .inl (.failure cause)
  | crash => exact .inr rfl

theorem Answer.aborts_of_aborted {r : Resolver} {url : String} {answer : Answer}
    (aborted : Payload.ofFetched r url (answer.result url) = Completion.aborted) :
    answer = .crash ∨ answer = .failure .aborted := by
  cases answer with
  | body text =>
    have failed : Payload.interpret url text r = .error (.fetch .aborted) := aborted
    cases (Payload.interpret_eq_fetch_iff.mp failed).1
  | failure cause =>
    have failed : (.error (.fetch (cause.error url)) : Except ColorError Color) = .error (.fetch .aborted) := aborted
    cases cause <;> simp [Failure.error] at failed ⊢
  | crash => exact .inl rfl

/-! ## Requests and completions of a history -/

/-- The moment at which a loader is asked for a URL and gives out a number, with the answer then in force. -/
structure Moment.Requests (k : Nat) (m : Moment) (id : Nat) (url : String) (answer : Answer) : Prop where
  asked : m.event = .step (.act k (.request url))
  issued : m.report.outcome = .issued ⟨k, id, url⟩
  inForce : (m.before.replies.reply url).answer = answer

/-- The runtime was shut down before a request was made, or afterwards while its task was unfinished. -/
def Interrupted (k id : Nat) (earlier later : History) : Prop :=
  (∃ s ∈ earlier, s.event = .step .shutdown) ∨
    ∃ s ∈ later, s.event = .step .shutdown ∧ ∃ l, s.before.loader? k = some l ∧ id ∈ l.unfinished

/-- A completion carries what the answer to its request tells, or the abort of its task. -/
inductive Carries (r : Resolver) (k : Nat) (h : History) (c : Completion) : Prop
  | of {earlier later : History} {m : Moment} {url : String} {answer : Answer} : h = earlier ++ m :: later →
    m.Requests k c.id url answer → (answer.Tells r url c.result ∨ c.result = Completion.aborted) →
    (c.result = Completion.aborted →
      answer = .crash ∨ answer = .failure .aborted ∨ Interrupted k c.id earlier later) →
    Carries r k h c

theorem Interrupted.concat {k id : Nat} {earlier later : History} (interrupted : Interrupted k id earlier later)
    (m : Moment) : Interrupted k id earlier (later ++ [m]) := by
  rcases interrupted with before | ⟨s, member, ends⟩
  · exact .inl before
  · exact .inr ⟨s, List.mem_append_left _ member, ends⟩

theorem Carries.concat {r : Resolver} {k : Nat} {h : History} {c : Completion} (carries : Carries r k h c)
    (m : Moment) : Carries r k (h ++ [m]) c := by
  obtain @⟨earlier, later, q, _, _, rfl, requests, told, aborted⟩ := carries
  have split : earlier ++ q :: later ++ [m] = earlier ++ q :: (later ++ [m]) := by simp
  refine .of split requests told fun same => ?_
  exact (aborted same).imp_right (Or.imp_right fun interrupted => interrupted.concat m)

/-- The completion of a task that has got its answer. -/
theorem Carries.answered {r : Resolver} {k id : Nat} {h earlier later : History} {m : Moment} {url : String}
    {answer : Answer} (split : h = earlier ++ m :: later) (requests : m.Requests k id url answer) :
    Carries r k h ⟨id, Payload.ofFetched r url (answer.result url)⟩ :=
  .of split requests (answer.tells_or_aborted r url) fun same =>
    (Answer.aborts_of_aborted same).imp_right Or.inl

/-- The completion of a task that the end of the runtime has ended. -/
theorem Carries.interrupted {r : Resolver} {k id : Nat} {h earlier later : History} {m : Moment} {url : String}
    {answer : Answer} (split : h = earlier ++ m :: later) (requests : m.Requests k id url answer)
    (interrupted : Interrupted k id earlier later) : Carries r k h ⟨id, Completion.aborted⟩ :=
  .of split requests (.inr rfl) fun _ => .inr (.inr interrupted)

namespace Loader

/-- Where the tasks and the wanted completions of a loader without a cache come from. -/
structure Traced (r : Resolver) (k : Nat) (h : History) (l : Loader) : Prop where
  resolver : l.resolver = r
  uncached : l.cache = none
  waiting : ∀ task ∈ l.waiting, ∃ earlier m later,
    h = earlier ++ m :: later ∧ m.Requests k task.id task.url task.answer
  queued : ∀ c ∈ l.queue, c.id ∈ l.pending → Carries r k h c

namespace Traced

variable {r : Resolver} {k : Nat} {h : History} {l next : Loader}

theorem concat (traced : Traced r k h l) (m : Moment) (resolver : next.resolver = l.resolver)
    (uncached : next.cache = none)
    (waiting : ∀ task ∈ next.waiting, task ∈ l.waiting ∨ m.Requests k task.id task.url task.answer)
    (queued : ∀ c ∈ next.queue, c.id ∈ next.pending → c ∈ l.queue ∧ c.id ∈ l.pending ∨ Carries r k (h ++ [m]) c) :
    Traced r k (h ++ [m]) next where
  resolver := resolver.trans traced.resolver
  uncached := uncached
  waiting := by
    intro task waits
    rcases waiting task waits with before | new
    · obtain ⟨earlier, q, later, rfl, requests⟩ := traced.waiting task before
      exact ⟨earlier, q, later ++ [m], by simp, requests⟩
    · exact ⟨h, m, [], rfl, new⟩
  queued := by
    intro c belongs pending
    rcases queued c belongs pending with ⟨old, wanted⟩ | new
    · exact (traced.queued c old wanted).concat m
    · exact new

/-- What touches neither the tasks nor the wanted completions. -/
theorem rest (traced : Traced r k h l) (m : Moment) : Traced r k (h ++ [m]) l :=
  traced.concat m rfl traced.uncached (fun _ => .inl) fun _ belongs pending => .inl ⟨belongs, pending⟩

end Traced

/-! ## Loaders without a cache -/

section
variable {l : Loader}

theorem request_uncached (env : Environment) (url : String) (uncached : l.cache = none) :
    let issued := { l with nextId := l.nextId + 1, pending := l.pending ++ [l.nextId] }
    let reply := env.replies.reply url
    env.running = false ∧ (l.request env url).1 = issued.complete l.nextId Completion.aborted ∨
    env.running = true ∧ (l.request env url).1 =
        { issued with waiting := l.waiting ++ [⟨l.nextId, url, env.gate url, reply.answer⟩] } ∨
    env.running = true ∧
      (l.request env url).1 = issued.complete l.nextId (Payload.ofFetched l.resolver url (reply.answer.result url)) := by
  have unknown : l.cached? url = none := by rw [cached?, uncached]; rfl
  intro issued reply
  cases running : env.running with
  | false => exact .inl ⟨rfl, by simp [request, running, issued, Completion.aborted]⟩
  | true =>
    refine .inr ?_
    by_cases gated : reply.gated = true
    · exact .inl ⟨rfl, by simp [request, running, unknown, issued, reply, gated]⟩
    · refine .inr ⟨rfl, ?_⟩
      simp [request, running, unknown, issued, reply, gated, settle, store, uncached]

theorem fetchNow_uncached (replies : Replies) (url : String) (uncached : l.cache = none) :
    (l.fetchNow replies url).1.cache = none := by
  unfold fetchNow
  split
  · exact uncached
  · dsimp only
    split
    · exact uncached
    · simp [store, uncached]

theorem resolveAllNow_uncached (replies : Replies) (urls : List String) (uncached : l.cache = none) :
    (l.resolveAllNow replies urls).1.cache = none := by
  induction urls generalizing l with
  | nil => exact uncached
  | cons url rest ih => exact ih (fetchNow_uncached replies url uncached)

/-- A quiet action leaves a loader without a cache as it is. -/
theorem act_uncached (env : Environment) (self : Nat) {action : Action} (uncached : l.cache = none)
    (noRequest : ∀ url, action ≠ .request url) (noCancel : ∀ handle, action ≠ .cancel handle)
    (other : ¬ action.Dispatches) : (l.act env self action).1 = l := by
  obtain ⟨cache, frame⟩ := act_quiet env self l noRequest noCancel other
  have none : cache = none := by
    have kept : (l.act env self action).1.cache = cache := by rw [frame]
    rw [← kept]
    cases action with
    | resolveUrl url => exact fetchNow_uncached env.replies url uncached
    | resolveUrls urls => exact resolveAllNow_uncached env.replies urls uncached
    | fetch url => exact fetchNow_uncached env.replies url uncached
    | request url => exact absurd rfl (noRequest url)
    | cancel handle => exact absurd rfl (noCancel handle)
    | dispatchReady => exact absurd (.inl rfl) other
    | dispatchNext => exact absurd (.inr (.inl rfl)) other
    | dispatchAll => exact absurd (.inr (.inr rfl)) other
    | _ => simp [act, uncached]
  rw [frame, none, ← uncached]

end

/-! ## One event -/

namespace Traced

variable {r : Resolver} {k : Nat} {h : History} {l : Loader} {w : World}

/-- A request is asked of a living loader at the moment at which it happens. -/
theorem requests (alive : w.loader? k = some l) (url : String) :
    (Moment.of w (.step (.act k (.request url)))).Requests k l.nextId url (w.replies.reply url).answer where
  asked := rfl
  issued := congrArg Report.outcome (World.occur_report alive (.request url))
  inForce := rfl

theorem request (traced : Traced r k h l) (kept : Kept k h l) (alive : w.loader? k = some l) (url : String)
    (ended : w.running = false → ∃ s ∈ h, s.event = .step .shutdown) :
    Traced r k (h ++ [.of w (.step (.act k (.request url)))]) (l.request w.environment url).1 := by
  have moment := requests alive url
  have whole : h ++ [Moment.of w (.step (.act k (.request url)))] = h ++ .of w (.step (.act k (.request url))) :: [] := rfl
  -- a completion that was in the queue before is of another request
  have old : ∀ c ∈ l.queue, c.id ∈ l.pending ++ [l.nextId] → c.id ∈ l.pending := by
    intro c belongs pending
    rcases List.mem_append.mp pending with before | new
    · exact before
    · obtain ⟨taken, split, _⟩ := kept.completions
      have sent : c.id ∈ h.issued k := by
        rw [kept.tasks.mem_iff, split, List.map_append]
        exact List.mem_append_right _ (List.mem_append_right _ (List.mem_map_of_mem belongs))
      rw [List.mem_singleton.mp new, kept.numbered] at sent
      exact absurd sent (by simp)
  have completed (result : Except ColorError Color)
      (new : Carries r k (h ++ [Moment.of w (.step (.act k (.request url)))]) ⟨l.nextId, result⟩) :
      Traced r k (h ++ [.of w (.step (.act k (.request url)))])
        (complete { l with nextId := l.nextId + 1, pending := l.pending ++ [l.nextId] } l.nextId result) := by
    refine traced.concat _ rfl traced.uncached (fun _ => .inl) fun c belongs pending => ?_
    rcases List.mem_append.mp belongs with before | added
    · exact .inl ⟨before, old c before pending⟩
    · exact .inr (List.mem_singleton.mp added ▸ new)
  rcases request_uncached w.environment url traced.uncached with ⟨stopped, next⟩ | ⟨_, next⟩ | ⟨_, next⟩
  · rw [next]
    exact completed _ (.interrupted whole moment (.inl (ended stopped)))
  · rw [next]
    refine traced.concat _ rfl traced.uncached (fun task waits => ?_) fun c belongs pending =>
      .inl ⟨belongs, old c belongs pending⟩
    rcases List.mem_append.mp waits with before | new
    · exact .inl before
    · rw [List.mem_singleton.mp new]
      exact .inr moment
  · rw [next]
    refine completed _ ?_
    rw [traced.resolver]
    exact .answered whole moment

theorem cancel (traced : Traced r k h l) (kept : Kept k h l) (m : Moment) (id : Nat) :
    Traced r k (h ++ [m]) (l.cancel id).1 := by
  by_cases member : id ∈ l.pending
  · have wanted : ∀ c ∈ l.queue, c.id ∈ l.pending.erase id → c ∈ l.queue ∧ c.id ∈ l.pending :=
      fun c belongs left => ⟨belongs, List.mem_of_mem_erase left⟩
    rw [Loader.cancel, if_pos member]
    dsimp only
    split
    · refine traced.concat m rfl traced.uncached (fun _ waits => .inl (List.mem_of_mem_filter waits)) ?_
      intro c belongs left
      rcases List.mem_append.mp belongs with before | stale
      · exact .inl (wanted c before left)
      · -- the completion of the cancelled request is not wanted
        rw [List.mem_singleton.mp stale] at left
        exact absurd left (kept.pending_nodup.not_mem_erase)
    · exact traced.concat m rfl traced.uncached (fun _ waits => .inl (List.mem_of_mem_filter waits))
        fun c belongs left => .inl (wanted c belongs left)
  · rw [cancel_foreign member]
    exact traced.rest m

theorem dispatch {next : Loader} {fired : List Completion} (traced : Traced r k h l) (m : Moment)
    (dispatched : Dispatched l fired next) : Traced r k (h ++ [m]) next := by
  have conserved := dispatched.perm
  obtain ⟨taken, split, _, frame⟩ := dispatched
  refine traced.concat m (by rw [frame]) (by rw [frame]; exact traced.uncached) ?_ ?_
  · intro _ waits
    exact .inl (by rwa [frame] at waits)
  intro c belongs pending
  refine .inl ⟨?_, ?_⟩
  · rw [split]
    exact List.mem_append_right _ belongs
  · rw [conserved.mem_iff]
    exact List.mem_append_left _ pending

/-- The tasks that go on carry the answers with which they came to their gates. -/
theorem settle (traced : Traced r k h l) (m : Moment) (p : Waiting → Bool) : Traced r k (h ++ [m]) (l.settleWhere p) := by
  have uncached : (l.settleWhere p).cache = none := by rw [settleWhere_cache, traced.uncached]; rfl
  obtain ⟨cache, next⟩ := settleWhere_eq p l
  refine traced.concat m (by rw [next]) uncached ?_ ?_
  · intro task waits
    rw [next] at waits
    exact .inl (List.mem_of_mem_filter waits)
  · intro c belongs pending
    rw [next] at belongs pending
    rcases List.mem_append.mp belongs with before | new
    · exact .inl ⟨before, pending⟩
    · obtain ⟨task, waits, rfl⟩ := List.mem_map.mp new
      obtain ⟨earlier, q, later, split, requests⟩ := traced.waiting task (List.mem_of_mem_filter waits)
      rw [← traced.resolver]
      exact .inr ((Carries.answered split requests).concat m)

theorem abort (traced : Traced r k h l) (turn : Nat → Nat) (alive : w.loader? k = some l) :
    Traced r k (h ++ [.of w (.step .shutdown)]) (l.abortAll turn) := by
  refine traced.concat _ rfl traced.uncached (fun _ waits => absurd waits List.not_mem_nil) fun c belongs pending => ?_
  rcases List.mem_append.mp belongs with before | new
  · exact .inl ⟨before, pending⟩
  · obtain ⟨task, waits, rfl⟩ := List.mem_map.mp new
    have waits := (inTurn_perm turn l.waiting).mem_iff.mp waits
    obtain ⟨earlier, q, later, rfl, requests⟩ := traced.waiting task waits
    have split : earlier ++ q :: later ++ [Moment.of w (.step .shutdown)] =
        earlier ++ q :: (later ++ [.of w (.step .shutdown)]) := by simp
    refine .inr (.interrupted split requests (.inr ⟨.of w (.step .shutdown), by simp, rfl, l, alive, ?_⟩))
    exact List.mem_map_of_mem waits

theorem occur {next : Loader} (traced : Traced r k h l) (kept : Kept k h l) (e : Event) (alive : w.loader? k = some l)
    (lives : (w.occur e).1.loader? k = some next) (ended : w.running = false → ∃ s ∈ h, s.event = .step .shutdown) :
    Traced r k (h ++ [.of w e]) next := by
  have becomes := (World.loader?_occur alive e).symm.trans lives
  cases undergoes_of_undergo becomes with
  | acts action =>
    by_cases dispatches : action.Dispatches
    · exact traced.dispatch _ (act_dispatched w.environment k l dispatches)
    · cases action with
      | request url => exact traced.request kept alive url ended
      | cancel handle =>
        by_cases own : handle.loader = k
        · simp only [act, if_pos own]
          exact traced.cancel kept _ handle.id
        · simp only [act, if_neg own]
          exact traced.rest _
      | _ =>
        rw [act_uncached w.environment k traced.uncached (by simp) (by simp) dispatches]
        exact traced.rest _
  | releases url => exact traced.settle _ _
  | ends id => exact traced.settle _ _
  | aborts turn => exact traced.abort turn alive
  | replies url reply => exact traced.rest _
  | otherActs action other => exact traced.rest _
  | otherEnds id other => exact traced.rest _
  | otherDropped other => exact traced.rest _

end Traced

end Loader

namespace World

open Loader

variable {k : Nat}

theorem running_occur {w : World} {e : Event} (ended : (w.occur e).1.running = false) :
    w.running = false ∨ e = .step .shutdown := by
  cases e with
  | fetchEnds j id =>
    simp only [occur] at ended
    split at ended <;> exact .inl ended
  | step s =>
    cases s with
    | act j action =>
      simp only [occur, step] at ended
      split at ended <;> exact .inl ended
    | shutdown => exact .inr rfl
    | _ => exact .inl ended

/-- A runtime that does not run has been shut down. -/
theorem shutdown_of_ended (runtime : Runtime) (replies : Replies) (loaders : List (Resolver × Bool))
    (events : List Event) (ended : ((opened runtime replies loaders).after events).running = false) :
    ∃ s ∈ (opened runtime replies loaders).history events, s.event = .step .shutdown := by
  induction events using List.reverseRecOn with
  | nil => cases ended
  | append_singleton events e ih =>
    rw [after_append] at ended
    rw [history_concat]
    rcases running_occur ended with before | rfl
    · obtain ⟨s, member, shutdown⟩ := ih before
      exact ⟨s, List.mem_append_left _ member, shutdown⟩
    · exact ⟨_, List.mem_append_right _ List.mem_cons_self, rfl⟩

theorem traced_history (runtime : Runtime) (replies : Replies) (loaders : List (Resolver × Bool)) (events : List Event)
    {r : Resolver} (uncached : loaders[k]? = some (r, false)) {l : Loader}
    (alive : ((opened runtime replies loaders).after events).loader? k = some l) :
    Traced r k ((opened runtime replies loaders).history events) l := by
  let start := opened runtime replies loaders
  refine holds_while_alive (p := fun events l => Traced r k (start.history events) l) ?_ ?_ events alive
  · intro resolver kind here
    obtain ⟨rfl, rfl⟩ := Prod.mk.inj (Option.some.inj (here.symm.trans uncached))
    exact ⟨rfl, rfl, fun _ waits => absurd waits List.not_mem_nil, fun _ belongs => absurd belongs List.not_mem_nil⟩
  · intro events e earlier l before after traced
    rw [history_concat]
    exact traced.occur (kept_history before) e before after (shutdown_of_ended runtime replies loaders events)

/-- A callback that fires is that of a pending request with a completion in the queue. -/
theorem queued_of_fired {w : World} {e : Event} {c : Completion} (fired : c ∈ (Moment.of w e).fired k) :
    ∃ l, w.loader? k = some l ∧ c.id ∈ l.pending ∧ c ∈ l.queue := by
  cases asked : e.action? k with
  | none =>
    simp only [Moment.fired, Moment.of, asked, Option.elim_none] at fired
    cases fired
  | some action =>
    simp only [Moment.fired, Moment.of, asked, Option.elim_some] at fired
    obtain ⟨j, other, l, rfl, _, alive, wanted, queued⟩ := fired_by_dispatching e fired
    have same : j = k := by
      simp only [Event.action?] at asked
      split at asked
      next same => exact same
      next => cases asked
    exact ⟨l, same ▸ alive, wanted, queued⟩

/-- Main statement: in a world of new loaders a callback of a loader without a cache carries what the answer tells that
was in force at its request, or an abort for which there is a reason; without gates the callbacks of every loader have
fired in the order of the requests, and only cancelled ones are left out. -/
theorem callbacks_traced (runtime : Runtime) (replies : Replies) (loaders : List (Resolver × Bool))
    (events : List Event) (k : Nat) :
    let h := (opened runtime replies loaders).history events
    (∀ r, loaders[k]? = some (r, false) → ∀ earlier m later, h = earlier ++ m :: later → ∀ c ∈ m.fired k,
      Carries r k earlier c) ∧
    (replies.Ungated → (∀ e ∈ events, e.Ungated) →
      (h.fired k).map Completion.id ++ ((opened runtime replies loaders).after events).pendingAt k ++ h.discarded k =
        (h.issued k).filter (· ∉ h.cancelled k)) := by
  intro h
  refine ⟨?_, fired_inOrder runtime replies loaders events k⟩
  intro r uncached earlier m later split c fired
  obtain ⟨first, e, rest, _, rfl, rfl, _⟩ := history_split split
  obtain ⟨l, alive, wanted, queued⟩ := queued_of_fired fired
  exact (traced_history runtime replies loaders first uncached alive).queued c queued wanted

/-- A request keeps the answer with which it came to its gate, and gets it when its fetch ends: the later request has the
later answer, and fires first. Without gates the first and third of three requests fire in their order when the second
was cancelled. -/
theorem callbacks_traced_at_gate :
    let dispatch : Event := .step (.act 0 .dispatchReady)
    let w := opened .sharded (Table.empty.insert "gate" ⟨.failure .timeout, true⟩) [({}, false)]
    let events : List Event := [.step (.act 0 (.request "gate")),
      .step (.setReply "gate" ⟨.failure .forbidden, false⟩), .step (.act 0 (.request "gate")), .fetchEnds 0 0]
    let orderly : List Event := [.step (.act 0 (.request "one")), .step (.act 0 (.request "two")),
      .step (.act 0 (.cancel ⟨0, 1, "two"⟩)), .step (.act 0 (.request "three")), dispatch]
    let h := (opened .sharded Table.empty [({}, true)]).history orderly
    (Moment.of (w.after events) dispatch).fired 0 =
        [⟨1, .error (.fetch (.forbidden "gate"))⟩, ⟨0, .error (.fetch (.timeout "gate"))⟩] ∧
      (∀ c ∈ (Moment.of (w.after events) dispatch).fired 0, Carries {} 0 (w.history events) c) ∧
      (∀ e ∈ orderly, e.Ungated) ∧
      (h.fired 0).map Completion.id = (h.issued 0).filter (· ∉ h.cancelled 0) := by
  intro dispatch w events orderly h
  have carried := (callbacks_traced _ _ [({}, false)] (events ++ [dispatch]) 0).1 {} rfl _ _ []
    (history_concat w events dispatch)
  have ungated : ∀ e ∈ orderly, e.Ungated := by
    simp [orderly, dispatch, Event.Ungated, Event.Brings]
  have inOrder := (callbacks_traced .sharded Table.empty [({}, true)] orderly 0).2 (fun _ => rfl) ungated
  have emptied : ((opened .sharded Table.empty [({}, true)]).after orderly).pendingAt 0 = [] := rfl
  have undropped : h.discarded 0 = [] := rfl
  rw [emptied, undropped, List.append_nil, List.append_nil] at inOrder
  exact ⟨rfl, carried, ungated, inOrder⟩

end World

end ColorResolution
