import ColorResolution.Proofs.Loader.Callbacks
import ColorResolution.Proofs.Loader.Observation

/-!
# A cancelled request is gone for good

The numbers of requests start anew in every loader, so a handle is that of a request only for the loader that issued it.
Main statement: to cancel with any handle that was ever issued says yes exactly if this loader issued it and its
callback is pending; then that request is taken away and nothing else, its callback never fires and its fetch never
stores a text. Otherwise nothing changes in the world.

A loader stores a text when the answer of a waiting task comes, at once with a request, or in a fetch without one.
-/
namespace ColorResolution

/-- Whether an event brings the answer of a waiting task of the loader at place `k`. -/
def Event.Answers (env : Environment) (k : Nat) (task : Waiting) : Event → Prop
  | .step (.release url) => task.url = url ∧ task.gate = env.gate url
  | .fetchEnds j id => j = k ∧ task.id = id
  | _ => False

/-- The URLs that are fetched without a request. -/
def Action.direct : Action → List String
  | .resolveUrl url => [url]
  | .resolveUrls urls => urls
  | .fetch url => [url]
  | _ => []

/-- The loader at place `k` may store a text for a URL: in the fetch of a request, whose number is told, or in one
without a request. -/
inductive Moment.Stores (k : Nat) (m : Moment) : Option Nat → String → String → Prop
  | answered {l : Loader} {task : Waiting} {text : String} : m.before.loader? k = some l → task ∈ l.waiting →
    m.event.Answers m.before.environment k task → task.answer = .body text → Stores k m (some task.id) task.url text
  | atOnce {l : Loader} {url text : String} : m.before.loader? k = some l → m.event = .step (.act k (.request url)) →
    m.before.running = true → l.cached? url = none → m.before.replies.reply url = ⟨.body text, false⟩ →
    Stores k m (some l.nextId) url text
  | direct {action : Action} {url text : String} : m.event = .step (.act k action) → url ∈ action.direct →
    m.before.replies.reply url = ⟨.body text, false⟩ → Stores k m none url text

/-- The loader at place `k` issued a handle. -/
def History.Gave (h : History) (k : Nat) (handle : Handle) : Prop :=
  ∃ m ∈ h, ∃ url, m.event = .step (.act k (.request url)) ∧ m.report.outcome = .issued handle

namespace Loader

/-- The loader without a request: its callback is forgotten, and if its task still waits it ends unanswered. -/
def without (id : Nat) (l : Loader) : Loader :=
  { l with pending := l.pending.filter (· != id), waiting := l.waiting.filter fun w => w.id != id,
           queue := l.queue ++ if id ∈ l.unfinished then [⟨id, .error (.fetch .aborted)⟩] else [] }

end Loader

/-- What comes of a handle's cancellation by the loader `l`, which the history `h` has led to in the place `k` of the
world `w`. -/
structure CancelsExactly (k : Nat) (h : History) (w : World) (l : Loader) (handle : Handle) : Prop where
  answers : ∃ answer, (w.step (.act k (.cancel handle))).2 = World.silent (.flag answer)
  cancels : (w.step (.act k (.cancel handle))).2.outcome = .flag true ↔ h.Gave k handle ∧ handle.id ∈ l.pending
  pending : h.Gave k handle →
    (handle.id ∈ l.pending ↔ handle.id ∉ (h.fired k).map Completion.id ∧ handle.id ∉ h.cancelled k)
  refused : (w.step (.act k (.cancel handle))).2.outcome = .flag false → (w.step (.act k (.cancel handle))).1 = w
  removed : (w.step (.act k (.cancel handle))).2.outcome = .flag true →
    (w.step (.act k (.cancel handle))).1 = w.put k (l.without handle.id)
  unfired : (w.step (.act k (.cancel handle))).2.outcome = .flag true →
    ∀ later, handle.id ∉ (((w.step (.act k (.cancel handle))).1.history later).fired k).map Completion.id
  unstored : (w.step (.act k (.cancel handle))).2.outcome = .flag true →
    ∀ later, ∀ m ∈ (w.step (.act k (.cancel handle))).1.history later, ∀ url text,
      ¬ m.Stores k (some handle.id) url text
  stored : ∀ later, ∀ m ∈ (w.step (.act k (.cancel handle))).1.history later, ∀ before after,
    m.before.loader? k = some before → m.after.loader? k = some after →
    ∀ url text, after.cached? url = some text → before.cached? url = some text ∨ ∃ origin, m.Stores k origin url text

/-! ## Where cached texts come from -/

theorem Answer.eq_body {answer : Answer} {url text : String} (result : answer.result url = .ok text) :
    answer = .body text := by
  cases answer <;> simp_all [Answer.result]

theorem Reply.eq_body {reply : Reply} {text : String} (answer : reply.answer = .body text)
    (ungated : ¬ reply.gated = true) : reply = ⟨.body text, false⟩ := by
  cases reply
  simp_all

namespace Loader

variable {l next : Loader} {url text : String}

theorem cached?_congr (same : next.cache = l.cache) (url : String) : next.cached? url = l.cached? url := by
  rw [cached?, cached?, same]

theorem cached?_store {other : String} {answer : Answer}
    (held : (l.store other (answer.result other)).cached? url = some text) :
    l.cached? url = some text ∨ url = other ∧ answer = .body text := by
  cases cache : l.cache with
  | none => simp [store, cached?, cache] at held
  | some c =>
    cases result : answer.result other with
    | error cause => exact .inl (by simpa [store, cached?, cache, result, Cache.finish] using held)
    | ok found =>
      simp only [store, cached?, cache, result, Option.map_some, Option.bind_some, Cache.get?_finish_ok] at held ⊢
      split at held
      next same =>
        cases held
        exact .inr ⟨same, Answer.eq_body result⟩
      next => exact .inl held

theorem cached?_settle_fold (tasks : List Waiting)
    (held : (tasks.foldl (fun l w => l.settle w.id w.url w.answer) l).cached? url = some text) :
    l.cached? url = some text ∨ ∃ task ∈ tasks, task.url = url ∧ task.answer = .body text := by
  induction tasks generalizing l with
  | nil => exact .inl held
  | cons w rest ih =>
    rcases ih held with first | ⟨task, member, source⟩
    · rcases cached?_store (first : (l.store w.url (w.answer.result w.url)).cached? url = some text) with before | now
      · exact .inl before
      · exact .inr ⟨w, List.mem_cons_self, now.1.symm, now.2⟩
    · exact .inr ⟨task, List.mem_cons_of_mem w member, source⟩

theorem cached?_settleWhere {p : Waiting → Bool} (held : (l.settleWhere p).cached? url = some text) :
    l.cached? url = some text ∨ ∃ task ∈ l.waiting, p task = true ∧ task.url = url ∧ task.answer = .body text := by
  rcases cached?_settle_fold _ held with before | ⟨task, member, source⟩
  · exact .inl before
  · obtain ⟨waits, goes⟩ := List.mem_filter.mp member
    exact .inr ⟨task, waits, goes, source⟩

theorem cached?_fetchNow {replies : Replies} {other : String}
    (held : (l.fetchNow replies other).1.cached? url = some text) :
    l.cached? url = some text ∨ url = other ∧ replies.reply url = ⟨.body text, false⟩ := by
  unfold fetchNow at held
  split at held
  · exact .inl held
  · dsimp only at held
    split at held
    · exact .inl held
    next ungated =>
      refine (cached?_store held).imp_right ?_
      rintro ⟨rfl, answer⟩
      exact ⟨rfl, Reply.eq_body answer ungated⟩

theorem cached?_resolveAllNow {replies : Replies} {urls : List String}
    (held : (l.resolveAllNow replies urls).1.cached? url = some text) :
    l.cached? url = some text ∨ url ∈ urls ∧ replies.reply url = ⟨.body text, false⟩ := by
  induction urls generalizing l with
  | nil => exact .inl held
  | cons other rest ih =>
    rcases ih held with first | ⟨member, reply⟩
    · rcases cached?_fetchNow (first : (l.fetchNow replies other).1.cached? url = some text) with before | ⟨rfl, reply⟩
      · exact .inl before
      · exact .inr ⟨List.mem_cons_self, reply⟩
    · exact .inr ⟨List.mem_cons_of_mem other member, reply⟩

theorem cached?_request {env : Environment} {other : String}
    (held : (l.request env other).1.cached? url = some text) :
    l.cached? url = some text ∨ url = other ∧ env.running = true ∧ l.cached? url = none ∧
      env.replies.reply url = ⟨.body text, false⟩ := by
  unfold request at held
  dsimp only at held
  split at held
  · exact .inl held
  next running =>
    split at held
    · exact .inl held
    next absent =>
      split at held
      · exact .inl held
      next ungated =>
        refine (cached?_store (l := l) held).imp_right ?_
        rintro ⟨rfl, answer⟩
        exact ⟨rfl, by simpa using running, absent, Reply.eq_body answer ungated⟩

theorem cancel_cache (l : Loader) (id : Nat) : (l.cancel id).1.cache = l.cache := by
  unfold cancel
  split
  · dsimp only
    split <;> rfl
  · rfl

/-- An action stores texts at once with a request, or without one. -/
theorem cached?_act {env : Environment} {self : Nat} {action : Action}
    (held : (l.act env self action).1.cached? url = some text) :
    l.cached? url = some text ∨
      action = .request url ∧ env.running = true ∧ l.cached? url = none ∧ env.replies.reply url = ⟨.body text, false⟩ ∨
      url ∈ action.direct ∧ env.replies.reply url = ⟨.body text, false⟩ := by
  by_cases dispatches : action.Dispatches
  · obtain ⟨_, _, _, frame⟩ := act_dispatched env self l dispatches
    rw [frame] at held
    exact .inl held
  · cases action with
    | dispatchReady => exact absurd (.inl rfl) dispatches
    | dispatchNext => exact absurd (.inr (.inl rfl)) dispatches
    | dispatchAll => exact absurd (.inr (.inr rfl)) dispatches
    | request other =>
      rcases cached?_request held with before | ⟨rfl, source⟩
      · exact .inl before
      · exact .inr (.inl ⟨rfl, source⟩)
    | cancel handle =>
      left
      simp only [act] at held
      split at held
      · rwa [cached?_congr (cancel_cache l handle.id)] at held
      · exact held
    | resolveUrl other =>
      rcases cached?_fetchNow held with before | ⟨rfl, reply⟩
      · exact .inl before
      · exact .inr (.inr ⟨List.mem_singleton_self url, reply⟩)
    | resolveUrls urls => exact (cached?_resolveAllNow held).imp_right .inr
    | fetch other =>
      rcases cached?_fetchNow held with before | ⟨rfl, reply⟩
      · exact .inl before
      · exact .inr (.inr ⟨List.mem_singleton_self url, reply⟩)
    | clearCache =>
      cases cache : l.cache <;> simp [act, cached?, cache] at held
    | clearCached other =>
      left
      cases cache : l.cache with
      | none => simp [act, cached?, cache] at held
      | some c =>
        simp only [act, cached?, cache, Option.map_some, Option.bind_some, Table.get?_erase] at held ⊢
        split at held
        · cases held
        · exact held
    | _ => exact .inl held

end Loader

/-- A text that a cache has gained at a moment has been stored. -/
theorem Moment.stores {w : World} {k : Nat} {l next : Loader} (e : Event) (alive : w.loader? k = some l)
    (lives : (w.occur e).1.loader? k = some next) {url text : String} (held : next.cached? url = some text) :
    l.cached? url = some text ∨ ∃ origin, (of w e).Stores k origin url text := by
  have becomes := (World.loader?_occur alive e).symm.trans lives
  cases Loader.undergoes_of_undergo becomes with
  | acts action =>
    rcases Loader.cached?_act held with before | ⟨rfl, running, absent, reply⟩ | ⟨member, reply⟩
    · exact .inl before
    · exact .inr ⟨_, .atOnce alive rfl running absent reply⟩
    · exact .inr ⟨_, .direct rfl member reply⟩
  | releases gate =>
    rcases Loader.cached?_settleWhere held with before | ⟨task, waits, goes, rfl, answer⟩
    · exact .inl before
    · exact .inr ⟨_, .answered alive waits (Waiting.isAt_iff.mp goes) answer⟩
  | ends id =>
    rcases Loader.cached?_settleWhere held with before | ⟨task, waits, goes, rfl, answer⟩
    · exact .inl before
    · exact .inr ⟨_, .answered alive waits (by simpa [of, Event.Answers] using goes) answer⟩
  | aborts turn => exact .inl held
  | replies url reply => exact .inl held
  | otherActs action other => exact .inl held
  | otherEnds id other => exact .inl held
  | otherDropped other => exact .inl held

/-! ## Cancelled requests in a history -/

theorem History.issued_of_gave {h : History} {k : Nat} {handle : Handle} (gave : h.Gave k handle) :
    handle.id ∈ h.issued k := by
  obtain ⟨m, member, url, asked, outcome⟩ := gave
  refine List.mem_flatMap.mpr ⟨m, member, ?_⟩
  rw [Moment.issued, asked, outcome, Event.action?, if_pos rfl]
  exact List.mem_singleton_self handle.id

namespace Loader

variable {k : Nat} {h : History} {l : Loader} {id : Nat}

/-- What was cancelled has not fired. -/
theorem Accounted.unfired_of_cancelled {entry : Option Loader} (accounted : Accounted k h entry)
    (cancelled : id ∈ h.cancelled k) : id ∉ (h.fired k).map Completion.id := by
  have parted : ((h.fired k).map Completion.id ++ h.cancelled k).Nodup := by
    cases entry with
    | some l =>
      have parts := accounted.callbacks.nodup_iff.mp accounted.issued_nodup
      rw [List.append_assoc] at parts
      exact (List.nodup_append.mp parts).2.1
    | none => exact (List.nodup_append.mp (accounted.2.nodup_iff.mp accounted.1)).1
  exact fun fired => (List.nodup_append.mp parted).2.2 id fired id cancelled rfl

/-- What was cancelled has been issued, and neither is its callback pending nor its task unfinished. -/
theorem Kept.gone_of_cancelled (kept : Kept k h l) (cancelled : id ∈ h.cancelled k) :
    id < l.nextId ∧ id ∉ l.pending ∧ id ∉ l.unfinished := by
  have issued := kept.callbacks.mem_iff.mpr (List.mem_append_right _ cancelled)
  have parts := kept.callbacks.nodup_iff.mp kept.issued_nodup
  have gone : id ∉ l.pending := fun pending =>
    (List.nodup_append.mp parts).2.2 id (List.mem_append_left _ pending) id cancelled rfl
  rw [kept.numbered] at issued
  exact ⟨List.mem_range.mp issued, gone, fun task => gone (kept.waiting id task)⟩

/-- An issued request is pending until its callback has fired or it has been cancelled. -/
theorem Kept.pending_iff (kept : Kept k h l) (issued : id ∈ h.issued k) :
    id ∈ l.pending ↔ id ∉ (h.fired k).map Completion.id ∧ id ∉ h.cancelled k := by
  have parts := kept.callbacks.nodup_iff.mp kept.issued_nodup
  have places := kept.callbacks.mem_iff.mp issued
  rw [List.append_assoc] at parts places
  constructor
  · intro pending
    have others := fun member => (List.nodup_append.mp parts).2.2 id pending id member rfl
    exact ⟨fun fired => others (List.mem_append_left _ fired), fun cancelled => others (List.mem_append_right _ cancelled)⟩
  · rintro ⟨unfired, uncancelled⟩
    rcases List.mem_append.mp places with pending | gone
    · exact pending
    · exact absurd (List.mem_append.mp gone) (not_or.mpr ⟨unfired, uncancelled⟩)

/-- A request that was cancelled stores nothing. -/
theorem Accounted.unstored_of_cancelled {w : World} (accounted : Accounted k h (w.loader? k))
    (cancelled : id ∈ h.cancelled k) (e : Event) (url text : String) : ¬ (Moment.of w e).Stores k (some id) url text := by
  intro stores
  cases stores with
  | answered alive waits =>
    change w.loader? k = some _ at alive
    rw [alive] at accounted
    exact (accounted.gone_of_cancelled cancelled).2.2 (List.mem_map_of_mem waits)
  | atOnce alive =>
    change w.loader? k = some _ at alive
    rw [alive] at accounted
    exact Nat.lt_irrefl _ (accounted.gone_of_cancelled cancelled).1

/-! ## One cancellation -/

theorem cancel_eq_without (member : id ∈ l.pending) (distinct : l.pending.Nodup) :
    l.cancel id = (l.without id, true) := by
  rw [cancel, if_pos member, distinct.erase_eq_filter]
  by_cases waits : id ∈ l.unfinished
  · have some := (any_waiting_iff l id).mpr waits
    simp only [some, without, waits, if_true, complete]
  · have none : ¬ (l.waiting.any fun w => w.id == id) = true := fun some => waits ((any_waiting_iff l id).mp some)
    simp only [none, without, waits, if_false, Bool.false_eq_true, List.append_nil]

end Loader

namespace World

open Loader

variable {w : World} {k : Nat} {l : Loader} {handle : Handle}

/-- What the step of a cancellation does, as the loader's own number and the handle's decide. -/
theorem step_cancel (alive : w.loader? k = some l) (distinct : l.pending.Nodup) (handle : Handle) :
    w.step (.act k (.cancel handle)) = if handle.loader = k ∧ handle.id ∈ l.pending
      then (w.put k (l.without handle.id), silent (.flag true)) else (w, silent (.flag false)) := by
  rw [step_act_eq alive (.cancel handle) rfl, act]
  by_cases own : handle.loader = k
  · by_cases member : handle.id ∈ l.pending
    · rw [if_pos own, if_pos ⟨own, member⟩, cancel_eq_without member distinct]
      rfl
    · rw [if_pos own, if_neg fun both => member both.2, cancel_foreign member]
      simp only [put_self alive, silent]
  · rw [if_neg own, if_neg fun both => own both.1]
    simp only [put_self alive, silent]

/-- A handle names the loader that issued it. -/
theorem loader_of_gave {events : List Event} (gave : (w.history events).Gave k handle) : handle.loader = k := by
  obtain ⟨m, member, url, asked, outcome⟩ := gave
  obtain ⟨earlier, e, _, _, rfl⟩ := mem_history member
  change e = _ at asked
  subst asked
  cases alive : (w.after earlier).loader? k with
  | none => simp [Moment.of, occur, step, alive, silent] at outcome
  | some l =>
    simp only [Moment.of, occur_report alive, act, Outcome.issued.injEq] at outcome
    rw [← outcome]

/-- A cancellation with success stays in the history. -/
theorem cancelled_history {events : List Event}
    (cancels : ((w.after events).step (.act k (.cancel handle))).2.outcome = .flag true) (later : List Event) :
    handle.id ∈ (w.history (events ++ .step (.act k (.cancel handle)) :: later)).cancelled k := by
  rw [history_append]
  refine List.mem_flatMap.mpr ⟨.of (w.after events) (.step (.act k (.cancel handle))), by simp [history], ?_⟩
  simp only [Moment.cancelled, Moment.of, Event.action?, if_true, Option.elim_some, occur, cancels]
  exact List.mem_singleton_self handle.id

/-- Main statement: after any events in a world of new loaders, a living loader cancels with a handle that any loader
issued exactly if it issued that handle itself and the callback is pending, and then for good. -/
theorem cancels_exactly (runtime : Runtime) (replies : Replies) (loaders : List (Resolver × Bool)) (events : List Event)
    (j k : Nat) (l : Loader) (handle : Handle) (gave : ((opened runtime replies loaders).history events).Gave j handle)
    (alive : ((opened runtime replies loaders).after events).loader? k = some l) :
    CancelsExactly k ((opened runtime replies loaders).history events) ((opened runtime replies loaders).after events) l
      handle := by
  have kept := kept_history alive
  have step := step_cancel alive kept.pending_nodup handle
  have own : handle.loader = k ↔ ((opened runtime replies loaders).history events).Gave k handle :=
    ⟨fun same => (loader_of_gave gave).symm.trans same ▸ gave, loader_of_gave⟩
  constructor
  case answers =>
    rw [step]
    split
    · exact ⟨true, rfl⟩
    · exact ⟨false, rfl⟩
  case cancels =>
    rw [← own, step]
    split
    next both => exact iff_of_true rfl both
    next neither => exact iff_of_false (by simp [silent]) neither
  case pending => exact fun gave => kept.pending_iff (History.issued_of_gave gave)
  case refused =>
    rw [step]
    split
    · intro refused
      cases refused
    · exact fun _ => rfl
  case removed =>
    rw [step]
    split
    · exact fun _ => rfl
    · intro cancels
      cases cancels
  case unfired =>
    intro cancels later fired
    have accounted := accounted_history runtime replies loaders (events ++ .step (.act k (.cancel handle)) :: later) k
    refine accounted.unfired_of_cancelled (cancelled_history cancels later) ?_
    rw [history_append]
    simp only [History.fired, history, List.flatMap_append, List.flatMap_cons, List.map_append]
    exact List.mem_append_right _ (List.mem_append_right _ fired)
  case unstored =>
    intro cancels later m member url text
    obtain ⟨earlier, e, _, _, rfl⟩ := mem_history member
    have accounted := accounted_history runtime replies loaders (events ++ .step (.act k (.cancel handle)) :: earlier) k
    rw [after_append] at accounted
    exact accounted.unstored_of_cancelled (cancelled_history cancels earlier) e url text
  case stored =>
    intro later m member before next alive lives url text held
    obtain ⟨earlier, e, _, _, rfl⟩ := mem_history member
    exact Moment.stores e alive lives held

/-- The first requests of two loaders have the same number. The first loader cancels its own, and the second refuses. -/
theorem cancels_exactly_same_number :
    let w := opened .sharded (Table.empty.insert "gate" ⟨.body "red", true⟩) [({}, true), ({}, true)]
    let events : List Event := [.step (.act 0 (.request "gate")), .step (.act 1 (.request "gate"))]
    let handle : Handle := ⟨0, 0, "gate"⟩
    ∃ first second, (w.after events).loader? 0 = some first ∧ (w.after events).loader? 1 = some second ∧
      (w.history events).Gave 0 handle ∧ handle.id ∈ first.pending ∧ handle.id ∈ second.pending ∧
      CancelsExactly 0 (w.history events) (w.after events) first handle ∧
      CancelsExactly 1 (w.history events) (w.after events) second handle := by
  intro w events handle
  have gave : (w.history events).Gave 0 handle := ⟨_, List.mem_cons_self, "gate", rfl, rfl⟩
  exact ⟨_, _, rfl, rfl, gave, List.mem_singleton_self 0, List.mem_singleton_self 0,
    cancels_exactly _ _ _ events 0 0 _ handle gave rfl, cancels_exactly _ _ _ events 0 1 _ handle gave rfl⟩

end World

end ColorResolution
