import Mathlib.Data.List.Flatten
import ColorResolution.Proofs.Loader.Ledger
import ColorResolution.Proofs.Loader.Provenance

/-!
# The end of the runtime

When the runtime is shut down, every task that still waits is ended, in an order of the runtime's own, and from then on
a request is answered at once and never reaches the fetcher. Main statement: whatever happens afterwards, the callbacks
that fire are those of the completions that were queued, then those of the aborted tasks, then those of later requests,
each once and in this order, those left out that are cancelled; and nothing waits any more.
-/
namespace ColorResolution

/-- The completion of a task that was ended before its fetch. -/
def Completion.abort (id : Nat) : Completion := ⟨id, aborted⟩

namespace Loader

/-- The pending requests without a completion. -/
def stranded (l : Loader) : List Nat := l.pending.filter fun id => id ∉ l.queued

end Loader

/-- The world after its runtime has been shut down. -/
def World.stopped (w : World) : World := (w.occur (.step .shutdown)).1

/-- What the end of the runtime means for a loader `l`, which the history `h` has led to in the place `k` of the world
`w`. -/
structure ShutsDown (k : Nat) (h : History) (w : World) (l : Loader) : Prop where
  numbered : h.issued k = List.range l.nextId
  once : ∀ later, (l.pending ++ (w.stopped.history later).issued k).Nodup
  everyone : (l.owed.map Completion.id ++ l.stranded).Perm l.pending
  callbacks : ∃ ended : List Nat, ended.Perm l.stranded ∧ ∀ later, ∃ left,
    (w.stopped.history later).fired k ++ left =
        (l.owed ++ (ended ++ (w.stopped.history later).issued k).map Completion.abort).filter
          (fun c => c.id ∉ (w.stopped.history later).cancelled k) ∧
      ∀ next, (w.stopped.after later).loader? k = some next → left = next.owed
  unfetched : ∀ later, ∀ m ∈ w.stopped.history later, ∀ url, m.event = .step (.act k (.request url)) →
    m.report.fetched = []
  released : ∀ later, ∀ m ∈ w.stopped.history later, ∀ url, m.event = .step (.release url) → m.after = m.before
  drained : ∀ later next, (w.stopped.after later).loader? k = some next →
    ((w.stopped.after later).step (.act k .dispatchAll)).2.outcome = .count next.pending.length ∧
      ((w.stopped.after later).step (.act k .dispatchAll)).1.pendingAt k = []

/-! ## A loader without tasks -/

theorem Moment.issued_of_no_request {k : Nat} {m : Moment} (noRequest : ∀ url, m.event ≠ .step (.act k (.request url))) :
    m.issued k = [] := by
  unfold Moment.issued
  cases asked : m.event.action? k with
  | none => rfl
  | some action =>
    rw [Event.action?_eq_some_iff] at asked
    cases action with
    | request url => exact absurd asked (noRequest url)
    | _ => rfl

namespace Loader

section
variable {k : Nat} {l next : Loader} {e : Event}

/-- Without a runtime a request is answered at once, and the fetcher is not reached. -/
theorem request_halted (env : Environment) (ended : env.running = false) (url : String) :
    l.request env url = (({ l with nextId := l.nextId + 1, pending := l.pending ++ [l.nextId] } : Loader).complete
      l.nextId Completion.aborted, []) := by
  simp [request, ended, Completion.aborted]

theorem settleWhere_idle (p : Waiting → Bool) (idle : l.waiting = []) : l.settleWhere p = l := by
  cases l
  cases idle
  rfl

theorem release_idle (env : Environment) (url : String) (idle : l.waiting = []) : l.release env url = l :=
  settleWhere_idle _ idle

theorem abortAll_idle (turn : Nat → Nat) (idle : l.waiting = []) : l.abortAll turn = l := by
  obtain ⟨resolver, cache, nextId, pending, waiting, queue⟩ := l
  obtain rfl : waiting = [] := idle
  simp [abortAll, inTurn]

/-- What is no request adds no completion to those of a loader without tasks. -/
theorem act_queue_le (env : Environment) (self : Nat) (action : Action) (idle : l.waiting = [])
    (noRequest : ∀ url, action ≠ .request url) : (l.act env self action).1.queue.length ≤ l.queue.length := by
  by_cases dispatches : action.Dispatches
  · obtain ⟨taken, split, _⟩ := act_dispatched env self l dispatches
    rw [split, List.length_append]
    exact Nat.le_add_left _ _
  · by_cases cancels : ∃ handle, action = .cancel handle
    · obtain ⟨handle, rfl⟩ := cancels
      simp only [act]
      split
      · unfold cancel
        split <;> simp [idle]
      · exact Nat.le_refl _
    · obtain ⟨cache, frame⟩ := act_quiet env self l noRequest (not_exists.mp cancels) dispatches
      rw [frame]

theorem undergo_queue_le {turn : Nat → Nat} {env : Environment} (becomes : l.undergo turn env k e = some next)
    (idle : l.waiting = []) (noRequest : ∀ url, e ≠ .step (.act k (.request url))) :
    next.queue.length ≤ l.queue.length := by
  cases undergoes_of_undergo becomes with
  | acts action => exact act_queue_le env k action idle fun url same => noRequest url (same ▸ rfl)
  | releases url => rw [settleWhere_idle _ idle]
  | ends id => rw [settleWhere_idle _ idle]
  | aborts turn => rw [abortAll_idle turn idle]
  | _ => exact Nat.le_refl _

end

end Loader

namespace World

open Loader

variable {k : Nat}

/-! ## A world without a runtime -/

/-- No task runs, and none waits. -/
structure Halted (w : World) : Prop where
  ended : w.running = false
  idle : ∀ k l, w.loader? k = some l → l.waiting = []

theorem halted_stopped (w : World) : w.stopped.Halted where
  ended := rfl
  idle k l alive := by
    change (w.mapLoaders fun k => Loader.abortAll (w.turn k)).loader? k = some l at alive
    rw [loader?_mapLoaders] at alive
    obtain ⟨before, _, rfl⟩ := Option.map_eq_some_iff.mp alive
    rfl

section
variable {w : World} {l next : Loader} {e : Event}

theorem running_undergo (env : Environment) (ended : env.running = false) : (env.undergo e).running = false := by
  cases e with
  | fetchEnds j id => exact ended
  | step s => cases s <;> first | exact ended | rfl

theorem Halted.occur (halted : w.Halted) (e : Event) : (w.occur e).1.Halted where
  ended := by
    have same := congrArg Environment.running (environment_occur w e)
    exact same.trans (running_undergo w.environment halted.ended)
  idle k next lives := by
    cases alive : w.loader? k with
    | none =>
      rw [loader?_occur_none alive] at lives
      cases lives
    | some l =>
      have idle := halted.idle k l alive
      have becomes := (loader?_occur alive e).symm.trans lives
      rcases undergo_waiting becomes (by simp [unfinished, idle]) with same | ⟨_, _, running, _⟩
      · rw [List.eq_nil_iff_forall_not_mem]
        intro task member
        have before := ((same task).mp member).1
        rw [idle] at before
        cases before
      · rw [show w.environment.running = false from halted.ended] at running
        cases running

theorem Halted.after (halted : w.Halted) (events : List Event) : (w.after events).Halted := by
  induction events generalizing w with
  | nil => exact halted
  | cons e rest ih => exact ih (halted.occur e)

theorem Halted.before {m : Moment} {events : List Event} (halted : w.Halted) (member : m ∈ w.history events) :
    ∃ v e, v.Halted ∧ m = .of v e := by
  obtain ⟨earlier, e, _, _, rfl⟩ := mem_history member
  exact ⟨_, e, halted.after earlier, rfl⟩

theorem Halted.unfetched (halted : w.Halted) (url : String) :
    (Moment.of w (.step (.act k (.request url)))).report.fetched = [] := by
  change (w.occur (.step (.act k (.request url)))).2.fetched = []
  rw [report_occur]
  cases alive : w.loader? k with
  | none => simp [Environment.report, alive, silent]
  | some l => simp [Environment.report, alive, Loader.act, request_halted w.environment halted.ended]

/-- Without tasks that wait, no gate has anything behind it. -/
theorem Halted.release (halted : w.Halted) (url : String) : (w.occur (.step (.release url))).1 = w := by
  change w.mapLoaders (fun _ => Loader.release w.environment url) = w
  have same : (w.loaders.mapIdx fun _ entry => entry.map (Loader.release w.environment url)) = w.loaders := by
    refine List.ext_getElem (by simp) fun k _ inside => ?_
    rw [List.getElem_mapIdx]
    cases here : w.loaders[k] with
    | none => rfl
    | some l =>
      have alive : w.loader? k = some l := by simp [loader?, inside, here]
      rw [Option.map_some, release_idle w.environment url (halted.idle k l alive)]
  simp only [mapLoaders, same]

/-- Without a runtime the completions that are sent are the aborts of the requests that are made. -/
theorem Halted.sent (halted : w.Halted) (e : Event) (k : Nat) :
    (Moment.of w e).sent k = ((Moment.of w e).issued k).map Completion.abort := by
  cases alive : w.loader? k with
  | none =>
    rw [(Moment.effect_none e alive).1, Moment.sent_of_none (m := .of w e) alive]
    rfl
  | some l =>
    cases lives : (w.occur e).1.loader? k with
    | none =>
      obtain rfl := Moment.eq_drop alive lives
      rw [(Moment.drop_effect alive).1, Moment.sent_of_gone (m := .of w (.step (.drop k))) lives]
      rfl
    | some next =>
      have idle := halted.idle k l alive
      have gained : (Moment.of w e).sent k = next.queue.drop l.queue.length := by
        simp only [Moment.of, Moment.sent, alive, lives]
      have becomes := (loader?_occur alive e).symm.trans lives
      rw [gained]
      by_cases requests : ∃ url, e = .step (.act k (.request url))
      · obtain ⟨url, rfl⟩ := requests
        have issued : (Moment.of w (.step (.act k (.request url)))).issued k = [l.nextId] := by
          simp [Moment.issued, Moment.of, Event.action?, occur_report alive, Loader.act, Action.issued]
        rw [Loader.undergo, if_pos rfl] at becomes
        cases becomes
        rw [issued]
        simp [Loader.act, request_halted w.environment halted.ended, complete, Completion.abort]
      · have noRequest := not_exists.mp requests
        rw [Moment.issued_of_no_request (m := .of w e) noRequest]
        exact List.drop_eq_nil_of_le (undergo_queue_le becomes idle noRequest)

end

end World

/-! ## The tasks that are ended -/

namespace Loader

namespace Kept

variable {k : Nat} {h : History} {l : Loader}

theorem queued_nodup (kept : Kept k h l) : l.queued.Nodup := by
  obtain ⟨taken, sent, _⟩ := kept.completions
  have single := (List.nodup_append.mp kept.tasks_nodup).2.1
  rw [sent, List.map_append] at single
  exact (List.nodup_append.mp single).2.1

/-- The pending requests without a completion are those whose tasks wait. -/
theorem stranded_perm (kept : Kept k h l) : l.unfinished.Perm l.stranded := by
  refine (List.perm_ext_iff_of_nodup kept.unfinished_nodup (kept.pending_nodup.filter _)).mpr fun id => ?_
  rw [List.mem_filter, decide_eq_true_iff]
  constructor
  · intro task
    have pending := kept.waiting id task
    exact ⟨pending, fun queued => (kept.mem_queued_iff pending).mp queued task⟩
  · rintro ⟨pending, missing⟩
    by_contra ended
    exact missing ((kept.mem_queued_iff pending).mpr ended)

/-- A pending request has its completion in the queue or none. -/
theorem owed_append_stranded (kept : Kept k h l) : (l.owed.map Completion.id ++ l.stranded).Perm l.pending := by
  have owed : (l.owed.map Completion.id).Perm (l.pending.filter fun id => id ∈ l.queued) := by
    have single : (l.owed.map Completion.id).Nodup := kept.queued_nodup.sublist (List.filter_sublist.map Completion.id)
    refine (List.perm_ext_iff_of_nodup single (kept.pending_nodup.filter _)).mpr fun id => ?_
    rw [List.mem_filter, decide_eq_true_iff]
    constructor
    · intro member
      obtain ⟨c, isOwed, rfl⟩ := List.mem_map.mp member
      obtain ⟨inQueue, pending⟩ := List.mem_filter.mp isOwed
      exact ⟨of_decide_eq_true pending, List.mem_map_of_mem inQueue⟩
    · rintro ⟨pending, member⟩
      obtain ⟨c, inQueue, rfl⟩ := List.mem_map.mp member
      exact List.mem_map_of_mem (List.mem_filter.mpr ⟨inQueue, decide_eq_true pending⟩)
  have others : l.stranded = l.pending.filter fun id => !decide (id ∈ l.queued) :=
    List.filter_congr fun id _ => decide_not
  rw [others]
  exact (owed.append_right _).trans (List.filter_append_perm _ l.pending)

/-- What a loader owes once its tasks have been aborted. -/
theorem owed_abortAll (kept : Kept k h l) (turn : Nat → Nat) :
    (l.abortAll turn).owed = l.owed ++ ((inTurn turn l.waiting).map Waiting.id).map Completion.abort := by
  have all : (((inTurn turn l.waiting).map Waiting.id).map Completion.abort).filter (fun c => c.id ∈ l.pending) =
      ((inTurn turn l.waiting).map Waiting.id).map Completion.abort := by
    rw [List.filter_eq_self]
    intro c member
    obtain ⟨id, isTask, rfl⟩ := List.mem_map.mp member
    have task := ((inTurn_perm turn l.waiting).map Waiting.id).mem_iff.mp isTask
    exact decide_eq_true (kept.waiting id task)
  have queue : (l.abortAll turn).queue = l.queue ++ ((inTurn turn l.waiting).map Waiting.id).map Completion.abort := by
    rw [List.map_map]
    rfl
  change ((l.abortAll turn).queue.filter fun c => c.id ∈ l.pending) = _
  rw [queue, List.filter_append, all, owed]

/-- What is requested later has not been cancelled yet. -/
theorem uncancelled_of_issued (kept : Kept k h l) {later : History} (distinct : ((h ++ later).issued k).Nodup)
    {id : Nat} (requested : id ∈ later.issued k) : id ∉ h.cancelled k := by
  intro cancelled
  have issued : id ∈ h.issued k := by
    rw [kept.numbered]
    exact List.mem_range.mpr (kept.gone_of_cancelled cancelled).1
  rw [History.issued_append] at distinct
  exact (List.nodup_append.mp distinct).2.2 id issued id requested rfl

end Kept

theorem filter_uncancelled (completions : List Completion) (first second : List Nat) :
    (completions.filter fun c => c.id ∉ first ++ second) =
      (completions.filter fun c => c.id ∉ first).filter fun c => c.id ∉ second := by
  rw [List.filter_filter]
  refine List.filter_congr fun c _ => ?_
  simp [not_or, Bool.and_comm]

/-- What has fired is not cancelled later. -/
theorem Accounted.filter_fired {k : Nat} {h later : History} {entry : Option Loader}
    (accounted : Accounted k (h ++ later) entry) :
    ((h.fired k).filter fun c => c.id ∉ later.cancelled k) = h.fired k := by
  rw [List.filter_eq_self]
  intro c fired
  refine decide_eq_true fun cancelled => ?_
  have isCancelled : c.id ∈ (h ++ later).cancelled k := by
    rw [History.cancelled_append]
    exact List.mem_append_right _ cancelled
  have hasFired : c.id ∈ ((h ++ later).fired k).map Completion.id := by
    rw [History.fired_append, List.map_append]
    exact List.mem_append_left _ (List.mem_map_of_mem fired)
  exact accounted.unfired_of_cancelled isCancelled hasFired

end Loader

namespace World

open Loader

variable {k : Nat}

theorem sent_of_halted {w : World} (halted : w.Halted) (events : List Event) (k : Nat) :
    (w.history events).sent k = ((w.history events).issued k).map Completion.abort := by
  induction events generalizing w with
  | nil => rfl
  | cons e rest ih =>
    change (Moment.of w e).sent k ++ ((w.occur e).1.history rest).sent k = _
    rw [halted.sent e k, ih (halted.occur e), ← List.map_append]
    rfl

theorem issued_nodup_history (runtime : Runtime) (replies : Replies) (loaders : List (Resolver × Bool))
    (events : List Event) (k : Nat) : (((opened runtime replies loaders).history events).issued k).Nodup := by
  have accounted := accounted_history runtime replies loaders events k
  cases alive : ((opened runtime replies loaders).after events).loader? k with
  | some l => exact (kept_history alive).issued_nodup
  | none =>
    rw [alive] at accounted
    exact accounted.1

/-- No number is given out again, so that what is pending differs from what is requested later. -/
theorem pending_append_issued_nodup {runtime : Runtime} {replies : Replies} {loaders : List (Resolver × Bool)}
    {events : List Event} {l : Loader} (alive : ((opened runtime replies loaders).after events).loader? k = some l)
    (later : List Event) :
    (l.pending ++ (((opened runtime replies loaders).after events).history later).issued k).Nodup := by
  have kept := kept_history alive
  have distinct := issued_nodup_history runtime replies loaders (events ++ later) k
  rw [history_append, History.issued_append] at distinct
  obtain ⟨_, single, apart⟩ := List.nodup_append.mp distinct
  exact List.nodup_append.mpr ⟨kept.pending_nodup, single, fun id pending => apart id (kept.issued_of_pending pending)⟩

/-- What fires after the end of the runtime, and what is then left. -/
theorem fired_after_stopped {runtime : Runtime} {replies : Replies} {loaders : List (Resolver × Bool)}
    {events : List Event} {l : Loader} (alive : ((opened runtime replies loaders).after events).loader? k = some l)
    (later : List Event) :
    let turn := ((opened runtime replies loaders).after events).turn k
    let w := ((opened runtime replies loaders).after events).stopped
    ∃ left, (w.history later).fired k ++ left =
        ((l.abortAll turn).owed ++ ((w.history later).issued k).map Completion.abort).filter
          (fun c => c.id ∉ (w.history later).cancelled k) ∧
      ∀ next, (w.after later).loader? k = some next → left = next.owed := by
  intro turn w
  have stopped : (opened runtime replies loaders).after (events ++ [.step .shutdown]) = w := after_append _ events _
  have lives : ((opened runtime replies loaders).after (events ++ [.step .shutdown])).loader? k =
      some (l.abortAll turn) := by
    rw [stopped]
    exact loader?_occur alive (.step .shutdown)
  have before := ledger_of_alive lives
  have kept := kept_history lives
  obtain ⟨left, balanced, owes⟩ := ledger_history runtime replies loaders (events ++ [.step .shutdown] ++ later) k
  have accounted := accounted_history runtime replies loaders (events ++ [.step .shutdown] ++ later) k
  have distinct := issued_nodup_history runtime replies loaders (events ++ [.step .shutdown] ++ later) k
  rw [after_append, stopped] at owes accounted
  rw [history_append, stopped] at balanced accounted distinct
  generalize (opened runtime replies loaders).history (events ++ [.step .shutdown]) = h
    at before kept balanced accounted distinct
  refine ⟨left, ?_, owes⟩
  rw [History.fired_append, History.sent_append, History.cancelled_append,
    sent_of_halted (halted_stopped _) later k] at balanced
  have aborts : ((((w.history later).issued k).map Completion.abort).filter fun c => c.id ∉ h.cancelled k) =
      ((w.history later).issued k).map Completion.abort := by
    rw [List.filter_eq_self]
    intro c member
    obtain ⟨id, requested, rfl⟩ := List.mem_map.mp member
    exact decide_eq_true (kept.uncancelled_of_issued distinct requested)
  rw [filter_uncancelled, List.filter_append, ← before, aborts, List.append_assoc, List.append_assoc, List.filter_append,
    accounted.filter_fired] at balanced
  exact List.append_cancel_left balanced

/-- Main statement: what the end of the runtime means after any events in a world of new loaders. -/
theorem shutdown_settles (runtime : Runtime) (replies : Replies) (loaders : List (Resolver × Bool))
    (events : List Event) (k : Nat) (l : Loader)
    (alive : ((opened runtime replies loaders).after events).loader? k = some l) :
    ShutsDown k ((opened runtime replies loaders).history events) ((opened runtime replies loaders).after events) l := by
  have kept := kept_history alive
  have halted := halted_stopped ((opened runtime replies loaders).after events)
  let turn := ((opened runtime replies loaders).after events).turn k
  refine ⟨kept.numbered, ?_, kept.owed_append_stranded, ⟨(inTurn turn l.waiting).map Waiting.id, ?_, ?_⟩, ?_, ?_, ?_⟩
  · intro later
    exact pending_append_issued_nodup alive (.step .shutdown :: later)
  · exact ((inTurn_perm turn l.waiting).map Waiting.id).trans kept.stranded_perm
  · intro later
    obtain ⟨left, fires, owes⟩ := fired_after_stopped alive later
    rw [kept.owed_abortAll turn, List.append_assoc, ← List.map_append] at fires
    exact ⟨left, fires, owes⟩
  · intro later m member url asked
    obtain ⟨v, e, stays, rfl⟩ := halted.before member
    obtain rfl : e = _ := asked
    exact stays.unfetched url
  · intro later m member url opens
    obtain ⟨v, e, stays, rfl⟩ := halted.before member
    obtain rfl : e = _ := opens
    exact stays.release url
  · intro later next lives
    have through : (opened runtime replies loaders).after (events ++ .step .shutdown :: later) =
        ((opened runtime replies loaders).after events).stopped.after later := after_append _ events _
    have idle := (halted.after later).idle k next lives
    rw [← through] at lives
    have outcome := (dispatchAll_outcome lives (kept_history lives)).2.2 (by simp [unfinished, idle])
    rwa [through] at outcome

/-- A queued result, a cancelled request and two tasks, of which the later request's is ended first. -/
theorem shutdown_settles_of_two_stranded :
    let replies : Replies := (Table.empty.insert "gate" ⟨.body "red", true⟩).insert "open" ⟨.body "blue", false⟩
    let w := opened .sharded replies [({}, true)]
    let events : List Event := [.step (.act 0 (.request "open")), .step (.act 0 (.request "gate")),
      .step (.act 0 (.request "gate")), .step (.act 0 (.cancel ⟨0, 2, "gate"⟩)), .step (.act 0 (.request "open")),
      .step (.act 0 (.request "gate"))]
    ∃ l, (w.after events).loader? 0 = some l ∧ l.pending = [0, 1, 3, 4] ∧ l.owed.map Completion.id = [0, 3] ∧
      l.stranded = [1, 4] ∧ ShutsDown 0 (w.history events) (w.after events) l := by
  intro replies w events
  exact ⟨((w.after events).loader? 0).get (by decide +kernel), (Option.some_get _).symm, by decide +kernel,
    by decide +kernel, by decide +kernel, shutdown_settles _ _ _ _ _ _ (Option.some_get _).symm⟩

/-- The aborted tasks need not complete in the order of their requests: here the fifth is ended before the second. -/
theorem aborted_out_of_turn :
    let replies : Replies := (Table.empty.insert "gate" ⟨.body "red", true⟩).insert "open" ⟨.body "blue", false⟩
    let w := opened .sharded replies [({}, false)]
    let events : List Event := [.step (.act 0 (.request "open")), .step (.act 0 (.request "gate")),
      .step (.act 0 (.request "open")), .step (.act 0 (.request "open")), .step (.act 0 (.request "gate"))]
    let fired := (((w.after events).stopped.history [.step (.act 0 .dispatchAll)]).fired 0).map Completion.id
    ∃ l, (w.after events).loader? 0 = some l ∧ l.stranded = [1, 4] ∧ fired = [0, 2, 3, 4, 1] ∧
      ¬ (fired.filter fun id => id ∈ l.stranded).Pairwise (· < ·) := by
  intro replies w events fired
  exact ⟨((w.after events).loader? 0).get (by decide +kernel), (Option.some_get _).symm, by decide +kernel,
    by decide +kernel, by decide +kernel⟩

end World

end ColorResolution
