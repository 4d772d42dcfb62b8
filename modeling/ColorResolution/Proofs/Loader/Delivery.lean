import ColorResolution.Proofs.Loader.Callbacks

/-!
# No completion is lost, and dispatching never waits for an ended task

A task is unfinished from its request, if that reached a gate, until that gate is opened, its fetch ends by itself, it is
cancelled or the runtime is shut down. Main statement: after any events, a request has had one completion sent if its
task has ended and none otherwise, and the waiting ways of dispatching block only for tasks that have not ended.
-/
namespace ColorResolution

/-- Whether an event ends an unfinished task of the loader at place `k`. -/
def Event.Ends (env : Environment) (k : Nat) (task : Waiting) : Event → Prop
  | .step (.act j (.cancel handle)) => j = k ∧ handle.loader = k ∧ handle.id = task.id
  | .step (.release url) => task.url = url ∧ task.gate = env.gate url
  | .step .shutdown => True
  | .fetchEnds j id => j = k ∧ task.id = id
  | _ => False

/-- Which tasks of the loader at place `k` end and begin to wait at one moment. -/
structure Moment.Tasks (k : Nat) (m : Moment) : Prop where
  ends : ∀ l next, m.before.loader? k = some l → m.after.loader? k = some next →
    ∀ task ∈ l.waiting, task ∈ next.waiting ↔ ¬ m.event.Ends m.before.environment k task
  begins : ∀ l next, m.before.loader? k = some l → m.after.loader? k = some next →
    ∀ task ∈ next.waiting, task ∈ l.waiting ∨
      ∃ url, m.event = .step (.act k (.request url)) ∧ m.before.running = true ∧
        (m.before.replies.reply url).gated = true ∧
        task = ⟨l.nextId, url, m.before.environment.gate url, (m.before.replies.reply url).answer⟩

/-- The tasks, the queue and the dispatching calls of a loader `l`, which the history `h` has led to in the place `k` of
the world `w`. -/
structure Delivered (k : Nat) (h : History) (w : World) (l : Loader) : Prop where
  tasks : ∀ m ∈ h, m.Tasks k
  sent : ∀ id ∈ h.issued k, ((h.sent k).map Completion.id).count id = if id ∈ l.unfinished then 0 else 1
  origin : ∀ c ∈ h.sent k, c.id ∈ h.issued k
  queued : ∀ id ∈ l.pending, id ∈ l.unfinished ∧ l.queued.count id = 0 ∨ id ∉ l.unfinished ∧ l.queued.count id = 1
  nextBlocked : (w.step (.act k .dispatchNext)).2.outcome = .blocked ↔
    l.pending ≠ [] ∧ ∀ id ∈ l.pending, id ∉ l.queued
  nextIdle : (w.step (.act k .dispatchNext)).2.outcome = .flag false ↔ l.pending = []
  allFired : ∀ id, id ∈ (w.step (.act k .dispatchAll)).2.fired.map Completion.id ↔
    id ∈ l.pending ∧ id ∉ l.unfinished
  allBlocked : (w.step (.act k .dispatchAll)).2.outcome = .blocked ↔ ∃ id ∈ l.pending, id ∈ l.unfinished
  allFinished : (∀ id ∈ l.pending, id ∉ l.unfinished) →
    (w.step (.act k .dispatchAll)).2.outcome = .count l.pending.length ∧
      (w.step (.act k .dispatchAll)).1.pendingAt k = []

namespace Loader

/-! ## Unfinished tasks -/

theorem cancel_waiting (l : Loader) (id : Nat) (known : ∀ id ∈ l.unfinished, id ∈ l.pending) :
    (l.cancel id).1.waiting = l.waiting.filter fun w => w.id != id := by
  by_cases member : id ∈ l.pending
  · rw [cancel, if_pos member]
    dsimp only
    split <;> rfl
  · rw [cancel_foreign member, eq_comm, List.filter_eq_self]
    intro w belongs
    have other : w.id ≠ id := fun equal => member (known id (equal ▸ List.mem_map_of_mem belongs))
    simpa using other

theorem settleWhere_waiting (p : Waiting → Bool) (l : Loader) :
    (l.settleWhere p).waiting = l.waiting.filter fun w => !p w := by
  obtain ⟨cache, next⟩ := settleWhere_eq p l
  rw [next]

theorem request_waiting (env : Environment) (url : String) (l : Loader) :
    (l.request env url).1.waiting = l.waiting ∨
      env.running = true ∧ (env.replies.reply url).gated = true ∧
        (l.request env url).1.waiting = l.waiting ++ [⟨l.nextId, url, env.gate url, (env.replies.reply url).answer⟩] := by
  rcases request_cases env url l with ⟨cache, result, ended⟩ | ⟨running, gated, waits⟩
  · exact .inl (by rw [ended])
  · exact .inr ⟨running, gated, by rw [waits]⟩

/-- Actions other than a request and a cancellation leave the tasks alone. -/
theorem act_waiting (env : Environment) (self : Nat) (l : Loader) (action : Action)
    (noRequest : ∀ url, action ≠ .request url) (noCancel : ∀ handle, action ≠ .cancel handle) :
    (l.act env self action).1.waiting = l.waiting := by
  by_cases dispatches : action.Dispatches
  · obtain ⟨_, _, _, frame⟩ := act_dispatched env self l dispatches
    rw [frame]
  · obtain ⟨cache, frame⟩ := act_quiet env self l noRequest noCancel dispatches
    rw [frame]

/-- A request adds its task or none, a cancellation takes off the task of its own loader's handle. -/
theorem act_tasks {env : Environment} {k : Nat} {l : Loader} (action : Action)
    (known : ∀ id ∈ l.unfinished, id ∈ l.pending) :
    (∀ task, task ∈ (l.act env k action).1.waiting ↔ task ∈ l.waiting ∧ ¬ (Event.step (.act k action)).Ends env k task) ∨
      ∃ url, action = .request url ∧ env.running = true ∧ (env.replies.reply url).gated = true ∧
        (l.act env k action).1.waiting = l.waiting ++ [⟨l.nextId, url, env.gate url, (env.replies.reply url).answer⟩] := by
  cases action with
  | request url =>
    rcases request_waiting env url l with frame | ⟨running, gated, waits⟩
    · left
      intro task
      simp [act, frame, Event.Ends]
    · exact .inr ⟨url, rfl, running, gated, waits⟩
  | cancel handle =>
    left
    intro task
    by_cases own : handle.loader = k
    · rw [act, if_pos own, cancel_waiting l handle.id known, List.mem_filter, bne_iff_ne, ne_comm]
      simp only [Event.Ends, own, true_and]
    · simp [act, Event.Ends, own]
  | _ =>
    left
    intro task
    rw [act_waiting _ _ _ _ (by simp) (by simp)]
    simp [Event.Ends]

/-- An event takes the tasks that it ends off the waiting ones, and only a request adds one. -/
theorem undergo_waiting {turn : Nat → Nat} {env : Environment} {k : Nat} {l next : Loader} {e : Event}
    (becomes : l.undergo turn env k e = some next) (known : ∀ id ∈ l.unfinished, id ∈ l.pending) :
    (∀ task, task ∈ next.waiting ↔ task ∈ l.waiting ∧ ¬ e.Ends env k task) ∨
      ∃ url, e = .step (.act k (.request url)) ∧ env.running = true ∧ (env.replies.reply url).gated = true ∧
        next.waiting = l.waiting ++ [⟨l.nextId, url, env.gate url, (env.replies.reply url).answer⟩] := by
  cases undergoes_of_undergo becomes with
  | acts action =>
    rcases act_tasks action known with same | ⟨url, rfl, grown⟩
    · exact .inl same
    · exact .inr ⟨url, rfl, grown⟩
  | releases url =>
    left
    intro task
    rw [settleWhere_waiting, List.mem_filter, Bool.not_eq_true', Bool.eq_false_iff, Ne, Waiting.isAt_iff]
    rfl
  | ends id =>
    left
    simp [settleWhere_waiting, Event.Ends]
  | aborts turn =>
    left
    simp [abortAll, Event.Ends]
  | replies url reply =>
    left
    simp [Event.Ends]
  | otherActs action other =>
    left
    intro task
    cases action <;> simp [Event.Ends, other]
  | otherEnds id other =>
    left
    simp [Event.Ends, other]
  | otherDropped other =>
    left
    simp [Event.Ends]

/-! ## What a kept history says of the queue -/

namespace Kept

variable {k : Nat} {h : History} {l : Loader}

/-- A task's completion is sent once, when it has ended. -/
theorem count_sent (kept : Kept k h l) {id : Nat} (issued : id ∈ h.issued k) :
    ((h.sent k).map Completion.id).count id = if id ∈ l.unfinished then 0 else 1 := by
  have total := kept.tasks.count_eq id
  rw [List.count_append, List.count_eq_one_of_mem kept.issued_nodup issued] at total
  split
  next task =>
    rw [List.count_eq_one_of_mem kept.unfinished_nodup task] at total
    omega
  next ended =>
    rw [List.count_eq_zero.mpr ended] at total
    omega

theorem issued_of_pending (kept : Kept k h l) {id : Nat} (pending : id ∈ l.pending) : id ∈ h.issued k := by
  rw [kept.callbacks.mem_iff, List.append_assoc]
  exact List.mem_append_left _ pending

/-- Of a pending request's completions none has been taken from the queue. -/
theorem count_queued (kept : Kept k h l) {id : Nat} (pending : id ∈ l.pending) :
    l.queued.count id = if id ∈ l.unfinished then 0 else 1 := by
  obtain ⟨taken, split, stale⟩ := kept.completions
  have absent : id ∉ taken.map Completion.id := by
    intro member
    obtain ⟨c, belongs, rfl⟩ := List.mem_map.mp member
    exact stale c belongs pending
  rw [← kept.count_sent (kept.issued_of_pending pending), split, List.map_append, List.count_append,
    List.count_eq_zero.mpr absent, Nat.zero_add]
  rfl

/-- A pending request's completion is queued when its task has ended. -/
theorem mem_queued_iff (kept : Kept k h l) {id : Nat} (pending : id ∈ l.pending) :
    id ∈ l.queued ↔ id ∉ l.unfinished := by
  rw [← List.count_pos_iff, kept.count_queued pending]
  split
  next task => simp [task]
  next ended => simp [ended]

theorem mem_fired_iff (kept : Kept k h l) (id : Nat) :
    id ∈ l.dispatchAll.2.1.map Completion.id ↔ id ∈ l.pending ∧ id ∉ l.unfinished := by
  have pass : (fireQueued l.pending l.queue).1 = l.dispatchAll.2.1 := congrArg Prod.fst (dispatchAll_pass l)
  rw [← pass, Loader.mem_fired_iff kept.pending_nodup]
  constructor
  · rintro ⟨pending, queued⟩
    exact ⟨pending, (kept.mem_queued_iff pending).mp queued⟩
  · rintro ⟨pending, ended⟩
    exact ⟨pending, (kept.mem_queued_iff pending).mpr ended⟩

theorem mem_left_iff (kept : Kept k h l) (id : Nat) :
    id ∈ l.dispatchAll.1.pending ↔ id ∈ l.pending ∧ id ∈ l.unfinished := by
  have pass : (fireQueued l.pending l.queue).2 = l.dispatchAll.1.pending := congrArg Prod.snd (dispatchAll_pass l)
  rw [← pass, Loader.mem_left_iff kept.pending_nodup]
  constructor
  · rintro ⟨pending, missing⟩
    exact ⟨pending, Classical.not_not.mp fun ended => missing ((kept.mem_queued_iff pending).mpr ended)⟩
  · rintro ⟨pending, task⟩
    exact ⟨pending, fun queued => (kept.mem_queued_iff pending).mp queued task⟩

theorem blocked_iff (kept : Kept k h l) : l.dispatchAll.2.2 = true ↔ ∃ id ∈ l.pending, id ∈ l.unfinished := by
  rw [dispatchAll_blocked_iff]
  constructor
  · intro some
    obtain ⟨id, left⟩ := List.exists_mem_of_ne_nil _ some
    exact ⟨id, (kept.mem_left_iff id).mp left⟩
  · rintro ⟨id, both⟩
    exact List.ne_nil_of_mem ((kept.mem_left_iff id).mpr both)

end Kept

end Loader

namespace World

open Loader

variable {w : World} {k : Nat} {l : Loader} {h : History}

theorem step_act (alive : w.loader? k = some l) (action : Action) :
    (w.step (.act k action)).2 = (l.act w.environment k action).2 :=
  occur_report alive action

/-- Waiting for one completion blocks when a request is pending but none has a completion queued, and says no when
nothing is pending. -/
theorem dispatchNext_outcome (alive : w.loader? k = some l) :
    ((w.step (.act k .dispatchNext)).2.outcome = .blocked ↔
      l.pending ≠ [] ∧ ∀ id ∈ l.pending, id ∉ l.queued) ∧
    ((w.step (.act k .dispatchNext)).2.outcome = .flag false ↔ l.pending = []) := by
  rw [step_act alive]
  cases call : l.dispatchNext with
  | mk next outcome =>
    cases outcome with
    | fired c =>
      obtain ⟨wanted, inQueue⟩ := (dispatchNext_fired call).1.mem (List.mem_singleton_self c)
      have some : l.pending ≠ [] := List.ne_nil_of_mem wanted
      simp only [act, call, reduceCtorEq, false_iff, Outcome.flag.injEq]
      refine ⟨fun stuck => stuck.2 c.id wanted (List.mem_map_of_mem inQueue), ?_⟩
      simp [some]
    | idle =>
      obtain ⟨_, empty⟩ := dispatchNext_idle call
      simp [act, call, empty]
    | blocked =>
      obtain ⟨pass, _, some, stale⟩ := dispatchNext_blocked call
      have kept : l.pending ≠ [] := by
        intro empty
        obtain ⟨_, _, fires, _⟩ := pass
        rw [empty, fireQueued_allStale (by simp)] at fires
        exact some (congrArg Prod.snd fires).symm
      have missing : ∀ id ∈ l.pending, id ∉ l.queued := by
        intro id pending queued
        obtain ⟨c, belongs, rfl⟩ := List.mem_map.mp queued
        exact stale c belongs pending
      simp only [act, call, reduceCtorEq, true_iff, false_iff]
      exact ⟨⟨kept, missing⟩, kept⟩

/-- Waiting for all completions fires those of ended tasks and blocks for the others. -/
theorem dispatchAll_outcome (alive : w.loader? k = some l) (kept : Kept k h l) :
    (∀ id, id ∈ (w.step (.act k .dispatchAll)).2.fired.map Completion.id ↔ id ∈ l.pending ∧ id ∉ l.unfinished) ∧
    ((w.step (.act k .dispatchAll)).2.outcome = .blocked ↔ ∃ id ∈ l.pending, id ∈ l.unfinished) ∧
    ((∀ id ∈ l.pending, id ∉ l.unfinished) →
      (w.step (.act k .dispatchAll)).2.outcome = .count l.pending.length ∧
        (w.step (.act k .dispatchAll)).1.pendingAt k = []) := by
  rw [step_act alive]
  refine ⟨kept.mem_fired_iff, ?_, ?_⟩
  · rw [← kept.blocked_iff]
    simp only [act]
    split <;> simp_all
  · intro ended
    have drained : l.dispatchAll.1.pending = [] := by
      rw [List.eq_nil_iff_forall_not_mem]
      intro id left
      obtain ⟨pending, task⟩ := (kept.mem_left_iff id).mp left
      exact ended id pending task
    have unblocked : l.dispatchAll.2.2 = false := by
      rw [Bool.eq_false_iff, Ne, dispatchAll_blocked_iff]
      exact fun some => some drained
    have conserved := (dispatchAll_dispatched l).perm.length_eq
    rw [drained, List.nil_append, List.length_map] at conserved
    constructor
    · simp [act, unblocked, conserved]
    · have lives := loader?_occur alive (.step (.act k .dispatchAll))
      rw [Loader.undergo, if_pos rfl] at lives
      exact (pendingAt_eq lives).trans drained

/-- Which tasks a moment ends and begins. -/
theorem moment_tasks (e : Event) (known : ∀ l, w.loader? k = some l → ∀ id ∈ l.unfinished, id ∈ l.pending) :
    (Moment.of w e).Tasks k := by
  constructor
  case ends =>
    intro l next alive lives task waits
    have becomes := (loader?_occur alive e).symm.trans lives
    rcases undergo_waiting becomes (known l alive) with same | ⟨url, rfl, _, _, longer⟩
    · rw [same]
      exact and_iff_right waits
    · rw [longer]
      simp [Event.Ends, Moment.of, waits]
  case begins =>
    intro l next alive lives task waits
    have becomes := (loader?_occur alive e).symm.trans lives
    rcases undergo_waiting becomes (known l alive) with same | ⟨url, rfl, running, gated, longer⟩
    · exact .inl ((same task).mp waits).1
    · rw [longer, List.mem_append, List.mem_singleton] at waits
      rcases waits with before | new
      · exact .inl before
      · exact .inr ⟨url, rfl, running, gated, new⟩

/-- Main statement: after any events in a world of new loaders, every ended task of a living loader has delivered one
completion, and its dispatching calls wait only for tasks that have not ended. -/
theorem completions_delivered (runtime : Runtime) (replies : Replies) (loaders : List (Resolver × Bool))
    (events : List Event) (k : Nat)
    (l : Loader) (alive : ((opened runtime replies loaders).after events).loader? k = some l) :
    Delivered k ((opened runtime replies loaders).history events) ((opened runtime replies loaders).after events) l := by
  have kept : Kept k ((opened runtime replies loaders).history events) l := by
    have accounted := accounted_history runtime replies loaders events k
    rwa [alive] at accounted
  obtain ⟨nextBlocked, nextIdle⟩ := dispatchNext_outcome alive
  obtain ⟨allFired, allBlocked, allFinished⟩ := dispatchAll_outcome alive kept
  refine ⟨?_, fun id => kept.count_sent, ?_, ?_, nextBlocked, nextIdle, allFired, allBlocked, allFinished⟩
  · intro m member
    obtain ⟨earlier, e, _, _, rfl⟩ := mem_history member
    apply moment_tasks
    intro before lives
    have accounted := accounted_history runtime replies loaders earlier k
    rw [lives] at accounted
    exact accounted.waiting
  · intro c sent
    rw [kept.tasks.mem_iff]
    exact List.mem_append_right _ (List.mem_map_of_mem sent)
  · intro id pending
    rw [kept.count_queued pending]
    by_cases task : id ∈ l.unfinished <;> simp [task]

/-- Two requests at a gate, one of them cancelled, and one that has failed: the loader has one task left. -/
theorem completions_delivered_one_left :
    let w := opened .sharded (Table.empty.insert "gate" ⟨.body "red", true⟩) [({}, true)]
    let events : List Event := [.step (.act 0 (.request "gate")), .step (.act 0 (.request "gate")),
      .step (.act 0 (.request "unknown")), .step (.act 0 (.cancel ⟨0, 0, "gate"⟩))]
    ∃ l, (w.after events).loader? 0 = some l ∧ l.pending = [1, 2] ∧ l.unfinished = [1] ∧ l.queued = [2, 0] ∧
      Delivered 0 (w.history events) (w.after events) l := by
  intro w events
  exact ⟨_, rfl, rfl, rfl, rfl, completions_delivered _ _ _ _ _ _ rfl⟩

end World

end ColorResolution
