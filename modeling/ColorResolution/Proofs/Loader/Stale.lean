import ColorResolution.Proofs.Loader.Conservation
import ColorResolution.Proofs.Loader.Observation

/-!
# Stale completions do not show

A completion whose request is no longer pending is stale: it stays in the queue until a dispatching call comes upon it
and drops it. Only dispatching looks into the queue; every other operation adds to its end. Main statement: worlds that
differ in stale completions alone cannot be told apart, whatever happens in them.
-/
namespace ColorResolution

namespace Loader

/-- A loader without its stale completions. -/
def tidy (l : Loader) : Loader := { l with queue := l.queue.filter (·.id ∈ l.pending) }

/-- A loader with older completions in front of its queue. -/
def withOlder (older : List Completion) (l : Loader) : Loader := { l with queue := older ++ l.queue }

/-! ## Only dispatching looks into the queue -/

section
variable (older : List Completion) (l : Loader)

theorem complete_withOlder (id : Nat) (result : Except ColorError Color) :
    (l.withOlder older).complete id result = (l.complete id result).withOlder older := by
  simp [complete, withOlder]

theorem settle_withOlder (id : Nat) (url : String) (answer : Answer) :
    (l.withOlder older).settle id url answer = (l.settle id url answer).withOlder older :=
  complete_withOlder older (l.store url (answer.result url)) id _

theorem request_withOlder (env : Environment) (url : String) :
    (l.withOlder older).request env url = ((l.request env url).1.withOlder older, (l.request env url).2) := by
  have same : (l.withOlder older).cached? url = l.cached? url := rfl
  unfold request
  rw [same]
  dsimp only
  split
  · simp [complete, withOlder]
  · split
    · simp [complete, withOlder]
    · split
      · rfl
      · simp [settle, store, complete, withOlder]

theorem cancel_withOlder (id : Nat) :
    (l.withOlder older).cancel id = ((l.cancel id).1.withOlder older, (l.cancel id).2) := by
  by_cases member : id ∈ l.pending
  · have pending : id ∈ (l.withOlder older).pending := member
    rw [cancel, cancel, if_pos member, if_pos pending]
    by_cases waits : (l.waiting.any fun w => w.id == id) = true
    · simp [withOlder, complete, waits]
    · simp [withOlder, waits]
  · have absent : id ∉ (l.withOlder older).pending := member
    rw [cancel_foreign member, cancel_foreign absent]

theorem settleWhere_withOlder (p : Waiting → Bool) :
    (l.withOlder older).settleWhere p = (l.settleWhere p).withOlder older := by
  have fold (tasks : List Waiting) (l : Loader) :
      tasks.foldl (fun l w => l.settle w.id w.url w.answer) (l.withOlder older) =
        (tasks.foldl (fun l w => l.settle w.id w.url w.answer) l).withOlder older := by
    induction tasks generalizing l with
    | nil => rfl
    | cons w rest ih => rw [List.foldl_cons, List.foldl_cons, settle_withOlder, ih]
  exact fold (l.waiting.filter p) { l with waiting := l.waiting.filter fun w => !p w }

theorem abortAll_withOlder (turn : Nat → Nat) :
    (l.withOlder older).abortAll turn = (l.abortAll turn).withOlder older := by
  simp [abortAll, withOlder]

theorem fetchNow_withOlder (replies : Replies) (url : String) :
    (l.withOlder older).fetchNow replies url =
      ((l.fetchNow replies url).1.withOlder older, (l.fetchNow replies url).2) := by
  have same : (l.withOlder older).cached? url = l.cached? url := rfl
  unfold fetchNow
  rw [same]
  split
  · rfl
  · dsimp only
    split <;> rfl

theorem resolveNow_withOlder (replies : Replies) (url : String) :
    (l.withOlder older).resolveNow replies url =
      ((l.resolveNow replies url).1.withOlder older, (l.resolveNow replies url).2) := by
  simp only [resolveNow, fetchNow_withOlder]
  rfl

theorem resolveAllNow_withOlder (replies : Replies) (urls : List String) :
    (l.withOlder older).resolveAllNow replies urls =
      ((l.resolveAllNow replies urls).1.withOlder older, (l.resolveAllNow replies urls).2) := by
  induction urls generalizing l with
  | nil => rfl
  | cons url rest ih => simp only [resolveAllNow, resolveNow_withOlder, ih]

/-- An action that does not dispatch leaves older completions in front of the queue and answers as without them. -/
theorem act_withOlder (env : Environment) (self : Nat) {action : Action} (other : ¬ action.Dispatches) :
    (l.withOlder older).act env self action =
      ((l.act env self action).1.withOlder older, (l.act env self action).2) := by
  cases action with
  | dispatchReady => exact absurd (.inl rfl) other
  | dispatchNext => exact absurd (.inr (.inl rfl)) other
  | dispatchAll => exact absurd (.inr (.inr rfl)) other
  | request url =>
    simp only [act, request_withOlder]
    rfl
  | cancel handle =>
    simp only [act]
    split
    · rw [cancel_withOlder]
    · rfl
  | resolveUrl url =>
    simp only [act, resolveNow_withOlder]
  | resolveUrls urls =>
    simp only [act, resolveAllNow_withOlder]
  | fetch url =>
    simp only [act, fetchNow_withOlder]
  | _ => rfl

/-- So does every event but a dispatching call. -/
theorem undergo_withOlder (turn : Nat → Nat) (env : Environment) (self : Nat) {e : Event}
    (other : ∀ action, e.action? self = some action → ¬ action.Dispatches) :
    (l.withOlder older).undergo turn env self e = (l.undergo turn env self e).map (withOlder older) := by
  cases e with
  | fetchEnds j id =>
    simp only [undergo, settleWhere_withOlder, Option.map_some]
    split <;> rfl
  | step s =>
    cases s with
    | act j action =>
      by_cases same : j = self
      · have quiet : ¬ action.Dispatches := other action (by simp [Event.action?, same])
        simp only [undergo, if_pos same, act_withOlder older l env self quiet, Option.map_some]
      · simp only [undergo, if_neg same, Option.map_some]
    | setReply url reply => rfl
    | release url => exact congrArg some (settleWhere_withOlder older l _)
    | shutdown => exact congrArg some (abortAll_withOlder older l turn)
    | drop j =>
      simp only [undergo]
      split <;> rfl

end

/-! ## Leaving out stale completions -/

/-- Leaving out completions that no pending request waits for changes nothing of the wanted ones. -/
theorem wanted_filter (pending : List Nat) {p : Completion → Bool} (queue : List Completion)
    (wanted : ∀ c ∈ queue, c.id ∈ pending → p c = true) :
    (queue.filter p).filter (fun c => decide (c.id ∈ pending)) = queue.filter fun c => decide (c.id ∈ pending) := by
  rw [List.filter_filter]
  refine List.filter_congr fun c member => ?_
  by_cases waits : c.id ∈ pending
  · simp [waits, wanted c member waits]
  · simp [waits]

theorem tidy_withOlder {older : List Completion} {p : Completion → Bool} {l : Loader}
    (wanted : ∀ c ∈ older, c.id ∈ l.pending → p c = true) :
    (l.withOlder (older.filter p)).tidy = (l.withOlder older).tidy := by
  have queues : (older.filter p ++ l.queue).filter (fun c => decide (c.id ∈ l.pending)) =
      (older ++ l.queue).filter fun c => decide (c.id ∈ l.pending) := by
    rw [List.filter_append, List.filter_append, wanted_filter l.pending older wanted]
  exact congrArg (fun queue => { l with queue := queue }) queues

theorem fireQueued_filter (pending : List Nat) {p : Completion → Bool} (queue : List Completion)
    (wanted : ∀ c ∈ queue, c.id ∈ pending → p c = true) :
    fireQueued pending (queue.filter p) = fireQueued pending queue := by
  induction queue generalizing pending with
  | nil => rfl
  | cons c rest ih =>
    have later : ∀ d ∈ rest, d.id ∈ pending → p d = true := fun d member => wanted d (List.mem_cons_of_mem c member)
    by_cases fires : c.id ∈ pending
    · have erased : ∀ d ∈ rest, d.id ∈ pending.erase c.id → p d = true :=
        fun d member left => later d member (List.mem_of_mem_erase left)
      rw [List.filter_cons_of_pos (wanted c List.mem_cons_self fires), fireQueued_wanted fires, fireQueued_wanted fires,
        ih _ erased]
    · rw [fireQueued_stale fires, List.filter_cons]
      split
      · rw [fireQueued_stale fires, ih pending later]
      · exact ih pending later

theorem firstWanted_filter (pending : List Nat) {p : Completion → Bool} (queue : List Completion)
    (wanted : ∀ c ∈ queue, c.id ∈ pending → p c = true) :
    firstWanted pending (queue.filter p) = (firstWanted pending queue).map fun (c, rest) => (c, rest.filter p) := by
  induction queue with
  | nil => rfl
  | cons c rest ih =>
    by_cases fires : c.id ∈ pending
    · rw [List.filter_cons_of_pos (wanted c List.mem_cons_self fires), firstWanted, firstWanted, if_pos fires,
        if_pos fires]
      rfl
    · have later := ih fun d member => wanted d (List.mem_cons_of_mem c member)
      rw [List.filter_cons]
      split
      · rw [firstWanted, firstWanted, if_neg fires, if_neg fires, later]
      · rw [firstWanted, if_neg fires, later]

section
variable (l : Loader)

theorem counts_tidy : l.tidy.counts = l.counts := rfl

/-- Without a completion that is wanted nothing is left in the queue. -/
theorem tidy_of_stale (stale : ∀ c ∈ l.queue, c.id ∉ l.pending) : l.tidy = { l with queue := [] } := by
  have none : l.queue.filter (fun c => decide (c.id ∈ l.pending)) = [] :=
    List.filter_eq_nil_iff.mpr fun c member => by simpa using stale c member
  exact congrArg (fun queue => { l with queue := queue }) none

theorem tidy_tidy : l.tidy.tidy = l.tidy :=
  congrArg (fun queue => { l with queue := queue })
    (wanted_filter l.pending l.queue fun c _ pending => by simpa using pending)

theorem dispatchReady_tidy : l.tidy.dispatchReady = l.dispatchReady := by
  simp only [dispatchReady, tidy]
  rw [fireQueued_filter l.pending l.queue fun c _ pending => by simpa using pending]

theorem dispatchNext_tidy :
    l.tidy.dispatchNext.2 = l.dispatchNext.2 ∧ l.tidy.dispatchNext.1.tidy = l.dispatchNext.1.tidy := by
  by_cases empty : l.pending.isEmpty = true
  · have same : l.tidy.pending.isEmpty = true := empty
    rw [dispatchNext, dispatchNext, if_pos empty, if_pos same]
    exact ⟨rfl, l.tidy_tidy⟩
  · have same : ¬ l.tidy.pending.isEmpty = true := empty
    have first : firstWanted l.tidy.pending l.tidy.queue = _ :=
      firstWanted_filter l.pending l.queue fun c _ pending => by simpa using pending
    rw [dispatchNext, dispatchNext, if_neg empty, if_neg same, first]
    cases firstWanted l.pending l.queue with
    | none => exact ⟨rfl, rfl⟩
    | some found =>
      obtain ⟨c, rest⟩ := found
      have left : (rest.filter fun d => decide (d.id ∈ l.pending)).filter
          (fun d => decide (d.id ∈ l.pending.erase c.id)) = rest.filter fun d => decide (d.id ∈ l.pending.erase c.id) :=
        wanted_filter _ rest fun d _ pending => by simpa using List.mem_of_mem_erase pending
      exact ⟨rfl, congrArg (fun queue => { l with pending := l.pending.erase c.id, queue := queue }) left⟩

/-- Waiting for all completions comes to dispatching those that are there, and blocks where that leaves a request. What
it leaves in the queue is stale. -/
theorem dispatchAll_tidy : l.dispatchAll.1.tidy = l.dispatchReady.1 ∧ l.dispatchAll.2.1 = l.dispatchReady.2 ∧
    (l.dispatchAll.2.2 = true ↔ l.dispatchReady.1.pending ≠ []) := by
  have pass := dispatchAll_pass l
  have left : l.dispatchAll.1.pending = l.dispatchReady.1.pending := (congrArg Prod.snd pass).symm
  refine ⟨?_, (congrArg Prod.fst pass).symm, by rw [dispatchAll_blocked_iff, left]⟩
  obtain ⟨⟨_, _, _, frame⟩, stop⟩ := dispatchUpTo_spec _ l (Nat.lt_succ_self _)
  change l.dispatchAll.1 = { l with pending := l.dispatchAll.1.pending, queue := l.dispatchAll.1.queue } at frame
  change l.dispatchAll.2.2 = false ∧ l.dispatchAll.1.pending = [] ∨
    l.dispatchAll.2.2 = true ∧ l.dispatchAll.1.pending ≠ [] ∧ l.dispatchAll.1.queue = [] at stop
  have stale : ∀ c ∈ l.dispatchAll.1.queue, c.id ∉ l.dispatchAll.1.pending := by
    rcases stop with ⟨_, none⟩ | ⟨_, _, none⟩ <;> simp [none]
  rw [tidy_of_stale _ stale, frame, left]
  rfl

/-! ### One event -/

theorem eq_withOlder : l = ({ l with queue := [] } : Loader).withOlder l.queue := by simp [withOlder]

theorem tidy_eq_withOlder :
    l.tidy = ({ l with queue := [] } : Loader).withOlder (l.queue.filter fun c => decide (c.id ∈ l.pending)) := by
  simp [withOlder, tidy]

theorem act_dispatches_tidy (env : Environment) (self : Nat) {action : Action} (dispatches : action.Dispatches) :
    (l.tidy.act env self action).2 = (l.act env self action).2 ∧
      (l.tidy.act env self action).1.tidy = (l.act env self action).1.tidy := by
  rcases dispatches with rfl | rfl | rfl
  · simp only [act, dispatchReady_tidy, and_self]
  · obtain ⟨outcome, next⟩ := l.dispatchNext_tidy
    simp only [act]
    cases call : l.dispatchNext with
    | mk m found =>
      cases again : l.tidy.dispatchNext with
      | mk m' found' =>
        rw [call, again] at outcome next
        obtain rfl : found' = found := outcome
        cases found' <;> exact ⟨rfl, next⟩
  · obtain ⟨next, fired, blocked⟩ := l.dispatchAll_tidy
    obtain ⟨next', fired', blocked'⟩ := l.tidy.dispatchAll_tidy
    rw [dispatchReady_tidy] at next' fired' blocked'
    have stops : l.tidy.dispatchAll.2.2 = l.dispatchAll.2.2 := Bool.eq_iff_iff.mpr (blocked'.trans blocked.symm)
    simp only [act, next, next', fired, fired', stops, and_self]

/-- A loader answers alike with and without its stale completions. -/
theorem act_tidy (env : Environment) (self : Nat) (action : Action) :
    (l.tidy.act env self action).2 = (l.act env self action).2 := by
  by_cases dispatches : action.Dispatches
  · exact (l.act_dispatches_tidy env self dispatches).1
  · rw [tidy_eq_withOlder, act_withOlder _ _ _ _ dispatches]
    conv_rhs => rw [eq_withOlder l, act_withOlder _ _ _ _ dispatches]

/-- What becomes of a loader is the same but for stale completions, provided that none of these is wanted again. -/
theorem undergo_tidy (turn : Nat → Nat) (env : Environment) (self : Nat) (e : Event)
    (stale : ∀ next, l.undergo turn env self e = some next → ∀ c ∈ l.queue, c.id ∈ next.pending → c.id ∈ l.pending) :
    (l.tidy.undergo turn env self e).map tidy = (l.undergo turn env self e).map tidy := by
  by_cases dispatching : ∃ action : Action, action.Dispatches ∧ e = .step (.act self action)
  · obtain ⟨action, dispatches, rfl⟩ := dispatching
    simp only [undergo, if_true, Option.map_some]
    rw [(l.act_dispatches_tidy env self dispatches).2]
  · have other : ∀ action, e.action? self = some action → ¬ action.Dispatches :=
      fun action asked dispatches => dispatching ⟨action, dispatches, Event.action?_eq_some_iff.mp asked⟩
    rw [tidy_eq_withOlder, undergo_withOlder _ _ _ _ _ other]
    rw [eq_withOlder l, undergo_withOlder _ _ _ _ _ other] at stale
    conv_rhs => rw [eq_withOlder l, undergo_withOlder _ _ _ _ _ other]
    cases becomes : ({ l with queue := [] } : Loader).undergo turn env self e with
    | none => rfl
    | some next =>
      have wanted := stale (next.withOlder l.queue) (by rw [becomes, Option.map_some])
      have old : ∀ c ∈ l.queue, c.id ∈ next.pending → decide (c.id ∈ l.pending) = true := by
        intro c member pending
        exact decide_eq_true (wanted c (by simpa [withOlder] using member) pending)
      simp only [Option.map_some, tidy_withOlder old]

end

end Loader

/-! ## Worlds -/

namespace World

open Loader

/-- Worlds to which events lead from a world of new loaders. -/
def Reached (w : World) : Prop := ∃ runtime replies loaders events, w = (opened runtime replies loaders).after events

/-- Worlds that differ in stale completions alone. -/
structure Like (w v : World) : Prop where
  environment : w.environment = v.environment
  runtime : w.runtime = v.runtime
  spawned : w.spawned = v.spawned
  loaders : ∀ k, (w.loader? k).map tidy = (v.loader? k).map tidy

variable {w v : World} {k : Nat} {l next : Loader}

theorem Reached.occur (reached : Reached w) (e : Event) : Reached (w.occur e).1 := by
  obtain ⟨runtime, replies, loaders, events, rfl⟩ := reached
  exact ⟨runtime, replies, loaders, events ++ [e], by rw [after_append]; rfl⟩

theorem Reached.kept (reached : Reached w) (alive : w.loader? k = some l) : ∃ h, Kept k h l := by
  obtain ⟨_, _, _, _, rfl⟩ := reached
  exact ⟨_, kept_history alive⟩

/-- In a world that events lead to, no completion is wanted again once it is stale. -/
theorem Reached.stale (reached : Reached w) (e : Event) (alive : w.loader? k = some l)
    (lives : (w.occur e).1.loader? k = some next) :
    ∀ c ∈ l.queue, c.id ∈ next.pending → c.id ∈ l.pending := by
  obtain ⟨h, kept⟩ := reached.kept alive
  have change := Moment.change e alive lives kept.pending_nodup kept.unfinished_nodup
  intro c queued pending
  obtain ⟨taken, sent, _⟩ := kept.completions
  exact kept.pending_before change (sent ▸ List.mem_append_right _ queued) pending

namespace Like

theorem counts (like : Like w v) (k : Nat) : w.counts k = v.counts k := by
  have same := congrArg (Option.map Loader.counts) (like.loaders k)
  simpa [World.counts, Function.comp_def, counts_tidy] using same

theorem report (like : Like w v) (e : Event) : (w.occur e).2 = (v.occur e).2 := by
  rw [report_occur, report_occur, like.environment]
  cases e with
  | fetchEnds j id => rfl
  | step s =>
    cases s with
    | act j action =>
      have same := like.loaders j
      simp only [Environment.report]
      cases first : w.loader? j with
      | none =>
        cases second : v.loader? j with
        | none => rfl
        | some m => simp [first, second] at same
      | some l =>
        cases second : v.loader? j with
        | none => simp [first, second] at same
        | some m =>
          simp only [first, second, Option.map_some, Option.some.injEq] at same
          simp only [Option.elim_some]
          rw [← l.act_tidy, ← m.act_tidy, same]
    | _ => rfl

theorem turn (like : Like w v) (k : Nat) : w.turn k = v.turn k := by
  funext id
  rw [World.turn, World.turn, like.runtime, like.spawned]

/-- A number is given out whatever is stale. -/
theorem spawned_occur (like : Like w v) (e : Event) : (w.occur e).1.spawned = (v.occur e).1.spawned := by
  rw [World.spawned_occur, World.spawned_occur]
  split
  next j action =>
    have same := like.loaders j
    cases first : w.loader? j with
    | none =>
      have second : v.loader? j = none := by simpa [first] using same.symm
      rw [second]
      exact like.spawned
    | some l =>
      obtain ⟨m, second, tidied⟩ : ∃ m, v.loader? j = some m ∧ m.tidy = l.tidy := by
        simpa [first] using same.symm
      have number : l.nextId = m.nextId := by simpa [tidy] using (congrArg Loader.nextId tidied).symm
      rw [second]
      cases action <;> simp [spawnedBy, like.spawned, number]
  · exact like.spawned

theorem occur (like : Like w v) (reached : Reached w) (other : Reached v) (e : Event) :
    Like (w.occur e).1 (v.occur e).1 where
  environment := by rw [environment_occur, environment_occur, like.environment]
  runtime := by rw [runtime_occur, runtime_occur, like.runtime]
  spawned := like.spawned_occur e
  loaders := by
    intro k
    have same := like.loaders k
    have steps {u : World} {l : Loader} (reached : Reached u) (alive : u.loader? k = some l) :
        ((u.occur e).1.loader? k).map tidy = (l.tidy.undergo (u.turn k) u.environment k e).map tidy := by
      have becomes := loader?_occur alive e
      rw [becomes]
      exact (l.undergo_tidy _ u.environment k e fun next lives => reached.stale e alive (becomes.trans lives)).symm
    cases first : w.loader? k with
    | none =>
      have second : v.loader? k = none := by simpa [first] using same.symm
      rw [loader?_occur_none first, loader?_occur_none second]
    | some l =>
      obtain ⟨m, second, tidied⟩ : ∃ m, v.loader? k = some m ∧ m.tidy = l.tidy := by
        simpa [first] using same.symm
      rw [steps reached first, steps other second, tidied, like.environment, like.turn]

theorem history (like : Like w v) (reached : Reached w) (other : Reached v) (later : List Event) (k : Nat) :
    (w.history later).map (Moment.seen k) = (v.history later).map (Moment.seen k) := by
  induction later generalizing w v with
  | nil => rfl
  | cons e rest ih =>
    have next := like.occur reached other e
    have now : (Moment.of w e).seen k = (Moment.of v e).seen k := by
      simp only [Moment.seen, Moment.of, like.report e, next.counts k]
    rw [World.history, World.history, List.map_cons, List.map_cons, now, ih next (reached.occur e) (other.occur e)]

end Like

end World

end ColorResolution
