import ColorResolution.Proofs.Loader.Delivery
import ColorResolution.Proofs.Loader.Stale

/-!
# The ways of dispatching agree

To dispatch what is there, to wait for everything, and to wait for one completion again and again until that ends or
blocks. Main statement: after any events in a world of new loaders the three fire the same completions in the order in
which they were sent, and leave the same requests pending. What they leave in the queue differs, by stale completions
only, and nothing that happens later tells it.
-/
namespace ColorResolution

open Loader

namespace World

/-- Waiting for one completion after another at the place `k`, as long as a callback fires: what fires, and the world in
which this ends. -/
inductive Polled (k : Nat) : World → List Completion → World → Prop
  | stops {w : World} : (w.step (.act k .dispatchNext)).2.outcome = .flag false ∨
      (w.step (.act k .dispatchNext)).2.outcome = .blocked →
    Polled k w (w.step (.act k .dispatchNext)).2.fired (w.step (.act k .dispatchNext)).1
  | again {w last : World} {fired : List Completion} : (w.step (.act k .dispatchNext)).2.outcome = .flag true →
    Polled k (w.step (.act k .dispatchNext)).1 fired last →
    Polled k w ((w.step (.act k .dispatchNext)).2.fired ++ fired) last

end World

/-- The ways of dispatching of the loader `l`, which the history `h` has led to in the place `k` of the world `w`. -/
structure WaysAgree (k : Nat) (h : History) (w : World) (l : Loader) : Prop where
  ready : (w.step (.act k .dispatchReady)).2.fired = (h.sent k).filter fun c => c.id ∈ l.pending
  left : (w.step (.act k .dispatchReady)).1.pendingAt k = l.pending.filter fun id => id ∉ (h.sent k).map Completion.id
  all : (w.step (.act k .dispatchAll)).2.fired = (w.step (.act k .dispatchReady)).2.fired
  allLeft : (w.step (.act k .dispatchAll)).1.pendingAt k = (w.step (.act k .dispatchReady)).1.pendingAt k
  polled : ∀ fired last, World.Polled k w fired last ↔
    fired = (w.step (.act k .dispatchReady)).2.fired ∧ last = (w.step (.act k .dispatchAll)).1
  alike : ∀ later j, ((w.step (.act k .dispatchReady)).1.history later).map (Moment.seen j) =
    ((w.step (.act k .dispatchAll)).1.history later).map (Moment.seen j)
  lossless : ∀ action, action = .dispatchNext ∨ action = .dispatchAll → (w.step (.act k action)).2.outcome = .blocked →
    (w.step (.act k action)).2.fired = (w.step (.act k .dispatchReady)).2.fired ∧
      (w.step (.act k action)).1.pendingAt k = (w.step (.act k .dispatchReady)).1.pendingAt k ∧
      ∀ id ∈ (w.step (.act k action)).1.pendingAt k, id ∈ l.unfinished
  unnoticed : (w.step (.act k .dispatchNext)).2.outcome = .blocked →
    ∀ later j, ((w.step (.act k .dispatchNext)).1.history later).map (Moment.seen j) =
      (w.history later).map (Moment.seen j)

/-! ## One pass over completions of different requests -/

namespace Loader

/-- With one completion a request at most, a pass fires those that are wanted, in their order. -/
theorem fireQueued_of_nodup {pending : List Nat} {queue : List Completion} (distinct : pending.Nodup)
    (single : (queue.map Completion.id).Nodup) :
    fireQueued pending queue = (queue.filter fun c => c.id ∈ pending,
      pending.filter fun id => id ∉ queue.map Completion.id) := by
  induction queue generalizing pending with
  | nil => simp [fireQueued]
  | cons c rest ih =>
    obtain ⟨absent, others⟩ := List.nodup_cons.mp single
    by_cases wanted : c.id ∈ pending
    · have fired : (rest.filter fun d => d.id ∈ pending.erase c.id) = rest.filter fun d => d.id ∈ pending := by
        refine List.filter_congr fun d member => ?_
        have other : d.id ≠ c.id := fun same => absent (same ▸ List.mem_map_of_mem member)
        simp [List.mem_erase_of_ne other]
      have left : ((pending.erase c.id).filter fun id => id ∉ rest.map Completion.id) =
          pending.filter fun id => id ∉ (c :: rest).map Completion.id := by
        rw [distinct.erase_eq_filter, List.filter_filter]
        refine List.filter_congr fun id _ => ?_
        by_cases same : id = c.id <;> simp [same]
      rw [fireQueued_wanted wanted, ih (distinct.erase c.id) others, fired, left,
        List.filter_cons_of_pos (by simpa using wanted)]
    · have left : (pending.filter fun id => id ∉ rest.map Completion.id) =
          pending.filter fun id => id ∉ (c :: rest).map Completion.id := by
        refine List.filter_congr fun id member => ?_
        have other : id ≠ c.id := fun same => wanted (same ▸ member)
        simp [other]
      rw [fireQueued_stale wanted, ih distinct others, left, List.filter_cons_of_neg (by simpa using wanted)]

/-- So the pass over a kept loader's queue fires the wanted ones of all completions that were ever sent. -/
theorem Kept.fireQueued {k : Nat} {h : History} {l : Loader} (kept : Kept k h l) :
    Loader.fireQueued l.pending l.queue = ((h.sent k).filter fun c => c.id ∈ l.pending,
      l.pending.filter fun id => id ∉ (h.sent k).map Completion.id) := by
  obtain ⟨taken, split, stale⟩ := kept.completions
  have single := (List.nodup_append.mp kept.tasks_nodup).2.1
  rw [split, List.map_append] at single
  have gone : (taken.filter fun c => c.id ∈ l.pending) = [] :=
    List.filter_eq_nil_iff.mpr fun c member => by simpa using stale c member
  have left : (l.pending.filter fun id => id ∉ (taken ++ l.queue).map Completion.id) =
      l.pending.filter fun id => id ∉ l.queue.map Completion.id := by
    refine List.filter_congr fun id pending => ?_
    have untaken : id ∉ taken.map Completion.id := by
      intro member
      obtain ⟨c, belongs, rfl⟩ := List.mem_map.mp member
      exact stale c belongs pending
    simp only [List.map_append, List.mem_append, untaken, false_or]
  rw [fireQueued_of_nodup kept.pending_nodup (List.nodup_append.mp single).2.1, split, List.filter_append, gone,
    List.nil_append, left]

/-- A wait that blocks takes nothing but stale completions. -/
theorem dispatchNext_blocked_tidy {l next : Loader} (blocked : l.dispatchNext = (next, .blocked)) :
    next.tidy = l.tidy := by
  obtain ⟨⟨taken, split, pass, frame⟩, drained, _, stale⟩ := dispatchNext_blocked blocked
  rw [drained, List.append_nil] at split
  rw [← split, fireQueued_allStale stale] at pass
  have same : next.pending = l.pending := (congrArg Prod.snd pass).symm
  rw [tidy_of_stale l stale, frame, drained, same]
  rfl

end Loader

namespace World

variable {w : World} {k : Nat} {l : Loader}

/-- Polling is determined by the world. -/
theorem Polled.unique {fired others : List Completion} {last other : World} (first : Polled k w fired last)
    (second : Polled k w others other) : fired = others ∧ last = other := by
  induction first generalizing others other with
  | stops ends =>
    cases second with
    | stops _ => exact ⟨rfl, rfl⟩
    | again fires _ =>
      rw [fires] at ends
      simp at ends
  | again fires _ ih =>
    cases second with
    | stops ends =>
      rw [fires] at ends
      simp at ends
    | again _ rest =>
      obtain ⟨rfl, rfl⟩ := ih rest
      exact ⟨rfl, rfl⟩

/-- Waiting for everything is polling. -/
theorem polled_dispatchUpTo (n : Nat) (alive : w.loader? k = some l) (enough : l.pending.length < n) :
    Polled k w (l.dispatchUpTo n).2.1 (w.put k (l.dispatchUpTo n).1) := by
  induction n generalizing w l with
  | zero => omega
  | succ n ih =>
    have step := step_act_eq alive .dispatchNext rfl
    unfold dispatchUpTo
    cases call : l.dispatchNext with
    | mk next outcome =>
      simp only [act, call] at step
      cases outcome with
      | fired c =>
        obtain ⟨_, shorter⟩ := dispatchNext_fired call
        have rest := ih (loader?_put alive next) (by omega)
        rw [put_put] at rest
        have fires : (w.step (.act k .dispatchNext)).2.outcome = .flag true := by rw [step]
        have after : Polled k (w.step (.act k .dispatchNext)).1 (next.dispatchUpTo n).2.1
            (w.put k (next.dispatchUpTo n).1) := by
          rw [step]
          exact rest
        have polled := Polled.again fires after
        rw [step] at polled
        exact polled
      | idle =>
        have polled := Polled.stops (k := k) (w := w) (.inl (by rw [step]))
        rw [step] at polled
        exact polled
      | blocked =>
        have polled := Polled.stops (k := k) (w := w) (.inr (by rw [step]))
        rw [step] at polled
        exact polled

/-- Polling ends where waiting for everything ends. -/
theorem polled_iff (alive : w.loader? k = some l) (fired : List Completion) (last : World) :
    Polled k w fired last ↔
      fired = (w.step (.act k .dispatchAll)).2.fired ∧ last = (w.step (.act k .dispatchAll)).1 := by
  have polls : Polled k w l.dispatchAll.2.1 (w.put k l.dispatchAll.1) :=
    polled_dispatchUpTo _ alive (Nat.lt_succ_self _)
  rw [step_act_eq alive .dispatchAll rfl]
  constructor
  · intro polled
    exact polled.unique polls
  · rintro ⟨rfl, rfl⟩
    exact polls

/-- Worlds that differ in the stale completions of one loader. -/
theorem Like.put (alive : w.loader? k = some l) {next other : Loader} (same : next.tidy = other.tidy) :
    Like (w.put k next) (w.put k other) where
  environment := rfl
  runtime := rfl
  spawned := rfl
  loaders := by
    intro j
    by_cases here : k = j
    · subst here
      rw [loader?_put alive, loader?_put alive, Option.map_some, Option.map_some, same]
    · rw [loader?_put_ne here, loader?_put_ne here]

theorem ready_like_all (alive : w.loader? k = some l) :
    Like (w.step (.act k .dispatchReady)).1 (w.step (.act k .dispatchAll)).1 := by
  obtain ⟨tidied, _⟩ := l.dispatchAll_tidy
  rw [step_act_eq alive .dispatchReady rfl, step_act_eq alive .dispatchAll rfl]
  exact Like.put alive (by rw [act, act, ← tidied, tidy_tidy])

theorem step_of_blocked (alive : w.loader? k = some l)
    (blocked : (w.step (.act k .dispatchNext)).2.outcome = .blocked) :
    ∃ next, l.dispatchNext = (next, .blocked) ∧ w.step (.act k .dispatchNext) = (w.put k next, silent .blocked) := by
  rw [step_act_eq alive .dispatchNext rfl] at blocked ⊢
  cases call : l.dispatchNext with
  | mk next outcome =>
    simp only [act, call] at blocked ⊢
    cases outcome with
    | fired c => cases blocked
    | idle => cases blocked
    | blocked => exact ⟨next, rfl, rfl⟩

/-- A wait that blocks goes unnoticed. -/
theorem Like.of_blocked (alive : w.loader? k = some l)
    (blocked : (w.step (.act k .dispatchNext)).2.outcome = .blocked) : Like (w.step (.act k .dispatchNext)).1 w := by
  obtain ⟨next, call, step⟩ := step_of_blocked alive blocked
  have like := Like.put alive (dispatchNext_blocked_tidy call)
  rw [put_self alive] at like
  rw [step]
  exact like

/-- When a wait blocks, the pass over the whole queue has been made. -/
theorem blocked_pass (alive : w.loader? k = some l) {action : Action}
    (waits : action = .dispatchNext ∨ action = .dispatchAll) (blocked : (w.step (.act k action)).2.outcome = .blocked) :
    (w.step (.act k action)).2.fired = (fireQueued l.pending l.queue).1 ∧
      (w.step (.act k action)).1.pendingAt k = (fireQueued l.pending l.queue).2 := by
  rcases waits with rfl | rfl
  · obtain ⟨next, call, step⟩ := step_of_blocked alive blocked
    obtain ⟨_, _, _, stale⟩ := dispatchNext_blocked call
    have same : next.tidy.pending = l.tidy.pending := by rw [dispatchNext_blocked_tidy call]
    rw [step, fireQueued_allStale stale, pendingAt_eq (loader?_put alive next)]
    exact ⟨rfl, same⟩
  · rw [step_act_eq alive .dispatchAll rfl, pendingAt_eq (loader?_put alive _), dispatchAll_pass]
    exact ⟨rfl, rfl⟩

/-- Main statement: after any events in a world of new loaders, the three ways of dispatching of a living loader agree in
what they fire and leave pending, and in all that can be observed later. -/
theorem ways_agree (runtime : Runtime) (replies : Replies) (loaders : List (Resolver × Bool)) (events : List Event)
    (k : Nat) (l : Loader) (alive : ((opened runtime replies loaders).after events).loader? k = some l) :
    WaysAgree k ((opened runtime replies loaders).history events) ((opened runtime replies loaders).after events) l := by
  have kept := kept_history alive
  have reached : Reached ((opened runtime replies loaders).after events) := ⟨runtime, replies, loaders, events, rfl⟩
  generalize (opened runtime replies loaders).history events = h at kept
  generalize (opened runtime replies loaders).after events = w at alive reached
  have pass := kept.fireQueued
  have fired : (w.step (.act k .dispatchReady)).2.fired = (fireQueued l.pending l.queue).1 := by
    rw [step_act_eq alive .dispatchReady rfl]
    rfl
  have left : (w.step (.act k .dispatchReady)).1.pendingAt k = (fireQueued l.pending l.queue).2 := by
    rw [step_act_eq alive .dispatchReady rfl, pendingAt_eq (loader?_put alive _)]
    rfl
  have all : (w.step (.act k .dispatchAll)).2.fired = (w.step (.act k .dispatchReady)).2.fired := by
    rw [fired, dispatchAll_pass, step_act_eq alive .dispatchAll rfl]
    rfl
  constructor
  case ready => rw [fired, pass]
  case left => rw [left, pass]
  case all => exact all
  case allLeft =>
    rw [left, dispatchAll_pass, step_act_eq alive .dispatchAll rfl, pendingAt_eq (loader?_put alive _)]
    rfl
  case polled =>
    intro found last
    rw [polled_iff alive, all]
  case alike =>
    intro later j
    exact (ready_like_all alive).history (reached.occur (.step (.act k .dispatchReady)))
      (reached.occur (.step (.act k .dispatchAll))) later j
  case lossless =>
    intro action waits blocked
    obtain ⟨sameFired, sameLeft⟩ := blocked_pass alive waits blocked
    refine ⟨sameFired.trans fired.symm, sameLeft.trans left.symm, ?_⟩
    intro id member
    rw [sameLeft, pass] at member
    obtain ⟨pending, unsent⟩ := List.mem_filter.mp member
    have issued := kept.tasks.mem_iff.mp (kept.issued_of_pending pending)
    exact (List.mem_append.mp issued).resolve_right (of_decide_eq_true unsent)
  case unnoticed =>
    intro blocked later j
    exact (Like.of_blocked alive blocked).history (reached.occur (.step (.act k .dispatchNext))) reached later j

/-- A request that has failed and one that was cancelled at its gate: to wait for everything leaves the completion of the
cancelled one in the queue. -/
theorem ways_agree_one_stale :
    let w := opened .sharded (Table.empty.insert "gate" ⟨.body "red", true⟩) [({}, true)]
    let events : List Event := [.step (.act 0 (.request "gate")), .step (.act 0 (.request "unknown")),
      .step (.act 0 (.cancel ⟨0, 0, "gate"⟩))]
    ∃ l, (w.after events).loader? 0 = some l ∧ l.pending = [1] ∧ l.queued = [1, 0] ∧
      l.dispatchReady.1.queued = [] ∧ l.dispatchAll.1.queued = [0] ∧
      WaysAgree 0 (w.history events) (w.after events) l := by
  intro w events
  exact ⟨_, rfl, rfl, rfl, rfl, rfl, ways_agree _ _ _ _ _ _ rfl⟩

end World

end ColorResolution
