import ColorResolution.Proofs.Loader.Conservation

/-!
# Every callback fires at most once, and only by dispatching

Main statement: after any events in a world of any new loaders, the requests of each loader are parted into pending,
fired, cancelled and discarded ones; the dispatching calls answer with the number of callbacks that they fired; and a
callback fires only while its living loader dispatches.
-/
namespace ColorResolution

/-- What the dispatching calls of the loader at place `k` answer, and when callbacks fire, at one moment. -/
structure Moment.Answered (k : Nat) (m : Moment) : Prop where
  ready : m.event = .step (.act k .dispatchReady) → m.before.loader? k ≠ none →
    m.report.outcome = .count (m.fired k).length
  all : m.event = .step (.act k .dispatchAll) → ∀ n, m.report.outcome = .count n → n = (m.fired k).length
  next : m.event = .step (.act k .dispatchNext) →
    m.report.outcome = .flag true ∧ (m.fired k).length = 1 ∨ m.report.outcome ≠ .flag true ∧ m.fired k = []
  taken : ∀ action : Action, action.Dispatches → m.event = .step (.act k action) →
    (m.before.pendingAt k).Perm (m.after.pendingAt k ++ (m.fired k).map Completion.id)
  dispatched : ∀ c ∈ m.report.fired, ∃ j action l, m.event = .step (.act j action) ∧ action.Dispatches ∧
    m.before.loader? j = some l ∧ c.id ∈ l.pending ∧ c ∈ l.queue

/-- Where the requests of the loader at place `k` have gone after the history `h` that led to the world `w`. -/
structure Conserved (k : Nat) (h : History) (w : World) : Prop where
  distinct : (h.issued k).Nodup
  parted : (h.issued k).Perm (w.pendingAt k ++ (h.fired k).map Completion.id ++ h.cancelled k ++ h.discarded k)
  discarding : w.loader? k ≠ none → h.discarded k = []
  counted : ∀ l, w.loader? k = some l →
    (l.pending.length : Int) = (h.issued k).length - (h.fired k).length - (h.cancelled k).length
  answered : ∀ m ∈ h, m.Answered k
  silent : ∀ earlier m later, h = earlier ++ m :: later → m.event = .step (.drop k) → History.fired k later = []

namespace Loader

theorem Dispatched.mem {l next : Loader} {fired : List Completion} (dispatched : Dispatched l fired next)
    {c : Completion} (member : c ∈ fired) : c.id ∈ l.pending ∧ c ∈ l.queue := by
  obtain ⟨taken, split, pass, _⟩ := dispatched
  have firedEq : (fireQueued l.pending taken).1 = fired := by rw [pass]
  subst firedEq
  constructor
  · rw [(fireQueued_perm l.pending taken).mem_iff]
    exact List.mem_append_right _ (List.mem_map_of_mem member)
  · rw [split]
    exact List.mem_append_left _ (fireQueued_sublist.subset member)

theorem Dispatched.perm {l next : Loader} {fired : List Completion} (dispatched : Dispatched l fired next) :
    l.pending.Perm (next.pending ++ fired.map Completion.id) := by
  obtain ⟨taken, _, pass, _⟩ := dispatched
  have conserved := fireQueued_perm l.pending taken
  rwa [pass] at conserved

theorem act_dispatchNext (env : Environment) (self : Nat) (l : Loader) :
    (l.act env self .dispatchNext).2.outcome = .flag true ∧ (l.act env self .dispatchNext).2.fired.length = 1 ∨
      (l.act env self .dispatchNext).2.outcome ≠ .flag true ∧ (l.act env self .dispatchNext).2.fired = [] := by
  cases call : l.dispatchNext with
  | mk next outcome =>
    cases outcome with
    | fired c => exact .inl (by simp [act, call])
    | idle => exact .inr (by simp [act, call])
    | blocked => exact .inr (by simp [act, call])

theorem act_dispatchAll (env : Environment) (self : Nat) (l : Loader) (n : Nat)
    (finished : (l.act env self .dispatchAll).2.outcome = .count n) :
    n = (l.act env self .dispatchAll).2.fired.length := by
  simp only [act] at finished ⊢
  split at finished
  · cases finished
  · exact (Outcome.count.inj finished).symm

end Loader

namespace World

open Loader

variable {w : World} {k : Nat} {l : Loader}

theorem of_fired (alive : w.loader? k = some l) (action : Action) :
    (Moment.of w (.step (.act k action))).fired k = (l.act w.environment k action).2.fired := by
  simp only [Moment.fired, Moment.of, Event.action?, if_true, Option.elim, occur_report alive action]

theorem of_fired_none (e : Event) (gone : w.loader? k = none) : (Moment.of w e).fired k = [] :=
  (Moment.effect_none e gone).2.1

/-- A loader that is not there stays silent. -/
theorem history_fired_none (events : List Event) (gone : w.loader? k = none) : (w.history events).fired k = [] := by
  induction events generalizing w with
  | nil => rfl
  | cons e rest ih =>
    change (Moment.of w e).fired k ++ ((w.occur e).1.history rest).fired k = []
    rw [of_fired_none e gone, ih (loader?_occur_none gone e)]
    rfl

theorem pendingAt_eq (alive : w.loader? k = some l) : w.pendingAt k = l.pending := by
  rw [pendingAt, alive]
  rfl

/-- A dispatching call takes off the pending requests what it fires. -/
theorem taken_of_dispatches {action : Action} (dispatches : action.Dispatches) :
    (w.pendingAt k).Perm ((w.occur (.step (.act k action))).1.pendingAt k ++
      ((Moment.of w (.step (.act k action))).fired k).map Completion.id) := by
  cases alive : w.loader? k with
  | none =>
    rw [of_fired_none _ alive, pendingAt, pendingAt, loader?_occur_none alive, alive]
    exact .refl _
  | some l =>
    have lives := loader?_occur alive (.step (.act k action))
    rw [Loader.undergo, if_pos rfl] at lives
    rw [pendingAt_eq alive, pendingAt_eq lives, of_fired alive]
    exact (act_dispatched w.environment k l dispatches).perm

/-- A callback fires while its living loader dispatches: its request was pending, and its completion was queued. -/
theorem fired_by_dispatching (e : Event) {c : Completion} (fired : c ∈ (w.occur e).2.fired) :
    ∃ j action l, e = .step (.act j action) ∧ action.Dispatches ∧ w.loader? j = some l ∧ c.id ∈ l.pending ∧
      c ∈ l.queue := by
  cases e with
  | fetchEnds j id =>
    simp only [occur] at fired
    split at fired <;> cases fired
  | step s =>
    cases s with
    | act j action =>
      cases alive : w.loader? j with
      | none =>
        simp only [occur, step, alive] at fired
        cases fired
      | some l =>
        rw [occur_report alive] at fired
        by_cases dispatches : action.Dispatches
        · exact ⟨j, action, l, rfl, dispatches, alive, (act_dispatched w.environment j l dispatches).mem fired⟩
        · rw [act_silent _ _ _ dispatches] at fired
          cases fired
    | _ => cases fired

theorem answered (k : Nat) (w : World) (e : Event) : (Moment.of w e).Answered k where
  ready := by
    rintro rfl lives
    obtain ⟨l, alive⟩ := Option.ne_none_iff_exists'.mp lives
    change w.loader? k = some l at alive
    rw [of_fired alive]
    exact congrArg Report.outcome (occur_report alive .dispatchReady)
  all := by
    rintro rfl n finished
    cases alive : w.loader? k with
    | none =>
      simp only [Moment.of, occur, step, alive] at finished
      cases finished
    | some l =>
      rw [of_fired alive]
      apply act_dispatchAll
      rw [← occur_report alive]
      exact finished
  next := by
    rintro rfl
    cases alive : w.loader? k with
    | none =>
      refine .inr ⟨?_, of_fired_none _ alive⟩
      simp [Moment.of, occur, step, alive, silent]
    | some l =>
      have outcome := congrArg Report.outcome (occur_report alive .dispatchNext)
      rw [of_fired alive]
      simp only [Moment.of, outcome]
      exact act_dispatchNext w.environment k l
  taken := by
    rintro action dispatches rfl
    exact taken_of_dispatches dispatches
  dispatched := fun c fired => fired_by_dispatching e fired

/-- After its drop a loader stays silent. -/
theorem silent_after_drop {events : List Event} {first rest : History} {m : Moment}
    (split : w.history events = first ++ m :: rest) (dropped : m.event = .step (.drop k)) : rest.fired k = [] := by
  obtain ⟨earlier, e, later, _, _, rfl, rfl⟩ := history_split split
  change e = _ at dropped
  subst dropped
  apply history_fired_none
  cases alive : (w.after earlier).loader? k with
  | none => exact loader?_occur_none alive _
  | some l => rw [loader?_occur alive, Loader.undergo, if_pos rfl]

/-- Main statement: after any events in a world of new loaders every request is accounted for, and callbacks fire only
by dispatching. -/
theorem callbacks_conserved (runtime : Runtime) (replies : Replies) (loaders : List (Resolver × Bool))
    (events : List Event) (k : Nat) :
    Conserved k ((opened runtime replies loaders).history events) ((opened runtime replies loaders).after events) := by
  have moments : ∀ m ∈ (opened runtime replies loaders).history events, m.Answered k := by
    intro m member
    obtain ⟨earlier, e, _, _, rfl⟩ := mem_history member
    exact answered k _ e
  have accounted := accounted_history runtime replies loaders events k
  cases alive : ((opened runtime replies loaders).after events).loader? k with
  | none =>
    rw [alive] at accounted
    refine ⟨accounted.1, ?_, fun lives => absurd alive lives, ?_, moments, fun _ _ _ => silent_after_drop⟩
    · simpa [pendingAt, alive] using accounted.2
    · intro l lives
      rw [alive] at lives
      cases lives
  | some l =>
    rw [alive] at accounted
    refine ⟨accounted.issued_nodup, ?_, fun _ => accounted.stayed, ?_, moments, fun _ _ _ => silent_after_drop⟩
    · rw [pendingAt_eq alive, accounted.stayed, List.append_nil]
      exact accounted.callbacks
    · intro other lives
      have size := accounted.callbacks.length_eq
      rw [alive] at lives
      cases lives
      simp only [List.length_append, List.length_map] at size
      omega

end World

end ColorResolution
