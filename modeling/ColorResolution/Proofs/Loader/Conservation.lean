import Mathlib.Data.List.Induction
import ColorResolution.Proofs.Loader.History

/-!
# Callbacks are neither lost nor doubled

A request ends up in one place: it is pending, its callback has fired once, it was cancelled, or it went with its
loader. The invariant below ties the history of a loader to its state. It speaks of the completions that were sent as
well: were there two of one request, its task might be taken for unfinished after its callback has fired.
-/
namespace ColorResolution

namespace Loader

/-- What a living loader and its history have in common. -/
structure Kept (k : Nat) (h : History) (l : Loader) : Prop where
  numbered : h.issued k = List.range l.nextId
  callbacks : (h.issued k).Perm (l.pending ++ (h.fired k).map Completion.id ++ h.cancelled k)
  tasks : (h.issued k).Perm (l.unfinished ++ (h.sent k).map Completion.id)
  completions : ∃ taken, h.sent k = taken ++ l.queue ∧ ∀ c ∈ taken, c.id ∉ l.pending
  waiting : ∀ id ∈ l.unfinished, id ∈ l.pending
  stayed : h.discarded k = []

namespace Kept

variable {k : Nat} {h : History} {l next : Loader} {m : Moment}

theorem fresh (resolver : Resolver) (cached : Bool) : Kept k [] (Loader.fresh resolver cached) where
  numbered := rfl
  callbacks := .refl _
  tasks := .refl _
  completions := ⟨[], rfl, by simp⟩
  waiting := fun _ task => task
  stayed := rfl

theorem issued_nodup (kept : Kept k h l) : (h.issued k).Nodup := by
  rw [kept.numbered]
  exact List.nodup_range

theorem pending_nodup (kept : Kept k h l) : l.pending.Nodup := by
  have parts := kept.callbacks.nodup_iff.mp kept.issued_nodup
  rw [List.append_assoc] at parts
  exact (List.nodup_append.mp parts).1

theorem tasks_nodup (kept : Kept k h l) : (l.unfinished ++ (h.sent k).map Completion.id).Nodup :=
  kept.tasks.nodup_iff.mp kept.issued_nodup

theorem unfinished_nodup (kept : Kept k h l) : l.unfinished.Nodup := (List.nodup_append.mp kept.tasks_nodup).1

/-! ### One moment keeps the invariant -/

theorem next_numbered (kept : Kept k h l) (change : Change l (m.effect k) next) :
    History.issued k (h ++ [m]) = List.range next.nextId := by
  rw [change.numbered, ← kept.numbered]
  exact History.issued_concat k h m

theorem next_callbacks (kept : Kept k h l) (change : Change l (m.effect k) next) :
    (History.issued k (h ++ [m])).Perm
      (next.pending ++ (History.fired k (h ++ [m])).map Completion.id ++ History.cancelled k (h ++ [m])) := by
  rw [List.perm_iff_count]
  intro id
  have before := kept.callbacks.count_eq id
  have step := change.callbacks.count_eq id
  simp only [List.count_append, Moment.effect] at before step
  simp only [History.issued_concat, History.fired_concat, History.cancelled_concat, List.map_append, List.count_append]
  omega

theorem next_tasks (kept : Kept k h l) (change : Change l (m.effect k) next) :
    (History.issued k (h ++ [m])).Perm (next.unfinished ++ (History.sent k (h ++ [m])).map Completion.id) := by
  rw [List.perm_iff_count]
  intro id
  have before := kept.tasks.count_eq id
  have step := change.tasks.count_eq id
  simp only [List.count_append, Moment.effect] at before step
  simp only [History.issued_concat, History.sent_concat, List.map_append, List.count_append]
  omega

/-- A request is not issued again, so one whose completion has been sent does not become pending. -/
theorem pending_before (kept : Kept k h l) (change : Change l (m.effect k) next) {c : Completion} (sent : c ∈ h.sent k)
    (pendingNext : c.id ∈ next.pending) : c.id ∈ l.pending := by
  have origin : c.id ∈ l.pending ++ (m.effect k).issued := by
    rw [change.callbacks.mem_iff, List.append_assoc]
    exact List.mem_append_left _ pendingNext
  rcases List.mem_append.mp origin with pendingBefore | issuedNow
  · exact pendingBefore
  · -- a number that was given out before is below the next one, so it is not given out now
    have issuedBefore := kept.tasks.mem_iff.mpr (List.mem_append_right _ (List.mem_map_of_mem sent))
    have distinct : (List.range l.nextId ++ (m.effect k).issued).Nodup := by
      rw [← change.numbered]
      exact List.nodup_range
    rw [kept.numbered] at issuedBefore
    exact absurd rfl ((List.nodup_append.mp distinct).2.2 c.id issuedBefore c.id issuedNow)

theorem next_completions (kept : Kept k h l) (change : Change l (m.effect k) next) :
    ∃ taken, History.sent k (h ++ [m]) = taken ++ next.queue ∧ ∀ c ∈ taken, c.id ∉ next.pending := by
  obtain ⟨gone, sentSplit, goneStale⟩ := kept.completions
  obtain ⟨taken, queueSplit, _, _, takenStale⟩ := change.completions
  refine ⟨gone ++ taken, ?_, ?_⟩
  · rw [History.sent_concat, sentSplit, List.append_assoc, List.append_assoc]
    exact congrArg (gone ++ ·) queueSplit
  intro c belongs pendingNext
  rcases List.mem_append.mp belongs with old | new
  · have sent : c ∈ h.sent k := sentSplit ▸ List.mem_append_left _ old
    exact goneStale c old (kept.pending_before change sent pendingNext)
  · exact takenStale c new pendingNext

/-- What fires has been sent, and no task that was sent for is unfinished. -/
theorem fired_sent (kept : Kept k h l) (change : Change l (m.effect k) next) {c : Completion}
    (fired : c ∈ (m.effect k).fired) : c ∈ History.sent k (h ++ [m]) := by
  obtain ⟨gone, sentSplit, _⟩ := kept.completions
  obtain ⟨taken, queueSplit, _, firedTaken, _⟩ := change.completions
  have inSplit : c ∈ l.queue ++ (m.effect k).sent := by
    rw [queueSplit]
    exact List.mem_append_left _ (firedTaken.subset fired)
  rw [History.sent_concat, sentSplit, List.append_assoc]
  exact List.mem_append_right _ inSplit

theorem next_waiting (kept : Kept k h l) (change : Change l (m.effect k) next) :
    ∀ id ∈ next.unfinished, id ∈ next.pending := by
  intro id task
  have single : (next.unfinished ++ (History.sent k (h ++ [m])).map Completion.id).Nodup := by
    rw [← (kept.next_tasks change).nodup_iff, kept.next_numbered change]
    exact List.nodup_range
  have requested : id ∈ l.pending ++ (m.effect k).issued := by
    rcases List.mem_append.mp (change.tasks.mem_iff.mpr (List.mem_append_left _ task)) with before | issuedNow
    · exact List.mem_append_left _ (kept.waiting id before)
    · exact List.mem_append_right _ issuedNow
  rw [change.callbacks.mem_iff, List.mem_append, List.mem_append] at requested
  rcases requested with (pendingNext | fired) | cancelled
  · exact pendingNext
  · obtain ⟨c, firedNow, rfl⟩ := List.mem_map.mp fired
    have sent := List.mem_map_of_mem (f := Completion.id) (kept.fired_sent change firedNow)
    exact absurd rfl ((List.nodup_append.mp single).2.2 c.id task c.id sent)
  · exact absurd task (change.aborted id cancelled)

theorem concat (kept : Kept k h l) (change : Change l (m.effect k) next) (stays : m.discarded k = []) :
    Kept k (h ++ [m]) next where
  numbered := kept.next_numbered change
  callbacks := kept.next_callbacks change
  tasks := kept.next_tasks change
  completions := kept.next_completions change
  waiting := kept.next_waiting change
  stayed := by rw [History.discarded_concat, kept.stayed, stays, List.append_nil]

end Kept

/-- The invariant of a place in a world: a dropped loader's pending requests have been discarded. -/
def Accounted (k : Nat) (h : History) : Option Loader → Prop
  | some l => Kept k h l
  | none => (h.issued k).Nodup ∧ (h.issued k).Perm ((h.fired k).map Completion.id ++ h.cancelled k ++ h.discarded k)

end Loader

namespace World

open Loader

variable {k : Nat}

theorem opened_loader? (runtime : Runtime) (replies : Replies) (loaders : List (Resolver × Bool)) (k : Nat) :
    (opened runtime replies loaders).loader? k =
      (loaders[k]?).map fun (resolver, cached) => Loader.fresh resolver cached := by
  rw [opened, loader?_mk, List.getElem?_map]
  cases loaders[k]? <;> rfl

/-- One event keeps the invariant. -/
theorem accounted_occur {w : World} {h : History} (e : Event) (before : Accounted k h (w.loader? k)) :
    Accounted k (h ++ [.of w e]) ((w.occur e).1.loader? k) := by
  cases alive : w.loader? k with
  | none =>
    obtain ⟨issued, fired, cancelled, discarded⟩ := Moment.effect_none e alive
    rw [alive] at before
    rw [loader?_occur_none alive]
    simpa [Accounted, issued, fired, cancelled, discarded] using before
  | some l =>
    rw [alive] at before
    cases lives : (w.occur e).1.loader? k with
    | some next =>
      have change := Moment.change e alive lives before.pending_nodup before.unfinished_nodup
      refine before.concat change ?_
      have other : e ≠ .step (.drop k) := by
        rintro rfl
        rw [loader?_occur alive, Loader.undergo, if_pos rfl] at lives
        cases lives
      simp [Moment.discarded, Moment.of, other]
    | none =>
      obtain rfl := Moment.eq_drop alive lives
      obtain ⟨issued, fired, cancelled, discarded⟩ := Moment.drop_effect alive
      have conserved := before.callbacks
      rw [List.append_assoc] at conserved
      refine ⟨by simpa [issued] using before.issued_nodup, ?_⟩
      simpa [issued, fired, cancelled, discarded, before.stayed] using conserved.trans List.perm_append_comm

/-- The invariant holds after any events in a world of new loaders. -/
theorem accounted_history (runtime : Runtime) (replies : Replies) (loaders : List (Resolver × Bool))
    (events : List Event) (k : Nat) :
    Accounted k ((opened runtime replies loaders).history events)
      (((opened runtime replies loaders).after events).loader? k) := by
  induction events using List.reverseRecOn with
  | nil =>
    change Accounted k [] ((opened runtime replies loaders).loader? k)
    rw [opened_loader?]
    cases loaders[k]? with
    | none => exact ⟨.nil, .refl _⟩
    | some entry => exact Kept.fresh entry.1 entry.2
  | append_singleton events e ih =>
    rw [history_concat, after_append]
    exact accounted_occur e ih

theorem kept_history {runtime : Runtime} {replies : Replies} {loaders : List (Resolver × Bool)} {events : List Event}
    {l : Loader} (alive : ((opened runtime replies loaders).after events).loader? k = some l) :
    Kept k ((opened runtime replies loaders).history events) l := by
  have accounted := accounted_history runtime replies loaders events k
  rwa [alive] at accounted

/-- What a new loader has, and what every event keeps for the loader in a place, the loader there has after any events. -/
theorem holds_while_alive {runtime : Runtime} {replies : Replies} {loaders : List (Resolver × Bool)}
    {p : List Event → Loader → Prop}
    (fresh : ∀ resolver cached, loaders[k]? = some (resolver, cached) → p [] (.fresh resolver cached))
    (kept : ∀ events e before after, ((opened runtime replies loaders).after events).loader? k = some before →
      (((opened runtime replies loaders).after events).occur e).1.loader? k = some after → p events before →
        p (events ++ [e]) after)
    (events : List Event) {l : Loader} (alive : ((opened runtime replies loaders).after events).loader? k = some l) :
    p events l := by
  induction events using List.reverseRecOn generalizing l with
  | nil =>
    change (opened runtime replies loaders).loader? k = some l at alive
    rw [opened_loader?] at alive
    obtain ⟨⟨resolver, cached⟩, here, rfl⟩ := Option.map_eq_some_iff.mp alive
    exact fresh resolver cached here
  | append_singleton events e ih =>
    rw [after_append] at alive
    change (((opened runtime replies loaders).after events).occur e).1.loader? k = some l at alive
    cases before : ((opened runtime replies loaders).after events).loader? k with
    | none =>
      rw [loader?_occur_none before] at alive
      cases alive
    | some first => exact kept events e first l before alive (ih before)

end World

end ColorResolution
