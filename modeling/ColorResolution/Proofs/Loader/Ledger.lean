import ColorResolution.Proofs.Loader.Cancellation

/-!
# The order of the callbacks

A loader's queue is a queue: completions are sent to its end and taken from its front. Main statement: after any events
the completions that were sent, those left out that have been cancelled, are in this order those that have fired and
those that are left; a living loader owes them, and a dropped one never fires them.
-/
namespace ColorResolution

namespace History

variable (k : Nat) (h later : History)

theorem issued_append : issued k (h ++ later) = h.issued k ++ later.issued k := List.flatMap_append

theorem fired_append : fired k (h ++ later) = h.fired k ++ later.fired k := List.flatMap_append

theorem cancelled_append : cancelled k (h ++ later) = h.cancelled k ++ later.cancelled k := List.flatMap_append

theorem sent_append : sent k (h ++ later) = h.sent k ++ later.sent k := List.flatMap_append

end History

theorem Moment.sent_of_none {k : Nat} {m : Moment} (none : m.before.loader? k = none) : m.sent k = [] := by
  simp only [sent, none]

theorem Moment.sent_of_gone {k : Nat} {m : Moment} (gone : m.after.loader? k = none) : m.sent k = [] := by
  unfold sent
  rw [gone]
  cases m.before.loader? k <;> rfl

namespace Loader

/-- The queued completions whose callbacks are still to fire. -/
def owed (l : Loader) : List Completion := l.queue.filter fun c => c.id ∈ l.pending

/-- What fired has been taken from the front of all that was sent. -/
def InSequence (k : Nat) (h : History) (l : Loader) : Prop :=
  ∃ taken, h.sent k = taken ++ l.queue ∧ (h.fired k).Sublist taken

theorem InSequence.concat {k : Nat} {h : History} {l next : Loader} {m : Moment} (inSequence : InSequence k h l)
    (change : Change l (m.effect k) next) : InSequence k (h ++ [m]) next := by
  obtain ⟨gone, sent, fired⟩ := inSequence
  obtain ⟨taken, queue, _, firedNow, _⟩ := change.completions
  refine ⟨gone ++ taken, ?_, ?_⟩
  · rw [History.sent_concat, sent, List.append_assoc, List.append_assoc]
    exact congrArg (gone ++ ·) queue
  · rw [History.fired_concat]
    exact fired.append firedNow

/-- A part of a list with distinct keys is what its keys pick out. -/
theorem filter_of_sublist {fired taken : List Completion} (part : fired.Sublist taken)
    (single : (taken.map Completion.id).Nodup) : (taken.filter fun c => c.id ∈ fired.map Completion.id) = fired := by
  induction part with
  | slnil => rfl
  | @cons fired taken c part ih =>
    obtain ⟨fresh, others⟩ := List.nodup_cons.mp single
    have absent : c.id ∉ fired.map Completion.id := fun member => fresh ((part.map Completion.id).subset member)
    rw [List.filter_cons_of_neg (by simpa using absent), ih others]
  | @cons_cons fired taken c part ih =>
    obtain ⟨fresh, others⟩ := List.nodup_cons.mp single
    have same : (taken.filter fun d => d.id ∈ (c :: fired).map Completion.id) =
        taken.filter fun d => d.id ∈ fired.map Completion.id := by
      refine List.filter_congr fun d member => ?_
      have other : d.id ≠ c.id := fun same => fresh (same ▸ List.mem_map_of_mem member)
      simp [other]
    rw [List.filter_cons_of_pos (by simp), same, ih others]

namespace Kept

variable {k : Nat} {h : History} {l : Loader}

/-- What was sent and not cancelled has fired, or is owed. -/
theorem fired_append_owed (kept : Kept k h l) (inSequence : InSequence k h l) :
    h.fired k ++ l.owed = (h.sent k).filter fun c => c.id ∉ h.cancelled k := by
  obtain ⟨taken, sent, fired⟩ := inSequence
  obtain ⟨gone, sent', stale⟩ := kept.completions
  obtain rfl : gone = taken := List.append_cancel_right (sent'.symm.trans sent)
  have single : ((gone ++ l.queue).map Completion.id).Nodup := sent ▸ (List.nodup_append.mp kept.tasks_nodup).2.1
  rw [List.map_append] at single
  obtain ⟨goneSingle, _, apart⟩ := List.nodup_append.mp single
  have places {c : Completion} (member : c ∈ h.sent k) :
      c.id ∉ h.cancelled k ↔ c.id ∈ l.pending ∨ c.id ∈ (h.fired k).map Completion.id := by
    have issued : c.id ∈ h.issued k := kept.tasks.mem_iff.mpr (List.mem_append_right _ (List.mem_map_of_mem member))
    have pending := kept.pending_iff issued
    have accounted : Accounted k h (some l) := kept
    have apart : c.id ∈ h.cancelled k → c.id ∉ (h.fired k).map Completion.id := accounted.unfired_of_cancelled
    tauto
  have front : (gone.filter fun c => c.id ∉ h.cancelled k) = h.fired k := by
    refine (List.filter_congr fun c member => ?_).trans (filter_of_sublist fired goneSingle)
    simp only [decide_eq_decide]
    rw [places (sent ▸ List.mem_append_left _ member), or_iff_right (stale c member)]
  have back : (l.queue.filter fun c => c.id ∉ h.cancelled k) = l.owed := by
    refine List.filter_congr fun c member => ?_
    have unfired : c.id ∉ (h.fired k).map Completion.id := fun already =>
      apart c.id ((fired.map Completion.id).subset already) c.id (List.mem_map_of_mem member) rfl
    simp only [decide_eq_decide]
    rw [places (sent ▸ List.mem_append_right _ member), or_iff_left unfired]
  rw [sent, List.filter_append, front, back]

end Kept

/-- The completions of a place in a world: those that were sent and not cancelled have fired or are left, a living loader
owing them. -/
def Ledger (k : Nat) (h : History) (entry : Option Loader) : Prop :=
  ∃ left, h.fired k ++ left = (h.sent k).filter (fun c => c.id ∉ h.cancelled k) ∧ ∀ l, entry = some l → left = l.owed

end Loader

namespace World

open Loader

variable {k : Nat}

theorem inSequence_history {runtime : Runtime} {replies : Replies} {loaders : List (Resolver × Bool)}
    {events : List Event} {l : Loader} (alive : ((opened runtime replies loaders).after events).loader? k = some l) :
    InSequence k ((opened runtime replies loaders).history events) l := by
  refine holds_while_alive (p := fun events l => InSequence k ((opened runtime replies loaders).history events) l)
    (fun _ _ _ => ⟨[], rfl, .slnil⟩) ?_ events alive
  intro events e l next before after inSequence
  have kept := kept_history before
  rw [history_concat]
  exact inSequence.concat (Moment.change e before after kept.pending_nodup kept.unfinished_nodup)

theorem ledger_of_alive {runtime : Runtime} {replies : Replies} {loaders : List (Resolver × Bool)} {events : List Event}
    {l : Loader} (alive : ((opened runtime replies loaders).after events).loader? k = some l) :
    ((opened runtime replies loaders).history events).fired k ++ l.owed =
      (((opened runtime replies loaders).history events).sent k).filter
        fun c => c.id ∉ ((opened runtime replies loaders).history events).cancelled k :=
  (kept_history alive).fired_append_owed (inSequence_history alive)

/-- Main statement: the completions of a place after any events. -/
theorem ledger_history (runtime : Runtime) (replies : Replies) (loaders : List (Resolver × Bool)) (events : List Event)
    (k : Nat) :
    Ledger k ((opened runtime replies loaders).history events)
      (((opened runtime replies loaders).after events).loader? k) := by
  cases lives : ((opened runtime replies loaders).after events).loader? k with
  | some l =>
    refine ⟨l.owed, ledger_of_alive lives, ?_⟩
    rintro _ ⟨⟩
    rfl
  | none =>
    -- the completions of a dropped loader are those it had when it was dropped
    refine Exists.imp (fun _ balanced => ⟨balanced, by rintro _ ⟨⟩⟩) ?_
    induction events using List.reverseRecOn with
    | nil => exact ⟨[], rfl⟩
    | append_singleton events e ih =>
      rw [after_append] at lives
      change (((opened runtime replies loaders).after events).occur e).1.loader? k = none at lives
      rw [history_concat, History.fired_concat, History.sent_concat, History.cancelled_concat,
        Moment.sent_of_gone (m := .of _ e) lives, List.append_nil]
      cases alive : ((opened runtime replies loaders).after events).loader? k with
      | none =>
        obtain ⟨_, fired, cancelled, _⟩ := Moment.effect_none e alive
        rw [fired, cancelled, List.append_nil, List.append_nil]
        exact ih alive
      | some l =>
        obtain rfl := Moment.eq_drop alive lives
        obtain ⟨_, fired, cancelled, _⟩ := Moment.drop_effect alive
        rw [fired, cancelled, List.append_nil, List.append_nil]
        exact ⟨l.owed, ledger_of_alive alive⟩

end World

end ColorResolution
