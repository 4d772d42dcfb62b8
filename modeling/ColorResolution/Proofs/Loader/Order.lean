import ColorResolution.Proofs.Loader.Callbacks

/-!
# The order of callbacks

While no reply stands behind a gate, every request has its completion in the queue as soon as it is made, so the wanted
completions stand in the order of the pending requests. Dispatching takes them from the front of both, and a
cancellation leaves the others in their order. Main statement: the callbacks fire in the order of the requests, and of
those that have not fired each is pending, was cancelled or went with its loader.
-/
namespace ColorResolution

/-- No URL's reply stands behind a gate. -/
def Replies.Ungated (replies : Replies) : Prop := replies.All fun _ reply => reply.gated = false

/-- An event that puts no reply behind a gate. -/
def Event.Ungated (e : Event) : Prop := e.Brings fun _ reply => reply.gated = false

namespace Loader

/-! ## Wanted completions in a row -/

/-- The wanted completions stand in the order of the pending requests. -/
def InRow (pending : List Nat) (queue : List Completion) : Prop :=
  (queue.map Completion.id).filter (· ∈ pending) = pending

/-- A pass over the front of the queue fires a front part of the pending requests, and what is left stands in a row. -/
theorem InRow.fireQueued {pending : List Nat} {taken rest : List Completion} (row : InRow pending (taken ++ rest))
    (distinct : pending.Nodup) :
    (fireQueued pending taken).1.map Completion.id ++ (fireQueued pending taken).2 = pending ∧
      InRow (fireQueued pending taken).2 rest := by
  induction taken generalizing pending with
  | nil => exact ⟨rfl, row⟩
  | cons c taken ih =>
    by_cases wanted : c.id ∈ pending
    · obtain ⟨others, rfl⟩ : ∃ others, pending = c.id :: others := by
        rw [InRow, List.cons_append, List.map_cons, List.filter_cons_of_pos (by simpa using wanted)] at row
        exact ⟨_, row.symm⟩
      obtain ⟨single, distinct⟩ := List.nodup_cons.mp distinct
      rw [InRow, List.cons_append, List.map_cons, List.filter_cons_of_pos (by simp), List.cons.injEq] at row
      -- the completion that fires is the only one of its request, so the others are wanted as before
      have behind : c.id ∉ (taken ++ rest).map Completion.id := by
        intro again
        apply single
        rw [← row.2]
        exact List.mem_filter.mpr ⟨again, by simp⟩
      have left : InRow others (taken ++ rest) := by
        refine .trans (List.filter_congr fun id member => ?_) row.2
        have other : id ≠ c.id := fun same => behind (same ▸ member)
        simp [other]
      obtain ⟨fires, stays⟩ := ih left distinct
      rw [fireQueued_wanted wanted, List.erase_cons_head]
      exact ⟨by simpa using fires, stays⟩
    · rw [fireQueued_stale wanted]
      rw [InRow, List.cons_append, List.map_cons, List.filter_cons_of_neg (by simpa using wanted)] at row
      exact ih row distinct

theorem InRow.concat {pending : List Nat} {queue : List Completion} {c : Completion} (row : InRow pending queue)
    (unsent : c.id ∉ queue.map Completion.id) : InRow (pending ++ [c.id]) (queue ++ [c]) := by
  have others : ∀ id ∈ queue.map Completion.id, decide (id ∈ pending ++ [c.id]) = decide (id ∈ pending) := by
    intro id member
    have other : id ≠ c.id := fun same => unsent (same ▸ member)
    simp [other]
  rw [InRow, List.map_append, List.filter_append, List.filter_congr others, row]
  simp

theorem InRow.erase {pending : List Nat} {queue : List Completion} (row : InRow pending queue)
    (distinct : pending.Nodup) (id : Nat) : InRow (pending.erase id) queue := by
  have both (other : Nat) : decide (other ∈ pending.erase id) = ((other != id) && decide (other ∈ pending)) := by
    rw [Bool.eq_iff_iff]
    simp [distinct.mem_erase_iff]
  simp only [InRow, both]
  rw [← List.filter_filter, row, distinct.erase_eq_filter]

/-! ## One event -/

/-- What an event does to the requests of a loader without waiting tasks: the numbers given out, the completions fired,
the requests cancelled, and the loader afterwards. -/
inductive Advances (l : Loader) : List Nat → List Completion → List Nat → Loader → Prop
  | requests {next : Loader} (result : Except ColorError Color) : next.waiting = [] →
    next.pending = l.pending ++ [l.nextId] → next.queue = l.queue ++ [⟨l.nextId, result⟩] →
    Advances l [l.nextId] [] [] next
  | cancels {next : Loader} {id : Nat} : id ∈ l.pending → next.waiting = [] → next.pending = l.pending.erase id →
    next.queue = l.queue → Advances l [] [] [id] next
  | dispatches {next : Loader} {fired : List Completion} : Dispatched l fired next → next.waiting = [] →
    Advances l [] fired [] next
  | rests {next : Loader} : next.waiting = [] → next.pending = l.pending → next.queue = l.queue →
    Advances l [] [] [] next

theorem Advances.quiet {l : Loader} (idle : l.waiting = []) (cache : Option Cache) :
    Advances l [] [] [] { l with cache := cache } :=
  .rests idle rfl rfl

theorem act_advances {env : Environment} (self : Nat) {l : Loader} (action : Action) (idle : l.waiting = [])
    (ungated : env.replies.Ungated) :
    Advances l (action.issued (l.act env self action).2.outcome) (l.act env self action).2.fired
      (action.cancelled (l.act env self action).2.outcome) (l.act env self action).1 := by
  by_cases dispatches : action.Dispatches
  · have dispatched := act_dispatched env self l dispatches
    have frame : (l.act env self action).1.waiting = [] := by
      obtain ⟨_, _, _, frame⟩ := dispatched
      rw [frame]
      exact idle
    rcases dispatches with rfl | rfl | rfl <;> exact .dispatches dispatched frame
  · rw [act_silent env self l dispatches]
    cases action with
    | request url =>
      rcases request_cases env url l with ⟨cache, result, ended⟩ | ⟨_, gated, _⟩
      · refine .requests result ?_ ?_ ?_ <;> simp [act, ended, idle]
      · rw [ungated url] at gated
        cases gated
    | cancel handle =>
      by_cases own : handle.loader = self
      · by_cases member : handle.id ∈ l.pending
        · simp only [act, if_pos own, cancel, if_pos member, idle, List.filter_nil, List.any_nil, Bool.false_eq_true,
            if_false]
          exact .cancels member rfl rfl rfl
        · simp only [act, if_pos own, cancel_foreign member]
          exact .quiet idle l.cache
      · simp only [act, if_neg own]
        exact .quiet idle l.cache
    | _ =>
      obtain ⟨cache, frame⟩ := act_quiet env self l (by simp) (by simp) dispatches
      rw [frame]
      exact .quiet idle cache

theorem settleWhere_advances {l : Loader} (p : Waiting → Bool) (idle : l.waiting = []) :
    Advances l [] [] [] (l.settleWhere p) := by
  obtain ⟨cache, next⟩ := settleWhere_eq p l
  rw [next]
  refine .rests ?_ rfl ?_ <;> simp [idle]

theorem abortAll_advances {l : Loader} (turn : Nat → Nat) (idle : l.waiting = []) :
    Advances l [] [] [] (l.abortAll turn) := by
  refine .rests rfl rfl ?_
  simp [abortAll, idle, inTurn]

theorem moment_advances {w : World} {k : Nat} {l next : Loader} (e : Event) (alive : w.loader? k = some l)
    (lives : (w.occur e).1.loader? k = some next) (idle : l.waiting = []) (ungated : w.replies.Ungated) :
    Advances l ((Moment.of w e).issued k) ((Moment.of w e).fired k) ((Moment.of w e).cancelled k) next := by
  have other (none : e.action? k = none) (rests : Advances l [] [] [] next) :
      Advances l ((Moment.of w e).issued k) ((Moment.of w e).fired k) ((Moment.of w e).cancelled k) next := by
    simpa only [Moment.of, Moment.issued, Moment.fired, Moment.cancelled, none, Option.elim] using rests
  have becomes := (World.loader?_occur alive e).symm.trans lives
  cases undergoes_of_undergo becomes with
  | acts action =>
    simp only [Moment.of, Moment.issued, Moment.fired, Moment.cancelled, Event.action?, if_true, Option.elim,
      World.occur_report alive action]
    exact act_advances k action idle ungated
  | releases url => exact other rfl (settleWhere_advances _ idle)
  | ends id => exact other rfl (settleWhere_advances _ idle)
  | aborts turn => exact other rfl (abortAll_advances turn idle)
  | replies url reply => exact other rfl (.quiet idle l.cache)
  | otherActs action different => exact other (by simp [Event.action?, different]) (.quiet idle l.cache)
  | otherEnds id different => exact other rfl (.quiet idle l.cache)
  | otherDropped different => exact other rfl (.quiet idle l.cache)

/-! ## Every history -/

/-- What a living loader and its history have in common while no reply stands behind a gate. -/
structure Lined (k : Nat) (h : History) (l : Loader) : Prop where
  idle : l.waiting = []
  row : InRow l.pending l.queue
  line : (h.fired k).map Completion.id ++ l.pending = (h.issued k).filter (· ∉ h.cancelled k)

namespace Lined

variable {k : Nat} {h : History} {l next : Loader} {m : Moment}

theorem concat (lined : Lined k h l) (kept : Kept k h l)
    (advances : Advances l (m.issued k) (m.fired k) (m.cancelled k) next) : Lined k (h ++ [m]) next := by
  generalize issuedNow : m.issued k = issued at advances
  generalize firedNow : m.fired k = fired at advances
  generalize cancelledNow : m.cancelled k = cancelled at advances
  have unissued : l.nextId ∉ h.issued k := by simp [kept.numbered]
  have parted : ∀ id, id ∈ h.issued k ↔ _ := fun id => kept.callbacks.mem_iff
  have distinct := kept.callbacks.nodup_iff.mp kept.issued_nodup
  refine ⟨by cases advances <;> assumption, ?_, ?_⟩
  · cases advances with
    | requests result _ pending queue =>
      rw [pending, queue]
      refine lined.row.concat (c := ⟨l.nextId, result⟩) fun sent => unissued ?_
      obtain ⟨taken, split, _⟩ := kept.completions
      rw [kept.tasks.mem_iff, split, List.map_append]
      exact List.mem_append_right _ (List.mem_append_right _ sent)
    | @cancels _ id member _ pending queue =>
      rw [pending, queue]
      exact lined.row.erase kept.pending_nodup id
    | dispatches dispatched _ =>
      obtain ⟨taken, split, pass, _⟩ := dispatched
      have row := lined.row
      rw [split] at row
      have left := (row.fireQueued kept.pending_nodup).2
      rwa [pass] at left
    | rests _ pending queue =>
      rw [pending, queue]
      exact lined.row
  · rw [History.fired_concat, History.issued_concat, History.cancelled_concat, issuedNow, firedNow, cancelledNow]
    cases advances with
    | requests result _ pending queue =>
      have wanted : l.nextId ∉ h.cancelled k := fun cancelled =>
        unissued ((parted l.nextId).mpr (List.mem_append_right _ cancelled))
      rw [pending, List.append_nil, List.append_nil, List.filter_append, ← lined.line, List.append_assoc]
      simp [wanted]
    | @cancels _ id member _ pending queue =>
      have unfired : id ∉ (h.fired k).map Completion.id :=
        fun fired => (List.nodup_append.mp (List.nodup_append.mp distinct).1).2.2 id member id fired rfl
      have both (other : Nat) : decide (other ∉ h.cancelled k ++ [id]) =
          ((other != id) && decide (other ∉ h.cancelled k)) := by
        rw [Bool.eq_iff_iff]
        simp [and_comm]
      have others : ((h.fired k).map Completion.id).filter (· != id) = (h.fired k).map Completion.id :=
        List.filter_eq_self.mpr fun other fired => bne_iff_ne.mpr fun same => unfired (same ▸ fired)
      simp only [both, List.append_nil]
      rw [← List.filter_filter, ← lined.line, List.filter_append, others, pending, kept.pending_nodup.erase_eq_filter]
    | dispatches dispatched _ =>
      obtain ⟨taken, split, pass, _⟩ := dispatched
      have row := lined.row
      rw [split] at row
      have fires := (row.fireQueued kept.pending_nodup).1
      rw [pass] at fires
      rw [List.append_nil, List.append_nil, ← lined.line, List.map_append, List.append_assoc, fires]
    | rests _ pending queue =>
      rw [pending, List.append_nil, List.append_nil, List.append_nil, lined.line]

end Lined

/-- The order at a place in a world: a dropped loader's pending requests were the last ones. -/
def Ordered (k : Nat) (h : History) : Option Loader → Prop
  | some l => Lined k h l
  | none => (h.fired k).map Completion.id ++ h.discarded k = (h.issued k).filter (· ∉ h.cancelled k)

end Loader

namespace World

open Loader

variable {k : Nat}

theorem ordered_occur {w : World} {h : History} (e : Event) (ungated : w.replies.Ungated)
    (accounted : Accounted k h (w.loader? k)) (before : Ordered k h (w.loader? k)) :
    Ordered k (h ++ [.of w e]) ((w.occur e).1.loader? k) := by
  cases alive : w.loader? k with
  | none =>
    obtain ⟨issued, fired, cancelled, discarded⟩ := Moment.effect_none e alive
    rw [alive] at before
    rw [loader?_occur_none alive]
    simpa [Ordered, issued, fired, cancelled, discarded] using before
  | some l =>
    rw [alive] at before accounted
    cases lives : (w.occur e).1.loader? k with
    | some next => exact before.concat accounted (moment_advances e alive lives before.idle ungated)
    | none =>
      obtain rfl := Moment.eq_drop alive lives
      obtain ⟨issued, fired, cancelled, discarded⟩ := Moment.drop_effect alive
      have stayed := accounted.stayed
      simpa [Ordered, issued, fired, cancelled, discarded, stayed] using before.line

theorem ordered_history (runtime : Runtime) (replies : Replies) (loaders : List (Resolver × Bool)) (events : List Event)
    (k : Nat) (ungated : replies.Ungated) (stay : ∀ e ∈ events, e.Ungated) :
    Ordered k ((opened runtime replies loaders).history events)
      (((opened runtime replies loaders).after events).loader? k) := by
  induction events using List.reverseRecOn with
  | nil =>
    change Ordered k [] ((opened runtime replies loaders).loader? k)
    rw [opened_loader?]
    cases loaders[k]? with
    | none => rfl
    | some entry => exact ⟨rfl, rfl, rfl⟩
  | append_singleton events e ih =>
    have earlier : ∀ e ∈ events, e.Ungated := fun e member => stay e (List.mem_append_left _ member)
    have atOnce : ((opened runtime replies loaders).after events).replies.Ungated := all_after ungated earlier
    rw [history_concat, after_append]
    exact ordered_occur e atOnce (accounted_history runtime replies loaders events k) (ih earlier)

/-- Main statement: without gates the callbacks have fired in the order of the requests; of the requests that were not
cancelled the last ones are pending, or have gone with their loader. -/
theorem fired_inOrder (runtime : Runtime) (replies : Replies) (loaders : List (Resolver × Bool)) (events : List Event)
    (k : Nat) (ungated : replies.Ungated) (stay : ∀ e ∈ events, e.Ungated) :
    let h := (opened runtime replies loaders).history events
    (h.fired k).map Completion.id ++ ((opened runtime replies loaders).after events).pendingAt k ++ h.discarded k =
      (h.issued k).filter (· ∉ h.cancelled k) := by
  intro h
  have accounted := accounted_history runtime replies loaders events k
  have ordered := ordered_history runtime replies loaders events k ungated stay
  cases alive : ((opened runtime replies loaders).after events).loader? k with
  | none =>
    rw [alive] at ordered
    rw [pendingAt, alive, Option.elim_none, List.append_nil]
    exact ordered
  | some l =>
    rw [alive] at ordered accounted
    rw [pendingAt_eq alive, accounted.stayed, List.append_nil]
    exact ordered.line

end World

end ColorResolution
