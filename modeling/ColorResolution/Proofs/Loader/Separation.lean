import ColorResolution.Proofs.Loader.Renaming

/-!
# Loaders do not disturb each other

Loaders share the replies, the gates and the runtime, and nothing else. Main statement: to leave out of a history all
that is addressed to other loaders, and the cancellations of their requests, changes nothing that is observed of a
loader but this: when the runtime is shut down, it may end the loader's tasks in another order. For this order is the
runtime's own, and it may depend on the tasks of the other loaders.
-/
namespace ColorResolution

open Equiv (Perm)

/-- Whether an event concerns the loader at place `k`: it is shared by all loaders, or addressed to this one, unless to
cancel a request of another. -/
def Event.concerns (k : Nat) : Event → Bool
  | .step (.act j (.cancel handle)) => j == k && handle.loader == k
  | .step (.act j _) => j == k
  | .step (.drop j) => j == k
  | .fetchEnds j _ => j == k
  | _ => true

namespace Moment

/-- What is observed of a loader at a moment that concerns it. -/
def observed (k : Nat) (m : Moment) : List (Event × Report × Option (Nat × Option Nat)) :=
  if m.event.concerns k then [m.seen k] else []

/-- The size of a loader's cache after a moment that concerns the loader. -/
def cacheSizes (k : Nat) (m : Moment) : List (Option (Option Nat)) :=
  (m.observed k).map fun (_, _, counts) => counts.map Prod.snd

/-- The requests whose tasks the runtime has ended with itself, in its order. -/
def destroyed (k : Nat) (m : Moment) : List Nat :=
  if m.event = .step .shutdown then (m.sent k).map Completion.id else []

end Moment

namespace History

def observed (k : Nat) (h : History) : List (Event × Report × Option (Nat × Option Nat)) :=
  h.flatMap fun m => m.observed k

def cacheSizes (k : Nat) (h : History) : List (Option (Option Nat)) := h.flatMap fun m => m.cacheSizes k

def destroyed (k : Nat) (h : History) : List Nat := h.flatMap fun m => m.destroyed k

theorem cacheSizes_append (k : Nat) (h later : History) :
    cacheSizes k (h ++ later) = h.cacheSizes k ++ later.cacheSizes k := List.flatMap_append

end History

/-- The same is observed of a loader in two histories, the callbacks of the second under other numbers. -/
structure ObservedAlike (k : Nat) (π : Perm Nat) (h g : History) : Prop where
  observed : h.observed k = (g.observed k).map fun (e, report, counts) => (e, report.renamed π, counts)
  fired : h.fired k = (g.fired k).map (Completion.renamed π)
  cancelled : h.cancelled k = g.cancelled k

/-- The history `h` of all `events` compared with the history `g` of those alone that concern the loader at place `k`:
the requests whose tasks the runtime has destroyed may have changed places, and where no handle names one that has, the
same is observed up to this change. -/
structure Separate (k : Nat) (events : List Event) (π : Perm Nat) (h g : History) : Prop where
  destroyed : h.destroyed k = (g.destroyed k).map π
  others : ∀ id, id ∉ g.destroyed k → π id = id
  unmoved : h.destroyed k = g.destroyed k → π = .refl _
  aborted : ∀ c ∈ h.fired k, c.id ∈ h.destroyed k → c.result = Completion.aborted
  issued : h.issued k = g.issued k
  cacheSizes : h.cacheSizes k = g.cacheSizes k
  alike : (∀ handle, handle.loader = k → .step (.act k (.cancel handle)) ∈ events → π handle.id = handle.id) →
    ObservedAlike k π h g

/-! ## One event -/

section
variable {k : Nat} {e : Event}

theorem Environment.undergo_foreign (env : Environment) (foreign : e.concerns k = false) : env.undergo e = env := by
  cases e with
  | fetchEnds j id => rfl
  | step s =>
    cases s with
    | act j action => rfl
    | drop j => rfl
    | _ => cases foreign

theorem Loader.undergo_foreign (turn : Nat → Nat) (env : Environment) (l : Loader) (foreign : e.concerns k = false) :
    l.undergo turn env k e = some l := by
  cases e with
  | fetchEnds j id =>
    have other : j ≠ k := by simpa [Event.concerns] using foreign
    rw [undergo, if_neg other]
  | step s =>
    cases s with
    | act j action =>
      by_cases same : j = k
      · -- what is asked of the loader and does not concern it is to cancel another loader's request
        subst same
        cases action with
        | cancel handle =>
          have other : handle.loader ≠ j := by simpa [Event.concerns] using foreign
          rw [undergo, if_pos rfl, act, if_neg other]
        | _ => simp [Event.concerns] at foreign
      · rw [undergo, if_neg same]
    | drop j =>
      have other : j ≠ k := by simpa [Event.concerns] using foreign
      rw [undergo, if_neg other]
    | _ => cases foreign

end

/-- What does not concern a loader shows nothing of its requests. -/
theorem Moment.shows_nothing {k : Nat} (w : World) {e : Event} (foreign : e.concerns k = false) :
    (of w e).observed k = [] ∧ (of w e).issued k = [] ∧ (of w e).fired k = [] ∧ (of w e).cancelled k = [] := by
  have unseen : (of w e).observed k = [] := by simp [observed, of, foreign]
  refine ⟨unseen, ?_⟩
  cases asked : e.action? k with
  | none => simp [of, issued, fired, cancelled, asked]
  | some action =>
    obtain rfl := Event.action?_eq_some_iff.mp asked
    obtain ⟨handle, rfl, other⟩ : ∃ handle, action = .cancel handle ∧ handle.loader ≠ k := by
      cases action <;> simp_all [Event.concerns]
    have refused : (w.occur (.step (.act k (.cancel handle)))).2 = World.silent .noLoader ∨
        (w.occur (.step (.act k (.cancel handle)))).2 = World.silent (.flag false) := by
      rw [World.report_occur, Environment.report]
      cases w.loader? k with
      | none => exact .inl rfl
      | some l => exact .inr (by simp [Loader.act, other, World.silent])
    rcases refused with silent | silent <;>
      simp [issued, fired, cancelled, of, asked, silent, World.silent, Action.issued, Action.cancelled]

/-- Two worlds with the same environment and related loaders at place `k`, or none. -/
structure World.Agree (R : Loader → Loader → Prop) (k : Nat) (w v : World) : Prop where
  environment : w.environment = v.environment
  loader : Option.Rel R (w.loader? k) (v.loader? k)

namespace World.Agree

variable {R S : Loader → Loader → Prop} {k : Nat} {w v : World} {e : Event}

theorem loaders (agree : Agree R k w v) :
    w.loader? k = none ∧ v.loader? k = none ∨
      ∃ l m, w.loader? k = some l ∧ v.loader? k = some m ∧ R l m := by
  have related := agree.loader
  generalize w.loader? k = first at related
  generalize v.loader? k = second at related
  cases related with
  | none => exact .inl ⟨rfl, rfl⟩
  | some related => exact .inr ⟨_, _, rfl, rfl, related⟩

theorem mono (agree : Agree R k w v) (weaker : ∀ l m, R l m → S l m) : Agree S k w v where
  environment := agree.environment
  loader := by
    obtain ⟨first, second⟩ | ⟨l, m, first, second, related⟩ := agree.loaders <;> rw [first, second]
    · exact .none
    · exact .some (weaker l m related)

/-- An event that does not concern a loader may be left out. -/
theorem skip (agree : Agree R k w v) (foreign : e.concerns k = false) : Agree R k (w.occur e).1 v where
  environment := by rw [environment_occur, Environment.undergo_foreign _ foreign, agree.environment]
  loader := by
    have same : (w.occur e).1.loader? k = w.loader? k := by
      rw [loader?_occur_bind]
      cases w.loader? k with
      | none => rfl
      | some l => exact Loader.undergo_foreign (w.turn k) w.environment l foreign
    rw [same]
    exact agree.loader

/-- An event that keeps the loaders related keeps the worlds in agreement. -/
theorem occur (agree : Agree R k w v)
    (keeps : ∀ l m, v.loader? k = some m → R l m →
      Option.Rel R (l.undergo (w.turn k) v.environment k e) (m.undergo (v.turn k) v.environment k e)) :
    Agree R k (w.occur e).1 (v.occur e).1 where
  environment := by rw [environment_occur, environment_occur, agree.environment]
  loader := by
    rw [loader?_occur_bind, loader?_occur_bind, agree.environment]
    obtain ⟨first, second⟩ | ⟨l, m, first, second, related⟩ := agree.loaders <;> rw [first, second]
    · exact .none
    · exact keeps l m second related

end World.Agree

/-- A permutation that moves nothing but a list, and leaves this as it is, moves nothing. -/
theorem eq_refl_of_map {π : Perm Nat} {ids : List Nat} (others : ∀ id, id ∉ ids → π id = id) (same : ids = ids.map π) :
    π = .refl _ := by
  have fixed : ∀ id ∈ ids, id = π id := by
    refine List.map_inj_left.mp ?_
    rw [List.map_id', ← same]
  refine Equiv.ext fun id => ?_
  by_cases member : id ∈ ids
  · exact (fixed id member).symm
  · exact others id member

/-! ## Every history -/

namespace World

section
variable {k : Nat} {events : List Event} {I : World → World → Prop} {w v : World}

/-- What no foreign event and no event of the loader breaks holds after all of them and after the loader's alone. -/
theorem holds_after (related : I w v)
    (skip : ∀ w v e, I w v → e.concerns k = false → I (w.occur e).1 v)
    (keep : ∀ w v, ∀ e ∈ events, I w v → I (w.occur e).1 (v.occur e).1) :
    I (w.after events) (v.after (events.filter (Event.concerns k))) := by
  induction events generalizing w v with
  | nil => exact related
  | cons e rest ih =>
    have later : ∀ w v, ∀ e ∈ rest, I w v → I (w.occur e).1 (v.occur e).1 :=
      fun w v other member => keep w v other (List.mem_cons_of_mem e member)
    cases own : e.concerns k with
    | false =>
      rw [List.filter_cons_of_neg (by simp [own])]
      exact ih (skip w v e related own) later
    | true =>
      rw [List.filter_cons_of_pos own]
      exact ih (keep w v e (List.mem_cons_self) related) later

/-- What is read off the moments of two histories is compared moment by moment. -/
theorem read_history {α : Type} (read : Moment → List α) (f : α → α) (related : I w v)
    (skip : ∀ w v e, I w v → e.concerns k = false → I (w.occur e).1 v)
    (keep : ∀ w v, ∀ e ∈ events, I w v → I (w.occur e).1 (v.occur e).1)
    (foreign : ∀ (w : World) (e : Event), e.concerns k = false → read (.of w e) = [])
    (own : ∀ w v, ∀ e ∈ events, e.concerns k = true → I w v → read (.of w e) = (read (.of v e)).map f) :
    (w.history events).flatMap read =
      ((v.history (events.filter (Event.concerns k))).flatMap read).map f := by
  induction events generalizing w v with
  | nil => rfl
  | cons e rest ih =>
    have laterKeep : ∀ w v, ∀ e ∈ rest, I w v → I (w.occur e).1 (v.occur e).1 :=
      fun w v other member => keep w v other (List.mem_cons_of_mem e member)
    have laterOwn : ∀ w v, ∀ e ∈ rest, e.concerns k = true → I w v → read (.of w e) = (read (.of v e)).map f :=
      fun w v other member => own w v other (List.mem_cons_of_mem e member)
    cases mine : e.concerns k with
    | false =>
      rw [List.filter_cons_of_neg (by simp [mine]), history, List.flatMap_cons, foreign w e mine, List.nil_append]
      exact ih (skip w v e related mine) laterKeep laterOwn
    | true =>
      rw [List.filter_cons_of_pos mine, history, history, List.flatMap_cons, List.flatMap_cons, List.map_append,
        ih (keep w v e (List.mem_cons_self) related) laterKeep laterOwn, own w v e (List.mem_cons_self) mine related]

end

/-! ## Loaders whose requests have changed places -/

open Loader

section
variable {k : Nat} {π : Perm Nat} {w v : World} {e : Event}

theorem counts_agree (agree : Agree (Renamed π) k w v) : w.counts k = v.counts k := by
  rw [counts, counts]
  obtain ⟨first, second⟩ | ⟨l, m, first, second, renamed⟩ := agree.loaders
  · rw [first, second]
  · simp only [first, second, Option.map_some, Loader.counts, renamed.pending_length, renamed.cache]

theorem report_agree (agree : Agree (Renamed π) k w v) (own : e.concerns k = true)
    (unmoved : ∀ handle, handle.loader = k → e = .step (.act k (.cancel handle)) → π handle.id = handle.id) :
    (w.occur e).2 = (v.occur e).2.renamed π := by
  rw [report_occur, report_occur, agree.environment]
  cases e with
  | fetchEnds j id => rfl
  | step s =>
    cases s with
    | act j action =>
      obtain rfl : j = k := by cases action <;> simp_all [Event.concerns]
      rw [Environment.report, Environment.report]
      obtain ⟨first, second⟩ | ⟨l, m, first, second, renamed⟩ := agree.loaders
      · rw [first, second]
        rfl
      · rw [first, second]
        exact (renamed.act v.environment j action fun handle own asked => unmoved handle own (asked ▸ rfl)).2
    | _ => rfl

theorem occur_agree (agree : Agree (Renamed π) k w v) (halts : e = .step .shutdown → v.Halted)
    (unmoved : ∀ handle, handle.loader = k → e = .step (.act k (.cancel handle)) → π handle.id = handle.id) :
    Agree (Renamed π) k (w.occur e).1 (v.occur e).1 :=
  agree.occur fun _ m alive renamed =>
    renamed.undergo (w.turn k) (v.turn k) v.environment k e (fun ends => (halts ends).idle k m alive) unmoved

/-- While no task runs, or the runtime is not shut down, the same is observed of loaders whose requests have changed
places. -/
theorem observed_agree (events : List Event) (agree : Agree (Renamed π) k w v)
    (halts : .step .shutdown ∈ events → v.Halted)
    (unmoved : ∀ handle, handle.loader = k → .step (.act k (.cancel handle)) ∈ events → π handle.id = handle.id) :
    Agree (Renamed π) k (w.after events) (v.after (events.filter (Event.concerns k))) ∧
      (w.history events).issued k = (v.history (events.filter (Event.concerns k))).issued k ∧
      ObservedAlike k π (w.history events) (v.history (events.filter (Event.concerns k))) := by
  let I (w v : World) : Prop := Agree (Renamed π) k w v ∧ (.step .shutdown ∈ events → v.Halted)
  have skip (w v : World) (e : Event) (related : I w v) (foreign : e.concerns k = false) : I (w.occur e).1 v :=
    ⟨related.1.skip foreign, related.2⟩
  have keep (w v : World) (e : Event) (member : e ∈ events) (related : I w v) : I (w.occur e).1 (v.occur e).1 :=
    ⟨occur_agree related.1 (fun ends => related.2 (ends ▸ member)) fun handle own asked =>
      unmoved handle own (asked ▸ member), fun ends => (related.2 ends).occur e⟩
  have report (w v : World) (e : Event) (member : e ∈ events) (own : e.concerns k = true) (related : I w v) :
      (w.occur e).2 = (v.occur e).2.renamed π :=
    report_agree related.1 own fun handle mine asked => unmoved handle mine (asked ▸ member)
  have start : I w v := ⟨agree, halts⟩
  refine ⟨(holds_after start skip keep).1, ?_, ?_, ?_, ?_⟩
  · refine (read_history (Moment.issued k) id start skip keep (fun w e foreign => (Moment.shows_nothing w foreign).2.1)
      ?_).trans (List.map_id _)
    intro w v e member own related
    simp only [Moment.issued, Moment.of, report w v e member own related, Report.renamed, List.map_id]
  · refine read_history (Moment.observed k) _ start skip keep (fun w e foreign => (Moment.shows_nothing w foreign).1) ?_
    intro w v e member own related
    have counts := counts_agree (keep w v e member related).1
    simp only [Moment.observed, Moment.seen, Moment.of, own, if_true, report w v e member own related, counts,
      List.map_singleton]
  · refine read_history (Moment.fired k) _ start skip keep (fun w e foreign => (Moment.shows_nothing w foreign).2.2.1) ?_
    intro w v e member own related
    simp only [Moment.fired, Moment.of, report w v e member own related]
    cases e.action? k <;> rfl
  · refine (read_history (Moment.cancelled k) id start skip keep
      (fun w e foreign => (Moment.shows_nothing w foreign).2.2.2) ?_).trans (List.map_id _)
    intro w v e member own related
    simp only [Moment.cancelled, Moment.of, report w v e member own related, Report.renamed, List.map_id]

/-- Without a runtime loaders give out the same numbers and store the same texts, whatever is cancelled. -/
theorem halted_agree (events : List Event) (agree : Agree Twin k w v) (halted : v.Halted) :
    (w.history events).issued k = (v.history (events.filter (Event.concerns k))).issued k ∧
      (w.history events).cacheSizes k = (v.history (events.filter (Event.concerns k))).cacheSizes k := by
  let I (w v : World) : Prop := Agree Twin k w v ∧ v.Halted
  have skip (w v : World) (e : Event) (related : I w v) (foreign : e.concerns k = false) : I (w.occur e).1 v :=
    ⟨related.1.skip foreign, related.2⟩
  have step (w v : World) (e : Event) (related : I w v) : I (w.occur e).1 (v.occur e).1 := by
    refine ⟨related.1.occur fun l m alive twin => ?_, related.2.occur e⟩
    exact twin.undergo_halted (related.2.idle k m alive) related.2.ended (w.turn k) (v.turn k) k e
  have keep (w v : World) (e : Event) (_ : e ∈ events) (related : I w v) : I (w.occur e).1 (v.occur e).1 :=
    step w v e related
  constructor
  · refine (read_history (Moment.issued k) id ⟨agree, halted⟩ skip keep
      (fun w e foreign => (Moment.shows_nothing w foreign).2.1) ?_).trans (List.map_id _)
    intro w v e _ _ related
    rw [List.map_id]
    cases asked : e.action? k with
    | none => simp only [Moment.issued, Moment.of, asked, Option.elim]
    | some action =>
      obtain rfl := Event.action?_eq_some_iff.mp asked
      simp only [Moment.issued, Moment.of, asked, Option.elim, report_occur, Environment.report, related.1.environment]
      obtain ⟨first, second⟩ | ⟨l, m, first, second, twin⟩ := related.1.loaders
      · rw [first, second]
      · rw [first, second]
        exact (twin.act_halted (related.2.idle k m second) related.2.ended k action).2
  · refine (read_history (Moment.cacheSizes k) id ⟨agree, halted⟩ skip keep ?_ ?_).trans (List.map_id _)
    · intro w e foreign
      rw [Moment.cacheSizes, (Moment.shows_nothing w foreign).1, List.map_nil]
    · intro w v e _ own related
      have size : ((w.occur e).1.counts k).map Prod.snd = ((v.occur e).1.counts k).map Prod.snd := by
        rw [counts, counts]
        obtain ⟨first, second⟩ | ⟨l, m, first, second, twin⟩ := (step w v e related).1.loaders
        · rw [first, second]
        · simp only [first, second, Option.map_some, Loader.counts, twin.cache]
      simp only [Moment.cacheSizes, Moment.observed, Moment.seen, Moment.of, own, if_true, List.map_singleton, size, id]

end

/-! ## The end of the runtime -/

/-- The requests whose tasks the end of the runtime ends. -/
theorem destroyed_of_shutdown {w : World} {k : Nat} {l : Loader} (alive : w.loader? k = some l) :
    (Moment.of w (.step .shutdown)).destroyed k = (inTurn (w.turn k) l.waiting).map Waiting.id := by
  have lives : (w.occur (.step .shutdown)).1.loader? k = some (l.abortAll (w.turn k)) := loader?_occur alive _
  simp only [Moment.destroyed, Moment.of, if_true, Moment.sent, alive, lives, Loader.abortAll, List.drop_left,
    List.map_map]
  rfl

theorem destroyed_of_no_shutdown {w : World} {events : List Event} (k : Nat) (runs : .step .shutdown ∉ events) :
    (w.history events).destroyed k = [] := by
  refine List.flatMap_eq_nil_iff.mpr fun m member => if_neg ?_
  obtain ⟨earlier, e, later, rfl, rfl⟩ := mem_history member
  rintro rfl
  exact runs (by simp)

/-- Without a runtime no task is left for it to end. -/
theorem Halted.destroyed {w : World} (halted : w.Halted) (events : List Event) (k : Nat) :
    (w.history events).destroyed k = [] := by
  refine List.flatMap_eq_nil_iff.mpr fun m member => ?_
  obtain ⟨v, e, stays, rfl⟩ := halted.before member
  by_cases ends : e = .step .shutdown
  · subst ends
    rw [Moment.destroyed, stays.sent]
    rfl
  · exact if_neg ends

/-- A history in which the runtime is shut down. -/
theorem history_stopped (w : World) (before rest : List Event) :
    w.history (before ++ .step .shutdown :: rest) = w.history before ++
      ([.of (w.after before) (.step .shutdown)] ++ (w.after before).stopped.history rest) :=
  history_append w before _

theorem destroyed_history (w : World) {before : List Event} (rest : List Event) (k : Nat)
    (runs : .step .shutdown ∉ before) :
    (w.history (before ++ .step .shutdown :: rest)).destroyed k =
      (Moment.of (w.after before) (.step .shutdown)).destroyed k := by
  have later := (halted_stopped (w.after before)).destroyed rest k
  have none := destroyed_of_no_shutdown (w := w) k runs
  unfold History.destroyed at later none ⊢
  rw [history_stopped, List.flatMap_append, List.flatMap_append, later, none, List.flatMap_singleton, List.nil_append,
    List.append_nil]

/-- In agreeing worlds the end of the runtime makes requests change places that have not fired. -/
theorem exists_of_stopped {w v : World} {k : Nat} {g : History} (agree : Agree (Renamed (.refl _)) k w v)
    (kept : ∀ m, v.loader? k = some m → Kept k g m) :
    ∃ π, Agree (Renamed π) k w.stopped v.stopped ∧
      (Moment.of w (.step .shutdown)).destroyed k = ((Moment.of v (.step .shutdown)).destroyed k).map π ∧
      (∀ id, id ∉ (Moment.of v (.step .shutdown)).destroyed k → π id = id) := by
  have environment : w.stopped.environment = v.stopped.environment := by
    rw [stopped, stopped, environment_occur, environment_occur, agree.environment]
  obtain ⟨first, second⟩ | ⟨l, m, first, second, renamed⟩ := agree.loaders
  · have none (u : World) (gone : u.loader? k = none) : (Moment.of u (.step .shutdown)).destroyed k = [] := by
      rw [Moment.destroyed, Moment.sent_of_none (m := .of u (.step .shutdown)) gone]
      rfl
    refine ⟨.refl _, ⟨environment, ?_⟩, ?_, fun _ _ => rfl⟩
    · rw [stopped, stopped, loader?_occur_none first, loader?_occur_none second]
      exact .none
    · rw [none w first, none v second]
      rfl
  · obtain ⟨π, next, moves, others⟩ := renamed.exists_of_abortAll (kept m second) (w.turn k) (v.turn k)
    rw [destroyed_of_shutdown first, destroyed_of_shutdown second]
    refine ⟨π, ⟨environment, ?_⟩, moves, others⟩
    rw [stopped, stopped, loader?_occur first, loader?_occur second]
    exact .some next

/-- Until the runtime is shut down no callback of a task fires that is ended then. -/
theorem undestroyed_of_fired {w : World} {k : Nat} {h : History} (kept : ∀ l, w.loader? k = some l → Kept k h l)
    {c : Completion} (fired : c ∈ h.fired k) : c.id ∉ (Moment.of w (.step .shutdown)).destroyed k := by
  cases alive : w.loader? k with
  | none =>
    rw [Moment.destroyed, Moment.sent_of_none (m := .of w (.step .shutdown)) alive]
    simp
  | some l =>
    have kept := kept l alive
    rw [destroyed_of_shutdown alive]
    intro ended
    have task := ((inTurn_perm (w.turn k) l.waiting).map Waiting.id).mem_iff.mp ended
    have parts := kept.callbacks.nodup_iff.mp kept.issued_nodup
    have apart := (List.nodup_append.mp (List.nodup_append.mp parts).1).2.2
    exact apart c.id (kept.waiting c.id task) c.id (List.mem_map_of_mem fired) rfl

/-- The callbacks of the tasks that are ended with the runtime are told so. -/
theorem aborted_of_destroyed {runtime : Runtime} {replies : Replies} {loaders : List (Resolver × Bool)}
    {events later : List Event} {k : Nat} {c : Completion}
    (fired : c ∈ ((opened runtime replies loaders).history (events ++ .step .shutdown :: later)).fired k)
    (destroyed : c.id ∈ (Moment.of ((opened runtime replies loaders).after events) (.step .shutdown)).destroyed k) :
    c.result = Completion.aborted := by
  rw [history_append, History.fired_append] at fired
  rcases List.mem_append.mp fired with before | after
  · exact absurd destroyed (undestroyed_of_fired (fun l alive => kept_history alive) before)
  · cases alive : ((opened runtime replies loaders).after events).loader? k with
    | none =>
      rw [history_fired_none _ alive] at after
      cases after
    | some l =>
      have kept := kept_history alive
      obtain ⟨left, callbacks, _⟩ := fired_after_stopped alive later
      have told := List.mem_of_mem_filter (callbacks ▸ List.mem_append_left left after)
      rw [kept.owed_abortAll, List.append_assoc, ← List.map_append] at told
      rcases List.mem_append.mp told with owed | aborted
      · rw [destroyed_of_shutdown alive] at destroyed
        have task := ((inTurn_perm _ l.waiting).map Waiting.id).mem_iff.mp destroyed
        have queued := List.mem_map_of_mem (f := Completion.id) (List.mem_of_mem_filter owed)
        exact absurd task ((kept.mem_queued_iff (kept.waiting c.id task)).mp queued)
      · obtain ⟨id, _, rfl⟩ := List.mem_map.mp aborted
        rfl

theorem opened_agree (runtime other : Runtime) (replies : Replies) (loaders : List (Resolver × Bool)) (k : Nat) :
    Agree (Renamed (.refl _)) k (opened runtime replies loaders) (opened other replies loaders) where
  environment := rfl
  loader := by
    rw [opened_loader?, opened_loader?]
    cases loaders[k]? with
    | none => exact .none
    | some entry => exact .some (.refl _)

end World

namespace ObservedAlike

variable {k : Nat} {π ρ : Perm Nat} {h g later others : History}

theorem append (alike : ObservedAlike k π h g) (next : ObservedAlike k π later others) :
    ObservedAlike k π (h ++ later) (g ++ others) where
  observed := by
    rw [History.observed, History.observed, List.flatMap_append, List.flatMap_append, List.map_append]
    exact congrArg₂ _ alike.observed next.observed
  fired := by
    rw [History.fired_append, History.fired_append, List.map_append, alike.fired, next.fired]
  cancelled := by rw [History.cancelled_append, History.cancelled_append, alike.cancelled, next.cancelled]

theorem cacheSizes_eq (alike : ObservedAlike k π h g) : h.cacheSizes k = g.cacheSizes k := by
  have flat (h : History) : h.cacheSizes k = (h.observed k).map fun (_, _, counts) => counts.map Prod.snd :=
    List.map_flatMap.symm
  rw [flat, flat, alike.observed, List.map_map]
  rfl

/-- What a moment that concerns a loader shows to fire has fired there. -/
theorem fired_of_report {v : World} {events : List Event} {m : Moment} (member : m ∈ v.history events)
    (own : m.event.concerns k = true) {c : Completion} (fired : c ∈ m.report.fired) : c ∈ (v.history events).fired k := by
  refine List.mem_flatMap.mpr ⟨m, member, ?_⟩
  obtain ⟨earlier, e, later, _, rfl⟩ := World.mem_history member
  obtain ⟨j, action, _, rfl, dispatches, _⟩ := World.fired_by_dispatching e fired
  obtain rfl : j = k := by rcases dispatches with rfl | rfl | rfl <;> simpa [Moment.of, Event.concerns] using own
  simpa [Moment.fired, Moment.of, Event.action?] using fired

/-- Numbers that have not fired may change places. -/
theorem of_unfired {v : World} {events : List Event} (alike : ObservedAlike k (.refl _) h (v.history events))
    (fixed : ∀ c ∈ (v.history events).fired k, π c.id = c.id) : ObservedAlike k π h (v.history events) where
  observed := by
    rw [alike.observed]
    refine List.map_congr_left fun sight shown => ?_
    obtain ⟨m, member, here⟩ := List.mem_flatMap.mp shown
    rw [Moment.observed] at here
    split at here
    next own =>
      obtain rfl := List.mem_singleton.mp here
      have unmoved := fun c fired => fixed c (fired_of_report member own fired)
      simp only [Moment.seen, Report.renamed_of_fixed unmoved, Report.renamed_of_fixed (π := .refl _) fun _ _ => rfl]
    next => cases here
  fired := by
    rw [alike.fired]
    refine List.map_congr_left fun c fired => ?_
    rw [Completion.renamed_of_fixed rfl, Completion.renamed_of_fixed (fixed c fired)]
  cancelled := alike.cancelled

end ObservedAlike

namespace World

open Loader

theorem alike_stopped {w v : World} {k : Nat} {π : Perm Nat} (agree : Agree (Renamed π) k w.stopped v.stopped) :
    ObservedAlike k π [.of w (.step .shutdown)] [.of v (.step .shutdown)] where
  observed := by
    have counts : (Moment.of w (.step .shutdown)).after.counts k = (Moment.of v (.step .shutdown)).after.counts k :=
      counts_agree agree
    simp only [History.observed, Moment.observed, Moment.seen, List.flatMap_singleton, counts]
    rfl
  fired := rfl
  cancelled := rfl

/-- Main statement: to leave out what is addressed to the other loaders, and what would cancel their requests, changes
nothing that is observed of a loader but the order in which the end of the runtime ends its tasks, also on another
runtime. -/
theorem loaders_separate (runtime other : Runtime) (replies : Replies) (loaders : List (Resolver × Bool))
    (events : List Event) (k : Nat) :
    ∃ π, Separate k events π ((opened runtime replies loaders).history events)
      ((opened other replies loaders).history (events.filter (Event.concerns k))) := by
  have agree := opened_agree runtime other replies loaders k
  by_cases ends : .step .shutdown ∈ events
  · obtain ⟨before, rest, rfl, runs⟩ := List.eq_append_cons_of_mem ends
    have runs' : .step .shutdown ∉ before.filter (Event.concerns k) :=
      fun member => runs (List.mem_of_mem_filter member)
    rw [List.filter_append, List.filter_cons_of_pos rfl]
    obtain ⟨stops, issued, alike⟩ := observed_agree before agree (fun ends => absurd ends runs) fun _ _ _ => rfl
    obtain ⟨π, stopped, moves, others⟩ := exists_of_stopped stops fun m alive => kept_history alive
    have halted := halted_stopped ((opened other replies loaders).after (before.filter (Event.concerns k)))
    obtain ⟨laterIssued, laterSizes⟩ := halted_agree rest (stopped.mono fun _ _ => Renamed.toTwin) halted
    have unfired : ∀ c ∈ ((opened other replies loaders).history (before.filter (Event.concerns k))).fired k,
        π c.id = c.id := fun c fired => others c.id (undestroyed_of_fired (fun m alive => kept_history alive) fired)
    have first := alike.of_unfired unfired
    have last := alike_stopped stopped
    refine ⟨π, ?_, ?_, ?_, ?_, ?_, ?_, ?_⟩
    · rw [destroyed_history _ rest k runs, destroyed_history _ _ k runs', moves]
    · rw [destroyed_history _ _ k runs']
      exact others
    · rw [destroyed_history _ rest k runs, destroyed_history _ _ k runs']
      exact fun same => eq_refl_of_map others (same.symm.trans moves)
    · intro c fired destroyed
      rw [destroyed_history _ rest k runs] at destroyed
      exact aborted_of_destroyed fired destroyed
    · rw [history_stopped, history_stopped]
      simp only [History.issued_append, issued, laterIssued]
      rfl
    · rw [history_stopped, history_stopped]
      simp only [History.cacheSizes_append, first.cacheSizes_eq, last.cacheSizes_eq, laterSizes]
    · intro unmoved
      obtain ⟨_, _, rest⟩ := observed_agree rest stopped (fun _ => halted) fun handle own asked =>
        unmoved handle own (List.mem_append_right _ (List.mem_cons_of_mem _ asked))
      rw [history_stopped, history_stopped]
      exact first.append (last.append rest)
  · obtain ⟨_, issued, alike⟩ := observed_agree events agree (fun ends' => absurd ends' ends) fun _ _ _ => rfl
    have runs : .step .shutdown ∉ events.filter (Event.concerns k) := fun member => ends (List.mem_of_mem_filter member)
    have none := destroyed_of_no_shutdown (w := opened runtime replies loaders) k ends
    have none' := destroyed_of_no_shutdown (w := opened other replies loaders) k runs
    refine ⟨.refl _, ?_, fun _ _ => rfl, fun _ => rfl, by simp [none], issued, alike.cacheSizes_eq, fun _ => alike⟩
    rw [none, none']
    rfl

/-- The order does depend on the other loaders: of two tasks among six of another loader the second is ended first, and
alone the first one is. -/
theorem destroyed_in_another_order :
    let replies : Replies := (Table.empty.insert "gate" ⟨.body "red", true⟩).insert "open" ⟨.body "blue", false⟩
    let w := opened .sharded replies [({}, false), ({}, false)]
    let own : Event := .step (.act 0 (.request "gate"))
    let foreign : Event := .step (.act 1 (.request "open"))
    let events := [foreign, own, foreign, foreign, own, foreign, foreign, foreign, .step .shutdown,
      .step (.act 0 .dispatchAll)]
    ((w.history events).fired 0).map Completion.id = [1, 0] ∧
      ((w.history (events.filter (Event.concerns 0))).fired 0).map Completion.id = [0, 1] := by
  intro replies w own foreign events
  exact ⟨by decide +kernel, by decide +kernel⟩

end World

end ColorResolution
