import Mathlib.Data.List.Nodup
import ColorResolution.Loader.Basic

/-!
# Dispatching as one pass over the queue

Every way of dispatching takes completions from the front of the queue and fires those whose request is pending; the
ways differ only in where they stop. What such a pass fires and what it leaves pending is said once, for any part of a
queue. Waiting for all completions comes to the pass over the whole queue, and it blocks where that leaves a request.
-/
namespace ColorResolution.Loader

/-- The requests whose task has not ended. -/
def unfinished (l : Loader) : List Nat := l.waiting.map Waiting.id

/-- The requests with a completion in the queue, in its order. -/
def queued (l : Loader) : List Nat := l.queue.map Completion.id

/-! ## One pass -/

section
variable {pending : List Nat} {c : Completion} {queue : List Completion}

theorem fireQueued_wanted (wanted : c.id ∈ pending) :
    fireQueued pending (c :: queue) =
      (c :: (fireQueued (pending.erase c.id) queue).1, (fireQueued (pending.erase c.id) queue).2) := by
  rw [fireQueued, if_pos wanted]

theorem fireQueued_stale (stale : c.id ∉ pending) : fireQueued pending (c :: queue) = fireQueued pending queue := by
  rw [fireQueued, if_neg stale]

theorem fireQueued_append (first rest : List Completion) :
    fireQueued pending (first ++ rest) =
      ((fireQueued pending first).1 ++ (fireQueued (fireQueued pending first).2 rest).1,
        (fireQueued (fireQueued pending first).2 rest).2) := by
  induction first generalizing pending with
  | nil => simp [fireQueued]
  | cons head tail ih =>
    by_cases wanted : head.id ∈ pending
    · simp only [List.cons_append, fireQueued_wanted wanted, ih]
    · simp only [List.cons_append, fireQueued_stale wanted, ih]

/-- A part of the queue in which nothing is wanted changes nothing. -/
theorem fireQueued_allStale (stale : ∀ c ∈ queue, c.id ∉ pending) : fireQueued pending queue = ([], pending) := by
  induction queue with
  | nil => rfl
  | cons head tail ih =>
    rw [fireQueued_stale (stale head (by simp))]
    exact ih fun c member => stale c (by simp [member])

theorem fireQueued_sublist : (fireQueued pending queue).1.Sublist queue := by
  induction queue generalizing pending with
  | nil => exact .slnil
  | cons head tail ih =>
    by_cases wanted : head.id ∈ pending
    · rw [fireQueued_wanted wanted]
      exact ih.cons_cons head
    · rw [fireQueued_stale wanted]
      exact ih.cons head

/-- A request is taken off the pending ones exactly when its callback fires. -/
theorem fireQueued_perm (pending : List Nat) (queue : List Completion) :
    pending.Perm ((fireQueued pending queue).2 ++ (fireQueued pending queue).1.map Completion.id) := by
  induction queue generalizing pending with
  | nil => simp [fireQueued]
  | cons head tail ih =>
    by_cases wanted : head.id ∈ pending
    · rw [fireQueued_wanted wanted]
      have rest := (ih (pending.erase head.id)).cons head.id
      exact ((List.perm_cons_erase wanted).trans rest).trans List.perm_middle.symm
    · rw [fireQueued_stale wanted]
      exact ih pending

/-- What stays pending is what the queue holds no completion of. -/
theorem mem_left_iff (distinct : pending.Nodup) (id : Nat) :
    id ∈ (fireQueued pending queue).2 ↔ id ∈ pending ∧ id ∉ queue.map Completion.id := by
  induction queue generalizing pending with
  | nil => simp [fireQueued]
  | cons head tail ih =>
    by_cases wanted : head.id ∈ pending
    · rw [fireQueued_wanted wanted, ih (distinct.erase head.id), distinct.mem_erase_iff]
      simp only [List.map_cons, List.mem_cons, not_or]
      tauto
    · rw [fireQueued_stale wanted, ih distinct]
      simp only [List.map_cons, List.mem_cons, not_or]
      constructor
      · rintro ⟨member, absent⟩
        exact ⟨member, fun equal => wanted (equal ▸ member), absent⟩
      · rintro ⟨member, _, absent⟩
        exact ⟨member, absent⟩

/-- What fires is what is pending and has a completion in the queue. -/
theorem mem_fired_iff (distinct : pending.Nodup) (id : Nat) :
    id ∈ (fireQueued pending queue).1.map Completion.id ↔ id ∈ pending ∧ id ∈ queue.map Completion.id := by
  have split : id ∈ pending ↔ _ := (fireQueued_perm pending queue).mem_iff
  have disjoint := List.nodup_append.mp ((fireQueued_perm pending queue).nodup_iff.mp distinct)
  rw [List.mem_append, mem_left_iff distinct] at split
  constructor
  · intro fired
    have member := split.mpr (.inr fired)
    refine ⟨member, Classical.byContradiction fun absent => ?_⟩
    exact disjoint.2.2 id ((mem_left_iff distinct id).mpr ⟨member, absent⟩) id fired rfl
  · rintro ⟨member, inQueue⟩
    rcases split.mp member with left | fired
    · exact absurd inQueue left.2
    · exact fired

theorem firstWanted_some {rest : List Completion} (found : firstWanted pending queue = some (c, rest)) :
    c.id ∈ pending ∧ ∃ stale, queue = stale ++ c :: rest ∧ ∀ s ∈ stale, s.id ∉ pending := by
  induction queue with
  | nil => cases found
  | cons head tail ih =>
    by_cases wanted : head.id ∈ pending
    · rw [firstWanted, if_pos wanted] at found
      cases found
      exact ⟨wanted, [], rfl, by simp⟩
    · rw [firstWanted, if_neg wanted] at found
      obtain ⟨member, stale, split, unwanted⟩ := ih found
      refine ⟨member, head :: stale, by rw [split, List.cons_append], ?_⟩
      intro s belongs
      rcases List.mem_cons.mp belongs with rfl | later
      · exact wanted
      · exact unwanted s later

theorem firstWanted_none (missing : firstWanted pending queue = none) : ∀ c ∈ queue, c.id ∉ pending := by
  induction queue with
  | nil => simp
  | cons head tail ih =>
    by_cases wanted : head.id ∈ pending
    · rw [firstWanted, if_pos wanted] at missing
      cases missing
    · rw [firstWanted, if_neg wanted] at missing
      intro c belongs
      rcases List.mem_cons.mp belongs with rfl | later
      · exact wanted
      · exact ih missing c later

end

/-! ## The ways of dispatching -/

/-- `fired` is what a pass over a front part of the queue fires, and only the pending requests and the queue change. -/
def Dispatched (l : Loader) (fired : List Completion) (next : Loader) : Prop :=
  ∃ taken, l.queue = taken ++ next.queue ∧ fireQueued l.pending taken = (fired, next.pending) ∧
    next = { l with pending := next.pending, queue := next.queue }

theorem Dispatched.refl (l : Loader) : Dispatched l [] l := ⟨[], rfl, rfl, rfl⟩

theorem Dispatched.trans {l middle last : Loader} {first second : List Completion}
    (earlier : Dispatched l first middle) (later : Dispatched middle second last) :
    Dispatched l (first ++ second) last := by
  obtain ⟨front, frontQueue, frontPass, frontFrame⟩ := earlier
  obtain ⟨back, backQueue, backPass, backFrame⟩ := later
  refine ⟨front ++ back, ?_, ?_, ?_⟩
  · rw [frontQueue, backQueue, List.append_assoc]
  · rw [fireQueued_append, frontPass, backPass]
  · rw [backFrame, frontFrame]

theorem dispatchReady_spec (l : Loader) : Dispatched l l.dispatchReady.2 l.dispatchReady.1 :=
  ⟨l.queue, (List.append_nil _).symm, rfl, rfl⟩

theorem dispatchNext_fired {l next : Loader} {c : Completion} (fired : l.dispatchNext = (next, .fired c)) :
    Dispatched l [c] next ∧ next.pending.length + 1 = l.pending.length := by
  unfold dispatchNext at fired
  split at fired
  · cases fired
  · split at fired
    next rest found =>
      cases fired
      obtain ⟨wanted, stale, split, unwanted⟩ := firstWanted_some found
      refine ⟨⟨stale ++ [c], by simp [split], ?_, rfl⟩, ?_⟩
      · rw [fireQueued_append, fireQueued_allStale unwanted, fireQueued_wanted wanted]
        rfl
      · have positive := List.length_pos_of_mem wanted
        rw [List.length_erase_of_mem wanted]
        omega
    · cases fired

theorem dispatchNext_idle {l next : Loader} (idle : l.dispatchNext = (next, .idle)) : next = l ∧ l.pending = [] := by
  unfold dispatchNext at idle
  split at idle
  next empty =>
    cases idle
    exact ⟨rfl, List.isEmpty_iff.mp empty⟩
  · split at idle <;> cases idle

theorem dispatchNext_blocked {l next : Loader} (blocked : l.dispatchNext = (next, .blocked)) :
    Dispatched l [] next ∧ next.queue = [] ∧ next.pending ≠ [] ∧ ∀ c ∈ l.queue, c.id ∉ l.pending := by
  unfold dispatchNext at blocked
  split at blocked
  · cases blocked
  next some =>
    split at blocked
    · cases blocked
    next missing =>
      cases blocked
      have stale := firstWanted_none missing
      refine ⟨⟨l.queue, (List.append_nil _).symm, fireQueued_allStale stale, rfl⟩, rfl, ?_, stale⟩
      exact fun empty => some (List.isEmpty_iff.mpr empty)

theorem dispatchUpTo_spec (n : Nat) (l : Loader) (enough : l.pending.length < n) :
    Dispatched l (l.dispatchUpTo n).2.1 (l.dispatchUpTo n).1 ∧
      ((l.dispatchUpTo n).2.2 = false ∧ (l.dispatchUpTo n).1.pending = [] ∨
        (l.dispatchUpTo n).2.2 = true ∧ (l.dispatchUpTo n).1.pending ≠ [] ∧ (l.dispatchUpTo n).1.queue = []) := by
  induction n generalizing l with
  | zero => omega
  | succ n ih =>
    unfold dispatchUpTo
    cases call : l.dispatchNext with
    | mk next outcome =>
      cases outcome with
      | fired c =>
        obtain ⟨first, shorter⟩ := dispatchNext_fired call
        obtain ⟨rest, stop⟩ := ih next (by omega)
        exact ⟨first.trans rest, stop⟩
      | idle =>
        obtain ⟨rfl, empty⟩ := dispatchNext_idle call
        exact ⟨.refl _, .inl ⟨rfl, empty⟩⟩
      | blocked =>
        obtain ⟨pass, drained, some, _⟩ := dispatchNext_blocked call
        exact ⟨pass, .inr ⟨rfl, some, drained⟩⟩

theorem dispatchAll_dispatched (l : Loader) : Dispatched l l.dispatchAll.2.1 l.dispatchAll.1 :=
  (dispatchUpTo_spec _ l (Nat.lt_succ_self _)).1

/-- Waiting for all completions fires what the pass over the whole queue fires: it stops early only when nothing is
pending any more. -/
theorem dispatchAll_pass (l : Loader) : fireQueued l.pending l.queue = (l.dispatchAll.2.1, l.dispatchAll.1.pending) := by
  obtain ⟨⟨taken, split, pass, _⟩, stop⟩ := dispatchUpTo_spec _ l (Nat.lt_succ_self _)
  change l.queue = taken ++ l.dispatchAll.1.queue at split
  change fireQueued l.pending taken = (l.dispatchAll.2.1, l.dispatchAll.1.pending) at pass
  rw [split, fireQueued_append, pass]
  rcases stop with ⟨_, empty⟩ | ⟨_, _, drained⟩
  · change l.dispatchAll.1.pending = [] at empty
    rw [empty, fireQueued_allStale (by simp), List.append_nil]
  · change l.dispatchAll.1.queue = [] at drained
    rw [drained]
    simp [fireQueued]

theorem dispatchAll_blocked_iff (l : Loader) : l.dispatchAll.2.2 = true ↔ l.dispatchAll.1.pending ≠ [] := by
  rcases (dispatchUpTo_spec _ l (Nat.lt_succ_self _)).2 with ⟨finished, empty⟩ | ⟨blocked, some, _⟩
  · exact iff_of_false (by simp [dispatchAll, finished]) (by simp [dispatchAll, empty])
  · exact iff_of_true blocked some

end ColorResolution.Loader
