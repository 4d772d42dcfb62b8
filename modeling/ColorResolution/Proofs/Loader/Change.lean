import Mathlib.Data.List.Count
import Mathlib.Data.List.Perm.Basic
import ColorResolution.Proofs.Loader.Dispatch

/-!
# What an operation does to a loader's requests

Every operation of a loader changes its numbers, its pending requests, its unfinished tasks and its queue together, and
always under the same five equations: a number given out becomes a pending request with a task; a request stops being
pending when its callback fires or when it is cancelled; a task ends when its completion is sent; the queue gains what
is sent and loses what is taken from its front. Each operation is shown to obey them once. Texts in the cache and the
results of completions are of no account here.
-/
namespace ColorResolution.Loader

/-- What an operation shows of a loader's requests. -/
structure Effect where
  issued : List Nat := []
  fired : List Completion := []
  cancelled : List Nat := []
  sent : List Completion := []

/-- The equations between a loader before and after an operation. -/
structure Change (l : Loader) (effect : Effect) (next : Loader) : Prop where
  numbered : List.range next.nextId = List.range l.nextId ++ effect.issued
  callbacks : (l.pending ++ effect.issued).Perm
    (next.pending ++ effect.fired.map Completion.id ++ effect.cancelled)
  tasks : (l.unfinished ++ effect.issued).Perm (next.unfinished ++ effect.sent.map Completion.id)
  completions : ∃ taken, l.queue ++ effect.sent = taken ++ next.queue ∧ (taken = [] ∨ effect.sent = []) ∧
    effect.fired.Sublist taken ∧ ∀ c ∈ taken, c.id ∉ next.pending
  aborted : ∀ id ∈ effect.cancelled, id ∉ next.unfinished

/-- An operation that shows nothing of the requests may still change the cache. -/
theorem Change.quiet (l : Loader) (cache : Option Cache) : Change l {} { l with cache := cache } where
  numbered := by simp
  callbacks := by simp
  tasks := by simp [unfinished]
  completions := ⟨[], by simp, .inl rfl, .slnil, by simp⟩
  aborted := by simp

/-! ## Requests -/

/-- The task of a request either waits with the answer that is in force, or has ended at once. -/
theorem request_cases (env : Environment) (url : String) (l : Loader) :
    (∃ cache result, (l.request env url).1 =
      { l with cache := cache, nextId := l.nextId + 1, pending := l.pending ++ [l.nextId],
               queue := l.queue ++ [⟨l.nextId, result⟩] }) ∨
    env.running = true ∧ (env.replies.reply url).gated = true ∧ (l.request env url).1 =
      { l with nextId := l.nextId + 1, pending := l.pending ++ [l.nextId],
               waiting := l.waiting ++ [⟨l.nextId, url, env.gate url, (env.replies.reply url).answer⟩] } := by
  unfold request
  dsimp only
  split
  · exact .inl ⟨l.cache, _, rfl⟩
  next running =>
    split
    · exact .inl ⟨l.cache, _, rfl⟩
    · split
      next gated => exact .inr ⟨by simpa using running, gated, rfl⟩
      · exact .inl ⟨_, _, rfl⟩

theorem request_change (env : Environment) (url : String) (l : Loader) :
    ∃ sent, Change l { issued := [l.nextId], sent := sent } (l.request env url).1 := by
  rcases request_cases env url l with ⟨cache, result, ended⟩ | ⟨_, _, waits⟩
  · rw [ended]
    refine ⟨[⟨l.nextId, result⟩], ?_, ?_, ?_, ?_, ?_⟩
    · exact List.range_succ
    · simp
    · exact .refl _
    · exact ⟨[], rfl, .inl rfl, .slnil, by simp⟩
    · simp
  · rw [waits]
    refine ⟨[], ?_, ?_, ?_, ?_, ?_⟩
    · exact List.range_succ
    · simp
    · simp [unfinished]
    · exact ⟨[], by simp, .inl rfl, .slnil, by simp⟩
    · simp

/-! ## Cancelling -/

/-- With distinct numbers at most one task is that of a request. -/
theorem unfinished_filter_ne (l : Loader) (id : Nat) (distinct : l.unfinished.Nodup) (member : id ∈ l.unfinished) :
    l.unfinished.Perm ((l.waiting.filter fun w => w.id != id).map Waiting.id ++ [id]) := by
  have others : (l.waiting.filter fun w => w.id != id).map Waiting.id = l.unfinished.erase id := by
    rw [distinct.erase_eq_filter, unfinished, List.filter_map]
    rfl
  rw [others]
  exact (List.perm_cons_erase member).trans (List.perm_append_singleton id _).symm

theorem any_waiting_iff (l : Loader) (id : Nat) : (l.waiting.any fun w => w.id == id) = true ↔ id ∈ l.unfinished := by
  simp [unfinished]

theorem cancel_foreign {l : Loader} {id : Nat} (absent : id ∉ l.pending) : l.cancel id = (l, false) := by
  rw [cancel, if_neg absent]

theorem cancel_change {l : Loader} {id : Nat} (member : id ∈ l.pending) (distinct : l.unfinished.Nodup) :
    (l.cancel id).2 = true ∧ ∃ sent, Change l { cancelled := [id], sent := sent } (l.cancel id).1 := by
  have forgotten : (l.pending ++ []).Perm (l.pending.erase id ++ [] ++ [id]) := by
    simpa using (List.perm_cons_erase member).trans (List.perm_append_singleton id _).symm
  have aborted : ∀ other ∈ [id], other ∉ (l.waiting.filter fun w => w.id != id).map Waiting.id := by
    simp
  rw [cancel, if_pos member]
  refine ⟨rfl, ?_⟩
  dsimp only
  split
  next waits =>
    have task := unfinished_filter_ne l id distinct ((any_waiting_iff l id).mp waits)
    refine ⟨[⟨id, .error (.fetch .aborted)⟩], ?_, forgotten, ?_, ?_, aborted⟩
    · simp [complete]
    · simpa [complete, unfinished] using task
    · exact ⟨[], rfl, .inl rfl, .slnil, by simp⟩
  next ended =>
    have same : (l.waiting.filter fun w => w.id != id) = l.waiting := by
      rw [List.filter_eq_self]
      intro w belongs
      have other : w.id ≠ id := fun equal => ended ((any_waiting_iff l id).mpr (equal ▸ List.mem_map_of_mem belongs))
      simpa using other
    refine ⟨[], ?_, forgotten, ?_, ?_, aborted⟩
    · simp
    · simp [unfinished, same]
    · exact ⟨[], by simp, .inl rfl, .slnil, by simp⟩

/-! ## Dispatching -/

theorem Dispatched.change {l next : Loader} {fired : List Completion} (dispatched : Dispatched l fired next)
    (distinct : l.pending.Nodup) : Change l { fired := fired } next := by
  obtain ⟨taken, split, pass, frame⟩ := dispatched
  have firedEq : (fireQueued l.pending taken).1 = fired := by rw [pass]
  have leftEq : (fireQueued l.pending taken).2 = next.pending := by rw [pass]
  refine ⟨?_, ?_, ?_, ?_, ?_⟩
  · rw [frame]
    simp
  · have conserved := fireQueued_perm l.pending taken
    rw [firedEq, leftEq] at conserved
    simpa using conserved
  · rw [frame]
    simp [unfinished]
  · refine ⟨taken, by simpa using split, .inr rfl, firedEq ▸ fireQueued_sublist, ?_⟩
    intro c belongs left
    rw [← leftEq, mem_left_iff distinct] at left
    exact left.2 (List.mem_map_of_mem belongs)
  · simp

/-! ## Tasks that end -/

/-- The completion of a task that goes on from its gate. -/
def goOn (l : Loader) (w : Waiting) : Completion := ⟨w.id, Payload.ofFetched l.resolver w.url (w.answer.result w.url)⟩

theorem settle_fold (tasks : List Waiting) (l : Loader) :
    ∃ cache, (tasks.foldl (fun l w => l.settle w.id w.url w.answer) l) =
      { l with cache := cache, queue := l.queue ++ tasks.map l.goOn } := by
  induction tasks generalizing l with
  | nil => exact ⟨l.cache, by simp⟩
  | cons w rest ih =>
    obtain ⟨cache, later⟩ := ih (l.settle w.id w.url w.answer)
    refine ⟨cache, ?_⟩
    rw [List.foldl_cons, later]
    simp [settle, store, complete, goOn]

theorem settleWhere_eq (p : Waiting → Bool) (l : Loader) :
    ∃ cache, l.settleWhere p =
      { l with cache := cache, waiting := l.waiting.filter fun w => !p w,
               queue := l.queue ++ (l.waiting.filter p).map l.goOn } :=
  settle_fold (l.waiting.filter p) { l with waiting := l.waiting.filter fun w => !p w }

/-- The texts of the tasks that go on are stored in their order. -/
theorem settle_fold_cache (tasks : List Waiting) (l : Loader) :
    (tasks.foldl (fun l w => l.settle w.id w.url w.answer) l).cache =
      l.cache.map fun c => tasks.foldl (fun c w => c.finish w.url (w.answer.result w.url)) c := by
  induction tasks generalizing l with
  | nil => simp
  | cons w rest ih =>
    rw [List.foldl_cons, ih]
    simp [settle, store, complete, Function.comp_def]

theorem settleWhere_cache (p : Waiting → Bool) (l : Loader) :
    (l.settleWhere p).cache = l.cache.map fun c =>
      (l.waiting.filter p).foldl (fun c w => c.finish w.url (w.answer.result w.url)) c :=
  settle_fold_cache (l.waiting.filter p) { l with waiting := l.waiting.filter fun w => !p w }

theorem settleWhere_change (p : Waiting → Bool) (l : Loader) : ∃ sent, Change l { sent := sent } (l.settleWhere p) := by
  obtain ⟨cache, next⟩ := settleWhere_eq p l
  refine ⟨(l.waiting.filter p).map l.goOn, ?_⟩
  rw [next]
  refine ⟨?_, ?_, ?_, ?_, ?_⟩
  · simp
  · simp
  · have parts := (List.filter_append_perm p l.waiting).map Waiting.id
    simpa [unfinished, goOn, Function.comp_def] using parts.symm.trans (by simpa using List.perm_append_comm)
  · exact ⟨[], rfl, .inl rfl, .slnil, by simp⟩
  · simp

theorem queueUp_perm (turn : Nat → Nat) (w : Waiting) (tasks : List Waiting) :
    (queueUp turn w tasks).Perm (w :: tasks) := by
  induction tasks with
  | nil => exact .refl _
  | cons a rest ih =>
    rw [queueUp]
    split
    · exact .refl _
    · exact (ih.cons a).trans (.swap w a rest)

/-- Taking turns neither loses a task nor adds one. -/
theorem inTurn_perm (turn : Nat → Nat) (tasks : List Waiting) : (inTurn turn tasks).Perm tasks := by
  induction tasks with
  | nil => exact .refl _
  | cons w rest ih => exact (queueUp_perm turn w (inTurn turn rest)).trans (ih.cons w)

theorem abortAll_change (turn : Nat → Nat) (l : Loader) : ∃ sent, Change l { sent := sent } (l.abortAll turn) := by
  refine ⟨(inTurn turn l.waiting).map fun w => ⟨w.id, .error (.fetch .aborted)⟩, ?_, ?_, ?_, ?_, ?_⟩
  · simp [abortAll]
  · simp [abortAll]
  · simpa [abortAll, unfinished, Function.comp_def] using ((inTurn_perm turn l.waiting).map Waiting.id).symm
  · exact ⟨[], rfl, .inl rfl, .slnil, by simp⟩
  · simp

/-! ## Fetching without a request -/

theorem fetchNow_frame (replies : Replies) (url : String) (l : Loader) :
    ∃ cache, (l.fetchNow replies url).1 = { l with cache := cache } := by
  unfold fetchNow
  split
  · exact ⟨l.cache, rfl⟩
  · dsimp only
    split
    · exact ⟨l.cache, rfl⟩
    · exact ⟨_, rfl⟩

theorem resolveNow_frame (replies : Replies) (url : String) (l : Loader) :
    ∃ cache, (l.resolveNow replies url).1 = { l with cache := cache } :=
  fetchNow_frame replies url l

theorem resolveAllNow_frame (replies : Replies) (urls : List String) (l : Loader) :
    ∃ cache, (l.resolveAllNow replies urls).1 = { l with cache := cache } := by
  induction urls generalizing l with
  | nil => exact ⟨l.cache, rfl⟩
  | cons url rest ih =>
    obtain ⟨first, firstFrame⟩ := resolveNow_frame replies url l
    obtain ⟨last, lastFrame⟩ := ih (l.resolveNow replies url).1
    refine ⟨last, ?_⟩
    change ((l.resolveNow replies url).1.resolveAllNow replies rest).1 = _
    rw [lastFrame, firstFrame]

end ColorResolution.Loader
