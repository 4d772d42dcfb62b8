import Mathlib.Data.List.Basic
import Mathlib.Logic.Equiv.Basic
import ColorResolution.Proofs.Loader.Shutdown

/-!
# Requests that change places

A loader only compares the numbers of its requests. So where some of them have changed places, it does the same with
other numbers, unless a handle names one of these, or a task of one still runs. What it fetches, stores and gives out
does not depend on its requests at all.
-/
namespace ColorResolution

open Equiv (Perm)

/-- Two tellings of the same distinct numbers are told apart by a permutation that moves no other number. -/
theorem exists_perm_map {first second : List Nat} (perm : first.Perm second) (distinct : second.Nodup) :
    ∃ π : Perm Nat, first = second.map π ∧ ∀ id, id ∉ second → π id = id := by
  induction perm with
  | nil => exact ⟨.refl _, rfl, fun _ _ => rfl⟩
  | @cons a first second _ ih =>
    obtain ⟨π, same, others⟩ := ih distinct.of_cons
    have stays : π a = a := others a (List.nodup_cons.mp distinct).1
    refine ⟨π, by rw [List.map_cons, stays, same], fun id absent => others id fun member => ?_⟩
    exact absent (List.mem_cons_of_mem a member)
  | swap a b rest =>
    refine ⟨Equiv.swap a b, ?_, ?_⟩
    · have apart : ∀ id ∈ rest, Equiv.swap a b id = id := by
        intro id member
        obtain ⟨first, others⟩ := List.nodup_cons.mp distinct
        have second := (List.nodup_cons.mp others).1
        refine Equiv.swap_apply_of_ne_of_ne ?_ ?_
        · rintro rfl
          exact first (List.mem_cons_of_mem b member)
        · rintro rfl
          exact second member
      rw [List.map_cons, List.map_cons, Equiv.swap_apply_left, Equiv.swap_apply_right, List.map_congr_left apart,
        List.map_id']
    · intro id absent
      simp only [List.mem_cons, not_or] at absent
      exact Equiv.swap_apply_of_ne_of_ne absent.1 absent.2.1
  | @trans first second third _ perm ihFirst ihSecond =>
    obtain ⟨π, same, others⟩ := ihFirst (perm.nodup_iff.mpr distinct)
    obtain ⟨ρ, same', others'⟩ := ihSecond distinct
    refine ⟨ρ.trans π, ?_, ?_⟩
    · rw [same, same', List.map_map]
      rfl
    · intro id absent
      rw [Equiv.trans_apply, others' id absent, others id fun member => absent (perm.mem_iff.mp member)]

/-- A completion under its request's other number. -/
def Completion.renamed (π : Perm Nat) (c : Completion) : Completion := { c with id := π c.id }

def Report.renamed (π : Perm Nat) (r : Report) : Report := { r with fired := r.fired.map (Completion.renamed π) }

theorem Completion.renamed_of_fixed {π : Perm Nat} {c : Completion} (fixed : π c.id = c.id) : c.renamed π = c := by
  rw [renamed, fixed]

theorem Report.renamed_of_fixed {π : Perm Nat} {r : Report} (fixed : ∀ c ∈ r.fired, π c.id = c.id) :
    r.renamed π = r := by
  have same : r.fired.map (Completion.renamed π) = r.fired :=
    (List.map_congr_left fun c member => Completion.renamed_of_fixed (fixed c member)).trans (List.map_id _)
  rw [renamed, same]

namespace Loader

/-- Two loaders that differ in their requests at most. -/
structure Twin (l m : Loader) : Prop where
  resolver : l.resolver = m.resolver
  cache : l.cache = m.cache
  nextId : l.nextId = m.nextId
  waiting : l.waiting = m.waiting

/-- A loader does as another one whose requests have other numbers. -/
structure Renamed (π : Perm Nat) (l m : Loader) : Prop extends Twin l m where
  pending : l.pending.Perm (m.pending.map π)
  queue : l.queue = m.queue.map (Completion.renamed π)
  tasks : ∀ task ∈ m.waiting, π task.id = task.id
  later : ∀ id, m.nextId ≤ id → π id = id

/-! ## What does not look at the requests -/

section
variable {l m : Loader}

theorem Twin.fetchNow (twin : Twin l m) (replies : Replies) (url : String) :
    l.fetchNow replies url =
      ({ l with cache := (m.fetchNow replies url).1.cache }, (m.fetchNow replies url).2) := by
  obtain ⟨resolver, cache, next, pending, waiting, queue⟩ := l
  obtain ⟨-, rfl, -, -⟩ := twin
  simp only [Loader.fetchNow, cached?, store]
  split
  · rfl
  · split <;> rfl

theorem Twin.resolveNow (twin : Twin l m) (replies : Replies) (url : String) :
    l.resolveNow replies url =
      ({ l with cache := (m.resolveNow replies url).1.cache }, (m.resolveNow replies url).2) := by
  simp only [Loader.resolveNow, twin.fetchNow, twin.resolver]

theorem Twin.resolveAllNow (twin : Twin l m) (replies : Replies) (urls : List String) :
    l.resolveAllNow replies urls =
      ({ l with cache := (m.resolveAllNow replies urls).1.cache }, (m.resolveAllNow replies urls).2) := by
  induction urls generalizing l m with
  | nil => simp only [Loader.resolveAllNow, ← twin.cache]
  | cons url rest ih =>
    obtain ⟨cache, frame⟩ := resolveNow_frame replies url m
    have still : Twin { l with cache := (m.resolveNow replies url).1.cache } (m.resolveNow replies url).1 := by
      rw [frame]
      exact ⟨twin.resolver, rfl, twin.nextId, twin.waiting⟩
    simp only [Loader.resolveAllNow, twin.resolveNow, ih still]

/-- Actions that neither have to do with requests nor tell how many there are. -/
theorem Twin.act (twin : Twin l m) (env : Environment) (self : Nat) {action : Action}
    (noRequest : ∀ url, action ≠ .request url) (noCancel : ∀ handle, action ≠ .cancel handle)
    (other : ¬ action.Dispatches) (noCount : action ≠ .describe) :
    l.act env self action =
      ({ l with cache := (m.act env self action).1.cache }, (m.act env self action).2) := by
  cases action with
  | request url => exact absurd rfl (noRequest url)
  | cancel handle => exact absurd rfl (noCancel handle)
  | dispatchReady => exact absurd (.inl rfl) other
  | dispatchNext => exact absurd (.inr (.inl rfl)) other
  | dispatchAll => exact absurd (.inr (.inr rfl)) other
  | describe => exact absurd rfl noCount
  | resolveUrl url => simp only [Loader.act, twin.resolveNow]
  | resolveUrls urls => simp only [Loader.act, twin.resolveAllNow]
  | fetch url => simp only [Loader.act, twin.fetchNow]
  | countPending => simp only [Loader.act, ← twin.cache]
  | resolve text => simp only [Loader.act, ← twin.cache, ← twin.resolver]
  | clearCache => simp only [Loader.act, cacheSize, twin.cache]
  | clearCached url => simp only [Loader.act, cacheSize, twin.cache]
  | countCached => simp only [Loader.act, cacheSize, ← twin.cache]

theorem Twin.symm (twin : Twin l m) : Twin m l :=
  ⟨twin.resolver.symm, twin.cache.symm, twin.nextId.symm, twin.waiting.symm⟩

theorem Twin.trans {n : Loader} (twin : Twin l m) (other : Twin m n) : Twin l n :=
  ⟨twin.resolver.trans other.resolver, twin.cache.trans other.cache, twin.nextId.trans other.nextId,
    twin.waiting.trans other.waiting⟩

theorem Dispatched.twin {fired : List Completion} (dispatched : Dispatched l fired m) : Twin m l := by
  obtain ⟨_, _, _, frame⟩ := dispatched
  rw [frame]
  exact ⟨rfl, rfl, rfl, rfl⟩

theorem twin_cancel (idle : l.waiting = []) (id : Nat) : Twin (l.cancel id).1 l := by
  unfold cancel
  split
  · simp only [idle, List.any_nil, List.filter_nil, Bool.false_eq_true, if_false]
    exact ⟨rfl, rfl, rfl, idle.symm⟩
  · exact ⟨rfl, rfl, rfl, rfl⟩

/-! ### Without a runtime

No task is left, and none will be. So even a loader that is asked to cancel other requests stays alike.
-/

theorem Twin.act_halted (twin : Twin l m) (idle : m.waiting = []) {env : Environment} (ended : env.running = false)
    (self : Nat) (action : Action) :
    Twin (l.act env self action).1 (m.act env self action).1 ∧
      action.issued (l.act env self action).2.outcome = action.issued (m.act env self action).2.outcome := by
  by_cases dispatches : action.Dispatches
  · have first := (act_dispatched env self l dispatches).twin
    have second := (act_dispatched env self m dispatches).twin
    refine ⟨(first.trans twin).trans second.symm, ?_⟩
    rcases dispatches with rfl | rfl | rfl <;> rfl
  · cases action with
    | request url =>
      simp only [Loader.act, request_halted env ended, Loader.complete, Action.issued, twin.nextId]
      exact ⟨⟨twin.resolver, twin.cache, rfl, twin.waiting⟩, trivial⟩
    | cancel handle =>
      refine ⟨?_, rfl⟩
      simp only [Loader.act]
      split
      · exact ((twin_cancel (twin.waiting.trans idle) handle.id).trans twin).trans (twin_cancel idle handle.id).symm
      · exact twin
    | describe =>
      simp only [Loader.act, Action.issued]
      exact ⟨twin, trivial⟩
    | _ =>
      obtain ⟨cache, frame⟩ := act_quiet env self m (by simp) (by simp) dispatches
      rw [twin.act env self (by simp) (by simp) dispatches (by simp), frame]
      exact ⟨⟨twin.resolver, rfl, twin.nextId, twin.waiting⟩, rfl⟩

theorem Twin.undergo_halted (twin : Twin l m) (idle : m.waiting = []) {env : Environment} (ended : env.running = false)
    (turn turn' : Nat → Nat) (self : Nat) (e : Event) :
    Option.Rel Twin (l.undergo turn env self e) (m.undergo turn' env self e) := by
  have idle' := twin.waiting.trans idle
  cases e with
  | fetchEnds j id =>
    refine .some ?_
    split
    · rw [settleWhere_idle _ idle, settleWhere_idle _ idle']
      exact twin
    · exact twin
  | step s =>
    cases s with
    | act j action =>
      refine .some ?_
      split
      · exact (twin.act_halted idle ended self action).1
      · exact twin
    | setReply url reply => exact .some twin
    | release url =>
      rw [Loader.undergo, Loader.undergo, release_idle env url idle, release_idle env url idle']
      exact .some twin
    | shutdown =>
      rw [Loader.undergo, Loader.undergo, abortAll_idle turn idle', abortAll_idle turn' idle]
      exact .some twin
    | drop j =>
      simp only [Loader.undergo]
      split
      · exact .none
      · exact .some twin

end

/-! ## Dispatching under other numbers -/

section
variable {π : Perm Nat} {pending others : List Nat}

theorem mem_renamed_iff (same : pending.Perm (others.map π)) (id : Nat) : π id ∈ pending ↔ id ∈ others := by
  rw [same.mem_iff, List.mem_map_of_injective π.injective]

theorem erase_renamed (same : pending.Perm (others.map π)) (id : Nat) :
    (pending.erase (π id)).Perm ((others.erase id).map π) := by
  rw [List.map_erase π.injective]
  exact same.erase (π id)

theorem firstWanted_renamed (same : pending.Perm (others.map π)) (queue : List Completion) :
    firstWanted pending (queue.map (Completion.renamed π)) =
      (firstWanted others queue).map fun (c, rest) => (c.renamed π, rest.map (Completion.renamed π)) := by
  induction queue with
  | nil => rfl
  | cons c rest ih =>
    by_cases wanted : c.id ∈ others
    · have wanted' : (c.renamed π).id ∈ pending := (mem_renamed_iff same c.id).mpr wanted
      rw [List.map_cons, firstWanted, firstWanted, if_pos wanted, if_pos wanted']
      rfl
    · have stale : (c.renamed π).id ∉ pending := fun member => wanted ((mem_renamed_iff same c.id).mp member)
      rw [List.map_cons, firstWanted, firstWanted, if_neg wanted, if_neg stale, ih]

theorem fireQueued_renamed (same : pending.Perm (others.map π)) (queue : List Completion) :
    (fireQueued pending (queue.map (Completion.renamed π))).1 =
        (fireQueued others queue).1.map (Completion.renamed π) ∧
      (fireQueued pending (queue.map (Completion.renamed π))).2.Perm ((fireQueued others queue).2.map π) := by
  induction queue generalizing pending others with
  | nil => exact ⟨rfl, same⟩
  | cons c rest ih =>
    by_cases wanted : c.id ∈ others
    · have wanted' : (c.renamed π).id ∈ pending := (mem_renamed_iff same c.id).mpr wanted
      obtain ⟨fired, left⟩ := ih (erase_renamed same c.id)
      rw [List.map_cons, fireQueued_wanted wanted, fireQueued_wanted wanted']
      exact ⟨congrArg (c.renamed π :: ·) fired, left⟩
    · have stale : (c.renamed π).id ∉ pending := fun member => wanted ((mem_renamed_iff same c.id).mp member)
      rw [List.map_cons, fireQueued_stale wanted, fireQueued_stale stale]
      exact ih same

end

/-- What came of waiting for a completion, under the other number. -/
def Dispatch.renamed (π : Perm Nat) : Dispatch → Dispatch
  | .fired c => .fired (c.renamed π)
  | outcome => outcome

namespace Renamed

variable {π : Perm Nat} {l m : Loader}

theorem refl (l : Loader) : Renamed (.refl _) l l where
  resolver := rfl
  cache := rfl
  nextId := rfl
  waiting := rfl
  pending := by rw [Equiv.coe_refl, List.map_id]
  queue := (List.map_id _).symm
  tasks := fun _ _ => rfl
  later := fun _ _ => rfl

/-- Nothing but requests and their completions changes. -/
theorem of_dispatched (renamed : Renamed π l m) (queue : List Completion) {pending pending' : List Nat}
    (same : pending.Perm (pending'.map π)) :
    Renamed π { l with pending := pending, queue := queue.map (Completion.renamed π) }
      { m with pending := pending', queue := queue } where
  resolver := renamed.resolver
  cache := renamed.cache
  nextId := renamed.nextId
  waiting := renamed.waiting
  pending := same
  queue := rfl
  tasks := renamed.tasks
  later := renamed.later

theorem pending_length (renamed : Renamed π l m) : l.pending.length = m.pending.length := by
  rw [renamed.pending.length_eq, List.length_map]

theorem dispatchReady (renamed : Renamed π l m) :
    Renamed π l.dispatchReady.1 m.dispatchReady.1 ∧
      l.dispatchReady.2 = m.dispatchReady.2.map (Completion.renamed π) := by
  obtain ⟨fired, left⟩ := fireQueued_renamed renamed.pending m.queue
  rw [← renamed.queue] at fired left
  exact ⟨renamed.of_dispatched [] left, fired⟩

theorem dispatchNext (renamed : Renamed π l m) :
    Renamed π l.dispatchNext.1 m.dispatchNext.1 ∧ l.dispatchNext.2 = m.dispatchNext.2.renamed π := by
  have empty : l.pending.isEmpty = m.pending.isEmpty := by
    rw [Bool.eq_iff_iff, List.isEmpty_iff_length_eq_zero, List.isEmpty_iff_length_eq_zero, renamed.pending_length]
  have found := firstWanted_renamed renamed.pending m.queue
  rw [← renamed.queue] at found
  unfold Loader.dispatchNext
  rw [empty, found]
  split
  · exact ⟨renamed, rfl⟩
  · cases firstWanted m.pending m.queue with
    | none => exact ⟨renamed.of_dispatched [] renamed.pending, rfl⟩
    | some first => exact ⟨renamed.of_dispatched first.2 (erase_renamed renamed.pending first.1.id), rfl⟩

theorem dispatchUpTo (renamed : Renamed π l m) (n : Nat) :
    Renamed π (l.dispatchUpTo n).1 (m.dispatchUpTo n).1 ∧
      (l.dispatchUpTo n).2.1 = (m.dispatchUpTo n).2.1.map (Completion.renamed π) ∧
      (l.dispatchUpTo n).2.2 = (m.dispatchUpTo n).2.2 := by
  induction n generalizing l m with
  | zero => exact ⟨renamed, rfl, rfl⟩
  | succ n ih =>
    obtain ⟨next, outcome⟩ := renamed.dispatchNext
    unfold Loader.dispatchUpTo
    cases call : l.dispatchNext with
    | mk l' first =>
      cases call' : m.dispatchNext with
      | mk m' second =>
        rw [call, call'] at next outcome
        cases outcome
        cases second with
        | fired c =>
          obtain ⟨last, fired, blocked⟩ := ih next
          exact ⟨last, congrArg (c.renamed π :: ·) fired, blocked⟩
        | idle => exact ⟨next, rfl, rfl⟩
        | blocked => exact ⟨next, rfl, rfl⟩

theorem dispatchAll (renamed : Renamed π l m) :
    Renamed π l.dispatchAll.1 m.dispatchAll.1 ∧
      l.dispatchAll.2.1 = m.dispatchAll.2.1.map (Completion.renamed π) ∧ l.dispatchAll.2.2 = m.dispatchAll.2.2 := by
  rw [Loader.dispatchAll, Loader.dispatchAll, renamed.pending_length]
  exact renamed.dispatchUpTo _

/-! ## Requests under other numbers -/

theorem complete (renamed : Renamed π l m) {id : Nat} (fixed : π id = id) (result : Except ColorError Color) :
    Renamed π (l.complete id result) (m.complete id result) where
  resolver := renamed.resolver
  cache := renamed.cache
  nextId := renamed.nextId
  waiting := renamed.waiting
  pending := renamed.pending
  queue := by
    have same : Completion.renamed π ⟨id, result⟩ = ⟨id, result⟩ := Completion.renamed_of_fixed fixed
    rw [Loader.complete, Loader.complete, List.map_append, renamed.queue, List.map_singleton, same]
  tasks := renamed.tasks
  later := renamed.later

theorem withCache (renamed : Renamed π l m) (cache : Option Cache) :
    Renamed π { l with cache := cache } { m with cache := cache } where
  resolver := renamed.resolver
  cache := rfl
  nextId := renamed.nextId
  waiting := renamed.waiting
  pending := renamed.pending
  queue := renamed.queue
  tasks := renamed.tasks
  later := renamed.later

theorem settle (renamed : Renamed π l m) {id : Nat} (fixed : π id = id) (url : String) (answer : Answer) :
    Renamed π (l.settle id url answer) (m.settle id url answer) := by
  obtain ⟨resolver, cache, nextId, pending, waiting, queue⟩ := l
  obtain rfl : resolver = m.resolver := renamed.resolver
  obtain rfl : cache = m.cache := renamed.cache
  exact (renamed.withCache _).complete fixed _

theorem withWaiting (renamed : Renamed π l m) {waiting : List Waiting} (fixed : ∀ task ∈ waiting, π task.id = task.id) :
    Renamed π { l with waiting := waiting } { m with waiting := waiting } where
  resolver := renamed.resolver
  cache := renamed.cache
  nextId := renamed.nextId
  waiting := rfl
  pending := renamed.pending
  queue := renamed.queue
  tasks := fixed
  later := renamed.later

theorem settleWhere (renamed : Renamed π l m) (p : Waiting → Bool) : Renamed π (l.settleWhere p) (m.settleWhere p) := by
  have fold (tasks : List Waiting) (fixed : ∀ task ∈ tasks, π task.id = task.id) {l m : Loader}
      (renamed : Renamed π l m) :
      Renamed π (tasks.foldl (fun l w => l.settle w.id w.url w.answer) l)
        (tasks.foldl (fun l w => l.settle w.id w.url w.answer) m) := by
    induction tasks generalizing l m with
    | nil => exact renamed
    | cons task rest ih =>
      have first := renamed.settle (fixed task (List.mem_cons_self)) task.url task.answer
      exact ih (fun other member => fixed other (List.mem_cons_of_mem task member)) first
  have part (p : Waiting → Bool) : ∀ task ∈ m.waiting.filter p, π task.id = task.id :=
    fun task member => renamed.tasks task (List.mem_of_mem_filter member)
  rw [Loader.settleWhere, Loader.settleWhere, renamed.waiting]
  exact fold _ (part p) (renamed.withWaiting (part fun w => !p w))

theorem issue (renamed : Renamed π l m) :
    Renamed π { l with nextId := l.nextId + 1, pending := l.pending ++ [l.nextId] }
      { m with nextId := m.nextId + 1, pending := m.pending ++ [m.nextId] } where
  resolver := renamed.resolver
  cache := renamed.cache
  nextId := congrArg (· + 1) renamed.nextId
  waiting := renamed.waiting
  pending := by
    rw [List.map_append, List.map_singleton, renamed.later m.nextId (Nat.le_refl _), renamed.nextId]
    exact renamed.pending.append_right _
  queue := renamed.queue
  tasks := renamed.tasks
  later := fun id above => renamed.later id (Nat.le_of_succ_le above)

theorem request (renamed : Renamed π l m) (env : Environment) (url : String) :
    Renamed π (l.request env url).1 (m.request env url).1 ∧ (l.request env url).2 = (m.request env url).2 := by
  have fixed : π m.nextId = m.nextId := renamed.later m.nextId (Nat.le_refl _)
  obtain ⟨resolver, cache, nextId, pending, waiting, queue⟩ := l
  obtain rfl : resolver = m.resolver := renamed.resolver
  obtain rfl : cache = m.cache := renamed.cache
  obtain rfl : nextId = m.nextId := renamed.nextId
  obtain rfl : waiting = m.waiting := renamed.waiting
  have issued := renamed.issue
  simp only [Loader.request, cached?]
  split
  · exact ⟨issued.complete fixed _, rfl⟩
  · split
    · exact ⟨issued.complete fixed _, rfl⟩
    · split
      · refine ⟨issued.withWaiting fun task member => ?_, rfl⟩
        rcases List.mem_append.mp member with before | last
        · exact renamed.tasks task before
        · rw [List.mem_singleton.mp last]
          exact fixed
      · exact ⟨issued.settle fixed _ _, rfl⟩

theorem cancel (renamed : Renamed π l m) {id : Nat} (fixed : π id = id) :
    Renamed π (l.cancel id).1 (m.cancel id).1 ∧ (l.cancel id).2 = (m.cancel id).2 := by
  have member := mem_renamed_iff renamed.pending id
  have erased := erase_renamed renamed.pending id
  rw [fixed] at member erased
  by_cases pending : id ∈ m.pending
  · have part : ∀ task ∈ m.waiting.filter (fun w => w.id != id), π task.id = task.id :=
      fun task member => renamed.tasks task (List.mem_of_mem_filter member)
    have forgotten : Renamed π
        { l with pending := l.pending.erase id, waiting := m.waiting.filter fun w => w.id != id }
        { m with pending := m.pending.erase id, waiting := m.waiting.filter fun w => w.id != id } := by
      have taken := (renamed.of_dispatched m.queue erased).withWaiting part
      rwa [← renamed.queue] at taken
    rw [Loader.cancel, Loader.cancel, if_pos pending, if_pos (member.mpr pending), renamed.waiting]
    dsimp only
    split
    · exact ⟨forgotten.complete fixed _, rfl⟩
    · exact ⟨forgotten, rfl⟩
  · rw [cancel_foreign pending, cancel_foreign fun here => pending (member.mp here)]
    exact ⟨renamed, rfl⟩

/-! ## Steps under other numbers -/

theorem act_dispatches (renamed : Renamed π l m) (env : Environment) (self : Nat) {action : Action}
    (dispatches : action.Dispatches) :
    Renamed π (l.act env self action).1 (m.act env self action).1 ∧
      (l.act env self action).2 = (m.act env self action).2.renamed π := by
  rcases dispatches with rfl | rfl | rfl
  · obtain ⟨next, fired⟩ := renamed.dispatchReady
    refine ⟨next, ?_⟩
    simp only [Loader.act, fired, Report.renamed, List.length_map]
  · obtain ⟨next, outcome⟩ := renamed.dispatchNext
    simp only [Loader.act]
    cases call : l.dispatchNext with
    | mk l' first =>
      cases call' : m.dispatchNext with
      | mk m' second =>
        rw [call, call'] at next outcome
        cases outcome
        cases second <;> exact ⟨next, rfl⟩
  · obtain ⟨next, fired, blocked⟩ := renamed.dispatchAll
    refine ⟨next, ?_⟩
    simp only [Loader.act, fired, blocked, Report.renamed, List.length_map]

theorem act (renamed : Renamed π l m) (env : Environment) (self : Nat) (action : Action)
    (unmoved : ∀ handle, handle.loader = self → action = .cancel handle → π handle.id = handle.id) :
    Renamed π (l.act env self action).1 (m.act env self action).1 ∧
      (l.act env self action).2 = (m.act env self action).2.renamed π := by
  by_cases dispatches : action.Dispatches
  · exact renamed.act_dispatches env self dispatches
  · have silent : (m.act env self action).2.renamed π = (m.act env self action).2 :=
      Report.renamed_of_fixed (by simp [act_silent env self m dispatches])
    rw [silent]
    cases action with
    | request url =>
      obtain ⟨next, reached⟩ := renamed.request env url
      refine ⟨next, ?_⟩
      simp only [Loader.act, reached, renamed.nextId]
    | cancel handle =>
      simp only [Loader.act]
      split
      next own =>
        obtain ⟨next, answer⟩ := renamed.cancel (unmoved handle own rfl)
        rw [answer]
        exact ⟨next, rfl⟩
      next => exact ⟨renamed, rfl⟩
    | describe =>
      have same : l.described = m.described := by
        unfold described
        rw [renamed.resolver, renamed.pending_length]
      rw [Loader.act, Loader.act, same]
      exact ⟨renamed, rfl⟩
    | _ =>
      obtain ⟨cache, frame⟩ := act_quiet env self m (by simp) (by simp) dispatches
      rw [renamed.toTwin.act env self (by simp) (by simp) dispatches (by simp), frame]
      exact ⟨renamed.withCache cache, rfl⟩

/-- No event but the end of the runtime looks at the turns of the tasks, and without tasks it does not either. -/
theorem undergo (renamed : Renamed π l m) (turn turn' : Nat → Nat) (env : Environment) (self : Nat) (e : Event)
    (idle : e = .step .shutdown → m.waiting = [])
    (unmoved : ∀ handle, handle.loader = self → e = .step (.act self (.cancel handle)) → π handle.id = handle.id) :
    Option.Rel (Renamed π) (l.undergo turn env self e) (m.undergo turn' env self e) := by
  cases e with
  | fetchEnds j id =>
    refine .some ?_
    split
    · exact renamed.settleWhere _
    · exact renamed
  | step s =>
    cases s with
    | act j action =>
      refine .some ?_
      split
      next same =>
        subst same
        exact (renamed.act env j action fun handle own asked => unmoved handle own (asked ▸ rfl)).1
      next => exact renamed
    | setReply url reply => exact .some renamed
    | release url => exact .some (renamed.settleWhere _)
    | shutdown =>
      have none := idle rfl
      refine .some ?_
      rw [abortAll_idle turn (renamed.waiting.trans none), abortAll_idle turn' none]
      exact renamed
    | drop j =>
      simp only [Loader.undergo]
      split
      · exact .none
      · exact .some renamed

/-- Where the tasks of equal loaders are ended in two orders, their requests have changed places. -/
theorem exists_of_abortAll {k : Nat} {h : History} (renamed : Renamed (.refl _) l m) (kept : Kept k h m)
    (turn turn' : Nat → Nat) :
    ∃ π, Renamed π (l.abortAll turn) (m.abortAll turn') ∧
      (inTurn turn l.waiting).map Waiting.id = ((inTurn turn' m.waiting).map Waiting.id).map π ∧
      ∀ id, id ∉ (inTurn turn' m.waiting).map Waiting.id → π id = id := by
  have order := (inTurn_perm turn l.waiting).map Waiting.id
  have order' := (inTurn_perm turn' m.waiting).map Waiting.id
  rw [renamed.waiting] at order ⊢
  obtain ⟨π, moves, others⟩ := exists_perm_map (order.trans order'.symm) (order'.nodup_iff.mpr kept.unfinished_nodup)
  have task (id : Nat) : id ∈ (inTurn turn' m.waiting).map Waiting.id ↔ id ∈ m.unfinished := order'.mem_iff
  refine ⟨π, ⟨⟨renamed.resolver, renamed.cache, renamed.nextId, rfl⟩, ?_, ?_, by simp [Loader.abortAll], ?_⟩, moves,
    others⟩
  · -- the requests that change places are pending, all of them
    have same : (m.pending.map π).Perm m.pending := by
      refine (List.perm_ext_iff_of_nodup (kept.pending_nodup.map π.injective) kept.pending_nodup).mpr fun id => ?_
      rw [List.mem_map]
      constructor
      · rintro ⟨other, pending, rfl⟩
        by_cases moved : other ∈ (inTurn turn' m.waiting).map Waiting.id
        · have member := List.mem_map_of_mem (f := π) moved
          rw [← moves] at member
          exact kept.waiting _ (order.mem_iff.mp member)
        · rwa [others other moved]
      · intro pending
        by_cases moved : id ∈ m.unfinished
        · have member := order.mem_iff.mpr moved
          rw [moves] at member
          obtain ⟨other, isTask, same⟩ := List.mem_map.mp member
          exact ⟨other, kept.waiting _ ((task other).mp isTask), same⟩
        · exact ⟨id, pending, others id fun member => moved ((task id).mp member)⟩
    have equal := renamed.pending
    rw [Equiv.coe_refl, List.map_id] at equal
    exact equal.trans same.symm
  · -- what is queued belongs to requests without a task
    have stays : m.queue.map (Completion.renamed π) = m.queue := by
      refine (List.map_congr_left fun c queued => ?_).trans (List.map_id _)
      refine Completion.renamed_of_fixed (others c.id fun moved => ?_)
      have isTask := (task c.id).mp moved
      exact (kept.mem_queued_iff (kept.waiting _ isTask)).mp (List.mem_map_of_mem queued) isTask
    have equal : l.queue = m.queue := renamed.queue.trans (List.map_id _)
    have aborts : ((inTurn turn m.waiting).map fun w => Completion.abort w.id) =
        ((inTurn turn' m.waiting).map fun w => Completion.abort w.id).map (Completion.renamed π) := by
      have both := congrArg (List.map Completion.abort) moves
      rw [List.map_map, List.map_map] at both
      rw [List.map_map]
      refine both.trans ?_
      rw [List.map_map]
      rfl
    change l.queue ++ (inTurn turn l.waiting).map (fun w => Completion.abort w.id) =
      (m.queue ++ (inTurn turn' m.waiting).map fun w => Completion.abort w.id).map _
    rw [List.map_append, stays, equal, renamed.waiting, aborts]
  · intro id above
    refine others id fun moved => ?_
    have issued := kept.issued_of_pending (kept.waiting id ((task id).mp moved))
    rw [kept.numbered, List.mem_range] at issued
    exact absurd above (Nat.not_le_of_lt issued)

end Renamed

end Loader

end ColorResolution
