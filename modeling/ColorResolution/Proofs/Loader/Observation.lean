import ColorResolution.Proofs.Loader.History

/-!
# What is observed of a world

What an event does and shows is said by three equations: what becomes of the environment, what becomes of the loader at
a place, and the report. The report of an action depends on the environment and on the loader that was asked, and on
nothing else. Observed from a place are the event, its report and the counts of the loader there.
-/
namespace ColorResolution

/-- The numbers by which a loader is known: its pending requests, and its cached texts if it has a cache. -/
def Loader.counts (l : Loader) : Nat × Option Nat := (l.pending.length, l.cache.map Table.size)

/-- The counts of the loader at a place; a dropped one has none. -/
def World.counts (w : World) (k : Nat) : Option (Nat × Option Nat) := (w.loader? k).map Loader.counts

/-- What is observed of a moment from the place `k`. -/
def Moment.seen (k : Nat) (m : Moment) : Event × Report × Option (Nat × Option Nat) :=
  (m.event, m.report, m.after.counts k)

/-- What becomes of the replies in force, of their gates and of the runtime. -/
def Environment.undergo (env : Environment) : Event → Environment
  | .step (.setReply url reply) =>
    { env with replies := env.replies.insert url reply, gates := env.gates.insert url (env.gate url + 1) }
  | .step .shutdown => { env with running := false }
  | _ => env

/-- What an event shows, given the environment and the loader at each place. -/
def Environment.report (env : Environment) (loader? : Nat → Option Loader) : Event → Report
  | .step (.act k action) => (loader? k).elim (World.silent .noLoader) fun l => (l.act env k action).2
  | _ => World.silent .done

theorem Event.action?_eq_some_iff {k : Nat} {e : Event} {action : Action} :
    e.action? k = some action ↔ e = .step (.act k action) := by
  cases e with
  | fetchEnds j id => simp [action?]
  | step s =>
    cases s with
    | act j other => by_cases same : j = k <;> simp [action?, same]
    | _ => simp [action?]

namespace World

theorem environment_occur (w : World) (e : Event) : (w.occur e).1.environment = w.environment.undergo e := by
  cases e with
  | fetchEnds k id =>
    simp only [occur]
    split <;> rfl
  | step s =>
    cases s with
    | act k action =>
      simp only [occur, step]
      split <;> rfl
    | _ => rfl

theorem runtime_occur (w : World) (e : Event) : (w.occur e).1.runtime = w.runtime := by
  cases e with
  | fetchEnds k id =>
    simp only [occur]
    split <;> rfl
  | step s =>
    cases s with
    | act k action =>
      simp only [occur, step]
      split <;> rfl
    | _ => rfl

theorem spawned_occur (w : World) (e : Event) :
    (w.occur e).1.spawned =
      match e with
      | .step (.act k action) => (w.loader? k).elim w.spawned fun l => w.spawnedBy k l action
      | _ => w.spawned := by
  cases e with
  | fetchEnds k id =>
    simp only [occur]
    split <;> rfl
  | step s =>
    cases s with
    | act k action => cases alive : w.loader? k <;> simp [occur, step, alive]
    | _ => rfl

theorem report_occur (w : World) (e : Event) : (w.occur e).2 = w.environment.report w.loader? e := by
  cases e with
  | fetchEnds k id =>
    simp only [occur]
    split <;> rfl
  | step s =>
    cases s with
    | act k action => cases alive : w.loader? k <;> simp [occur, step, Environment.report, alive]
    | _ => rfl

theorem loader?_occur_bind (w : World) (k : Nat) (e : Event) :
    (w.occur e).1.loader? k = (w.loader? k).bind fun l => l.undergo (w.turn k) w.environment k e := by
  cases alive : w.loader? k with
  | none => exact loader?_occur_none alive e
  | some l => exact loader?_occur alive e

/-! ### The step of one loader -/

/-- The world with another loader at a place. -/
def put (w : World) (k : Nat) (l : Loader) : World := { w with loaders := w.loaders.set k (some l) }

variable {w : World} {k : Nat} {l : Loader}

@[simp] theorem put_put (w : World) (k : Nat) (l m : Loader) : (w.put k l).put k m = w.put k m := by
  simp [put]

theorem put_self (alive : w.loader? k = some l) : w.put k l = w := by
  have inside := inside_of_loader? alive
  have entry : w.loaders[k] = some l := by simpa [loader?, inside] using alive
  have same : w.loaders.set k (some l) = w.loaders := by rw [← entry, List.set_getElem_self]
  simp only [put, same]

theorem loader?_put (alive : w.loader? k = some l) (m : Loader) : (w.put k m).loader? k = some m := by
  rw [put, loader?_mk, loader?_set k _ (inside_of_loader? alive), if_pos rfl]

theorem loader?_put_ne {j : Nat} (other : j ≠ k) (l : Loader) : (w.put j l).loader? k = w.loader? k := by
  rw [put, loader?_mk, List.getElem?_set_ne other, loader?]

/-- An action that spawns no task changes the loader and nothing else. -/
theorem step_act_eq (alive : w.loader? k = some l) (action : Action) (quiet : w.spawnedBy k l action = w.spawned) :
    w.step (.act k action) = (w.put k (l.act w.environment k action).1, (l.act w.environment k action).2) := by
  simp only [step, alive, put, quiet]

end World

end ColorResolution
