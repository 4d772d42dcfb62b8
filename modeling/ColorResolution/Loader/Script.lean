import ColorResolution.Loader.World

/-!
# Scripts

A script is a list of commands to a world. It numbers its requests through all loaders, names them by these numbers and
is shown the fired callbacks by them; beside each report it is shown how many requests the loader in question has
pending and how many texts it has cached.

Commands are the calls that users of a `ColorLoader` and its `CachingFetcher` make, `cached_len` among them.
-/
namespace ColorResolution.Script

/-- A command: a step, the cancellation of a request by its number, or a step that concerns no loader but is followed by
a look at one. -/
inductive Command where
  | act (loader : Nat) (action : Action)
  | cancel (loader request : Nat)
  | shared (loader : Nat) (step : Step)

/-- The loader that a command is about. -/
def Command.loader : Command → Nat
  | .act k _ => k
  | .cancel k _ => k
  | .shared k _ => k

/-- What a script is shown after a command. -/
structure Entry where
  outcome : Outcome
  request : Option Nat
  fired : List (Nat × Except ColorError Color)
  fetched : List String
  pending : Option Nat
  cached : Option Nat

/-- A world, and the handles of the script's requests in their order. -/
structure State where
  world : World
  handles : List Handle

/-- The number of a loader's request. -/
def State.number (s : State) (loader id : Nat) : Nat :=
  s.handles.findIdx fun h => h.loader == loader && h.id == id

/-- The step of a command. The number of no request stands for the handle of no loader. -/
def State.step (s : State) : Command → Step
  | .act k action => .act k action
  | .cancel k n => .act k (.cancel (s.handles.getD n ⟨s.world.loaders.length, 0, ""⟩))
  | .shared _ step => step

/-- Carries out a command. -/
def State.command (s : State) (c : Command) : State × Entry :=
  let (world, report) := s.world.step (s.step c)
  let handles :=
    match report.outcome with
    | .issued handle => s.handles ++ [handle]
    | _ => s.handles
  let next : State := ⟨world, handles⟩
  let request :=
    match report.outcome with
    | .issued _ => some s.handles.length
    | _ => none
  let alive := world.loader? c.loader
  (next, {
    outcome := report.outcome
    request := request
    fired := report.fired.map fun done => (next.number c.loader done.id, done.result)
    fetched := report.fetched
    pending := alive.map fun l => l.pending.length
    cached := alive.bind fun l => l.cache.map Table.size })

/-- Carries out commands one after another. -/
def run (s : State) : List Command → State × List Entry
  | [] => (s, [])
  | c :: rest =>
    let (next, entry) := s.command c
    let (last, entries) := run next rest
    (last, entry :: entries)

/-- How many callbacks fire while all loaders of a world are dropped. -/
def firedByDropping (w : World) : Nat :=
  let (_, reports) := w.run ((List.range w.loaders.length).map .drop)
  (reports.flatMap fun r => r.fired).length

/-- Carries out the commands on a world: what was shown, and how many callbacks fired when the loaders were dropped at
the end. -/
def play (w : World) (commands : List Command) : List Entry × Nat :=
  let (last, entries) := run ⟨w, []⟩ commands
  (entries, firedByDropping last.world)

end ColorResolution.Script
