import ColorResolution.Loader.Basic

/-!
# Loaders that share a task runtime and a fetcher

A world holds any number of loaders, the replies that their fetches get, and the task runtime with the tasks that were
spawned on it. A step is taken by one loader, or it changes a reply, opens a gate, ends the runtime or drops a loader.
After every step each task has run as far as it can. A report says what a step showed: its outcome, the callbacks that
fired and the URLs that reached the fetcher.

Embedded are the calls of several values of `ColorLoader`, each with a `CachingFetcher` or without, on one runtime. The
order in which a runtime ends its tasks is its own affair, so it is a parameter.
-/
namespace ColorResolution

/-- A request as its loader's caller knows it. -/
structure Handle where
  loader : Nat
  id : Nat
  url : String
  deriving DecidableEq, Repr

/-- What a loader can be asked to do. -/
inductive Action where
  | request (url : String)
  | cancel (handle : Handle)
  | dispatchReady
  | dispatchNext
  | dispatchAll
  | countPending
  | describe
  | resolveUrl (url : String)
  | resolveUrls (urls : List String)
  | fetch (url : String)
  | resolve (text : String)
  | clearCache
  | clearCached (url : String)
  | countCached
  deriving DecidableEq, Repr

inductive Step where
  | act (loader : Nat) (action : Action)
  | setReply (url : String) (reply : Reply)
  | release (url : String)
  | shutdown
  | drop (loader : Nat)
  deriving DecidableEq, Repr

/-- What a step answers. -/
inductive Outcome where
  | done
  | issued (handle : Handle)
  | flag (value : Bool)
  | count (value : Nat)
  | blocked
  | color (result : Except ColorError Color)
  | colors (results : List (Except ColorError Color))
  | body (result : Except FetchError String)
  | description (text : String)
  | noCache
  | noLoader

structure Report where
  outcome : Outcome
  fired : List Completion
  fetched : List String

/-- A task runtime. The number of its spawning gives a task its turn; when the runtime is shut down, the tasks that are
left are ended in the order of their turns. -/
structure Runtime where
  turn : Nat → Nat

/-- A runtime that keeps its tasks in four lists, by the remainders of their numbers, and empties one list after another.
The numbers have 64 bits. -/
def Runtime.sharded : Runtime := ⟨fun n => n % 4 * Nat.pow 2 64 + n⟩

/-- Loaders on a runtime. A spawned task is known by the place of its loader and the number of its request. -/
structure World where
  replies : Replies
  gates : Table Nat
  running : Bool
  runtime : Runtime
  spawned : List (Nat × Nat)
  loaders : List (Option Loader)

namespace Loader

def cacheSize (l : Loader) : Outcome :=
  match l.cache with
  | some c => .count c.size
  | none => .noCache

/-- Takes a loader's own step; `self` is the loader's place in its world. -/
def act (env : Environment) (self : Nat) (l : Loader) : Action → Loader × Report
  | .request url =>
    let (next, reached) := l.request env url
    (next, ⟨.issued ⟨self, l.nextId, url⟩, [], reached⟩)
  | .cancel handle =>
    if handle.loader = self then
      let (next, cancelled) := l.cancel handle.id
      (next, ⟨.flag cancelled, [], []⟩)
    else (l, ⟨.flag false, [], []⟩)
  | .dispatchReady =>
    let (next, fired) := l.dispatchReady
    (next, ⟨.count fired.length, fired, []⟩)
  | .dispatchNext =>
    match l.dispatchNext with
    | (next, .fired c) => (next, ⟨.flag true, [c], []⟩)
    | (next, .idle) => (next, ⟨.flag false, [], []⟩)
    | (next, .blocked) => (next, ⟨.blocked, [], []⟩)
  | .dispatchAll =>
    let (next, fired, blocked) := l.dispatchAll
    (next, ⟨if blocked then .blocked else .count fired.length, fired, []⟩)
  | .countPending => (l, ⟨.done, [], []⟩)
  | .describe => (l, ⟨.description l.described, [], []⟩)
  | .resolveUrl url =>
    let (next, found, reached) := l.resolveNow env.replies url
    (next, ⟨found.elim .blocked .color, [], reached⟩)
  | .resolveUrls urls =>
    let (next, found, reached) := l.resolveAllNow env.replies urls
    (next, ⟨(found.mapM id).elim .blocked .colors, [], reached⟩)
  | .fetch url =>
    let (next, found, reached) := l.fetchNow env.replies url
    (next, ⟨found.elim .blocked .body, [], reached⟩)
  | .resolve text => (l, ⟨.color (l.resolver.resolve text), [], []⟩)
  | .clearCache =>
    let next := { l with cache := l.cache.map fun _ => Table.empty }
    (next, ⟨next.cacheSize, [], []⟩)
  | .clearCached url =>
    let next := { l with cache := l.cache.map fun c => c.erase url }
    (next, ⟨next.cacheSize, [], []⟩)
  | .countCached => (l, ⟨l.cacheSize, [], []⟩)

end Loader

namespace World

/-- A world of fresh loaders, each with its own resolver, and with a cache or without. -/
def opened (runtime : Runtime) (replies : Replies) (loaders : List (Resolver × Bool)) : World :=
  ⟨replies, Table.empty, true, runtime, [], loaders.map fun (resolver, cached) => some (Loader.fresh resolver cached)⟩

def environment (w : World) : Environment := ⟨w.replies, w.gates, w.running⟩

/-- The loader at a place, unless it has been dropped. -/
def loader? (w : World) (k : Nat) : Option Loader := (w.loaders[k]?).bind id

/-- Changes every loader that lives. -/
def mapLoaders (w : World) (f : Nat → Loader → Loader) : World :=
  { w with loaders := w.loaders.mapIdx fun k entry => entry.map (f k) }

/-- The turn of a request's task. -/
def turn (w : World) (k id : Nat) : Nat := w.runtime.turn (w.spawned.idxOf (k, id))

/-- The spawned tasks after an action of a loader: a request spawns its task. -/
def spawnedBy (w : World) (k : Nat) (l : Loader) : Action → List (Nat × Nat)
  | .request _ => w.spawned ++ [(k, l.nextId)]
  | _ => w.spawned

def silent (outcome : Outcome) : Report := ⟨outcome, [], []⟩

def step (w : World) : Step → World × Report
  | .act k action =>
    match w.loader? k with
    | none => (w, silent .noLoader)
    | some l =>
      let (next, report) := l.act w.environment k action
      ({ w with loaders := w.loaders.set k (some next), spawned := w.spawnedBy k l action }, report)
  | .setReply url reply =>
    ({ w with replies := w.replies.insert url reply, gates := w.gates.insert url (w.environment.gate url + 1) },
      silent .done)
  | .release url => (w.mapLoaders fun _ => Loader.release w.environment url, silent .done)
  | .shutdown => ({ w.mapLoaders fun k => Loader.abortAll (w.turn k) with running := false }, silent .done)
  | .drop k => ({ w with loaders := w.loaders.set k none }, silent .done)

/-- Takes steps one after another. -/
def run (w : World) : List Step → World × List Report
  | [] => (w, [])
  | s :: rest =>
    let (next, report) := w.step s
    let (last, reports) := run next rest
    (last, report :: reports)

end World

end ColorResolution
