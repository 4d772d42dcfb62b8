import ColorResolution.Fetch.Reply
import ColorResolution.Payload

/-!
# Loaders

A loader resolves URLs in the background. Every request gets the next number and is pending until its callback has
fired or it has been cancelled. The task of a request runs at once: it ends, or it waits at the gate of the reply that
it began with. However a task ends, it puts one completion into the loader's queue; completions are taken from the queue
in order, only by dispatching, and one whose request is no longer pending is dropped.

Embedded are `ColorLoader` with its `resolve_from_url`, `cancel`, `dispatch_ready`, `dispatch_next`, `dispatch_all`,
`complete`, `resolve_url` and `resolve_urls`, the `CompletionGuard` of a task, and the `fetch` of a `CachingFetcher`.
-/
namespace ColorResolution

/-- What all loaders share: the replies in force and the gates before them, and whether tasks still run. -/
structure Environment where
  replies : Replies
  gates : Table Nat
  running : Bool

/-- The gate before the reply in force for a URL. Every reply that a URL gets has a gate of its own, and these are
numbered. -/
def Environment.gate (env : Environment) (url : String) : Nat := (env.gates.get? url).getD 0

/-- A task at a gate, with the answer it will go on with. -/
structure Waiting where
  id : Nat
  url : String
  gate : Nat
  answer : Answer
  deriving DecidableEq, Repr

/-- Whether a task waits at a gate of a URL. -/
def Waiting.isAt (url : String) (gate : Nat) (w : Waiting) : Bool := w.url == url && w.gate == gate

theorem Waiting.isAt_iff {url : String} {gate : Nat} {w : Waiting} :
    w.isAt url gate = true ↔ w.url = url ∧ w.gate = gate := by
  simp [isAt]

/-- The end of a task. -/
structure Completion where
  id : Nat
  result : Except ColorError Color

structure Loader where
  resolver : Resolver
  cache : Option Cache
  nextId : Nat
  pending : List Nat
  waiting : List Waiting
  queue : List Completion

namespace Loader

/-- A loader without requests. -/
def fresh (resolver : Resolver) (cached : Bool) : Loader :=
  ⟨resolver, if cached then some Table.empty else none, 0, [], [], []⟩

/-- The one line by which a loader is told apart in a log; its fetcher is not shown. -/
def described (l : Loader) : String :=
  "ColorLoader \x7b resolver: " ++ l.resolver.described ++ ", pending: " ++ toString l.pending.length ++ ", .. \x7d"

/-- The text that the cache holds for a URL. -/
def cached? (l : Loader) (url : String) : Option String := l.cache.bind fun c => c.get? url

/-- The loader after the end of a URL's fetch has passed its cache. -/
def store (l : Loader) (url : String) (result : Except FetchError String) : Loader :=
  { l with cache := l.cache.map fun c => c.finish url result }

def complete (l : Loader) (id : Nat) (result : Except ColorError Color) : Loader :=
  { l with queue := l.queue ++ [⟨id, result⟩] }

/-- Ends the task of a request whose fetch got an answer. -/
def settle (l : Loader) (id : Nat) (url : String) (answer : Answer) : Loader :=
  (l.store url (answer.result url)).complete id (Payload.ofFetched l.resolver url (answer.result url))

/-- Issues a request and runs its task as far as it goes; with it comes the URL, if the fetcher was reached. -/
def request (env : Environment) (url : String) (l : Loader) : Loader × List String :=
  let issued := { l with nextId := l.nextId + 1, pending := l.pending ++ [l.nextId] }
  if !env.running then (issued.complete l.nextId (.error (.fetch .aborted)), [])
  else
    match l.cached? url with
    | some text => (issued.complete l.nextId (Payload.ofFetched l.resolver url (.ok text)), [])
    | none =>
      let reply := env.replies.reply url
      if reply.gated then ({ issued with waiting := l.waiting ++ [⟨l.nextId, url, env.gate url, reply.answer⟩] }, [url])
      else (issued.settle l.nextId url reply.answer, [url])

/-- Cancels a pending request: its callback is forgotten, and its task is ended if it still waits. -/
def cancel (id : Nat) (l : Loader) : Loader × Bool :=
  if id ∈ l.pending then
    let forgotten := { l with pending := l.pending.erase id, waiting := l.waiting.filter fun w => w.id != id }
    (if l.waiting.any fun w => w.id == id then forgotten.complete id (.error (.fetch .aborted)) else forgotten, true)
  else (l, false)

/-- Lets the waiting tasks of a kind go on, in the order in which they came to their gates. -/
def settleWhere (p : Waiting → Bool) (l : Loader) : Loader :=
  (l.waiting.filter p).foldl (fun l w => l.settle w.id w.url w.answer)
    { l with waiting := l.waiting.filter fun w => !p w }

/-- Opens the gate before a URL's reply. A task at the gate of an earlier reply does not notice. -/
def release (env : Environment) (url : String) (l : Loader) : Loader := l.settleWhere (Waiting.isAt url (env.gate url))

/-- Puts a task before the first one whose turn does not come earlier. -/
def queueUp (turn : Nat → Nat) (w : Waiting) : List Waiting → List Waiting
  | [] => [w]
  | a :: rest => if turn w.id ≤ turn a.id then w :: a :: rest else a :: queueUp turn w rest

/-- The tasks in the order of their turns. -/
def inTurn (turn : Nat → Nat) : List Waiting → List Waiting
  | [] => []
  | w :: rest => queueUp turn w (inTurn turn rest)

/-- Ends all waiting tasks, each at the turn of its request. -/
def abortAll (turn : Nat → Nat) (l : Loader) : Loader :=
  { l with
    waiting := []
    queue := l.queue ++ (inTurn turn l.waiting).map fun w => ⟨w.id, .error (.fetch .aborted)⟩ }

/-! ## Dispatching -/

/-- The first completion of a pending request, and the queue behind it. -/
def firstWanted (pending : List Nat) : List Completion → Option (Completion × List Completion)
  | [] => none
  | c :: rest => if c.id ∈ pending then some (c, rest) else firstWanted pending rest

/-- What waiting for one completion comes to. -/
inductive Dispatch where
  | fired (completion : Completion)
  | idle
  | blocked

/-- Fires the callback of the next completion. Without a pending request there is nothing to wait for; with one, but
without its completion, the wait would block. -/
def dispatchNext (l : Loader) : Loader × Dispatch :=
  if l.pending.isEmpty then (l, .idle)
  else
    match firstWanted l.pending l.queue with
    | some (c, rest) => ({ l with pending := l.pending.erase c.id, queue := rest }, .fired c)
    | none => ({ l with queue := [] }, .blocked)

/-- Dispatches up to `n` completions, one after another: what fired, and whether the last wait blocked. -/
def dispatchUpTo : Nat → Loader → Loader × List Completion × Bool
  | 0, l => (l, [], false)
  | n + 1, l =>
    match l.dispatchNext with
    | (next, .fired c) =>
      let (last, fired, blocked) := dispatchUpTo n next
      (last, c :: fired, blocked)
    | (next, .idle) => (next, [], false)
    | (next, .blocked) => (next, [], true)

/-- Dispatches until nothing is pending or the wait blocks; each callback takes one request off the pending ones. -/
def dispatchAll (l : Loader) : Loader × List Completion × Bool := dispatchUpTo (l.pending.length + 1) l

/-- Fires the callbacks of queued completions: what fired, and what is pending afterwards. -/
def fireQueued (pending : List Nat) : List Completion → List Completion × List Nat
  | [] => ([], pending)
  | c :: rest =>
    if c.id ∈ pending then
      let (fired, left) := fireQueued (pending.erase c.id) rest
      (c :: fired, left)
    else fireQueued pending rest

/-- Dispatches the completions that are there, without waiting. -/
def dispatchReady (l : Loader) : Loader × List Completion :=
  let (fired, left) := fireQueued l.pending l.queue
  ({ l with pending := left, queue := [] }, fired)

/-! ## Fetching without a request -/

/-- Fetches a URL through the loader's cache: the result, unless the reply stands behind a gate, and the URL, if the
fetcher was reached. -/
def fetchNow (replies : Replies) (url : String) (l : Loader) :
    Loader × Option (Except FetchError String) × List String :=
  match l.cached? url with
  | some text => (l, some (.ok text), [])
  | none =>
    let reply := replies.reply url
    if reply.gated then (l, none, [url])
    else (l.store url (reply.answer.result url), some (reply.answer.result url), [url])

/-- Resolves a URL without a request. -/
def resolveNow (replies : Replies) (url : String) (l : Loader) :
    Loader × Option (Except ColorError Color) × List String :=
  let (next, found, reached) := l.fetchNow replies url
  (next, found.map (Payload.ofFetched l.resolver url), reached)

/-- Resolves URLs in order, those behind gates excepted. -/
def resolveAllNow (replies : Replies) : List String → Loader →
    Loader × List (Option (Except ColorError Color)) × List String
  | [], l => (l, [], [])
  | url :: rest, l =>
    let (next, found, reached) := l.resolveNow replies url
    let (last, others, more) := resolveAllNow replies rest next
    (last, found :: others, reached ++ more)

end Loader

end ColorResolution
