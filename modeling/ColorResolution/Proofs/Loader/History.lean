import ColorResolution.Loader.World
import ColorResolution.Proofs.Loader.Change

/-!
# Histories of worlds

A history is what happened in a world, moment by moment, with the world before and after each moment and the report of
it. Beside the steps there is one more event: the fetch of an unfinished task ends by itself, whatever its gate. Since
a gated reply keeps its task unfinished, tasks so end at any time, in any order and one by one; the runs of steps are
the histories without such events.

From a history are read the requests that a loader issued, those whose callback fired, those that were cancelled, those
that were discarded when the loader was dropped, and the completions that its tasks sent.
-/
namespace ColorResolution

/-- What can happen in a world. -/
inductive Event where
  | step (s : Step)
  | fetchEnds (loader id : Nat)
  deriving DecidableEq, Repr

/-- The action that an event asks of a loader. -/
def Event.action? (k : Nat) : Event → Option Action
  | .step (.act j action) => if j = k then some action else none
  | _ => none

/-- The number that an action gave out. -/
def Action.issued : Action → Outcome → List Nat
  | .request _, .issued handle => [handle.id]
  | _, _ => []

/-- The request that an action cancelled: that of the handle, if the answer was yes. -/
def Action.cancelled : Action → Outcome → List Nat
  | .cancel handle, .flag true => [handle.id]
  | _, _ => []

/-- The actions that may fire callbacks. -/
def Action.Dispatches (action : Action) : Prop :=
  action = .dispatchReady ∨ action = .dispatchNext ∨ action = .dispatchAll

namespace World

def occur (w : World) : Event → World × Report
  | .step s => w.step s
  | .fetchEnds k id =>
    match w.loader? k with
    | none => (w, silent .done)
    | some l => ({ w with loaders := w.loaders.set k (some (l.settleWhere fun t => t.id == id)) }, silent .done)

/-- The world after events. -/
def after (w : World) (events : List Event) : World := events.foldl (fun w e => (w.occur e).1) w

/-- The requests that a loader has pending; a dropped loader has none. -/
def pendingAt (w : World) (k : Nat) : List Nat := (w.loader? k).elim [] Loader.pending

end World

/-- The reply to each URL is of a kind, which may depend on the URL. -/
def Replies.All (kind : String → Reply → Prop) (replies : Replies) : Prop := ∀ url, kind url (replies.reply url)

/-- An event that brings only replies of a kind. -/
def Event.Brings (kind : String → Reply → Prop) : Event → Prop
  | .step (.setReply url reply) => kind url reply
  | _ => True

variable {kind : String → Reply → Prop}

theorem Replies.All.insert {replies : Replies} (all : replies.All kind) {url : String} {reply : Reply}
    (one : kind url reply) : Replies.All kind (replies.insert url reply) := by
  intro other
  rw [Replies.reply, Table.get?_insert]
  split
  next same => exact same ▸ one
  next => exact all other

theorem World.all_occur {w : World} {e : Event} (all : w.replies.All kind) (brings : e.Brings kind) :
    (w.occur e).1.replies.All kind := by
  cases e with
  | fetchEnds k id =>
    simp only [occur]
    split <;> exact all
  | step s =>
    cases s with
    | act k action =>
      simp only [occur, step]
      split <;> exact all
    | setReply url reply => exact all.insert brings
    | _ => exact all

theorem World.all_after {w : World} {events : List Event} (all : w.replies.All kind)
    (bring : ∀ e ∈ events, e.Brings kind) : (w.after events).replies.All kind := by
  induction events generalizing w with
  | nil => exact all
  | cons e rest ih => exact ih (all_occur all (bring e (by simp))) fun other member => bring other (by simp [member])

/-- An event, with the world before and after it and what it showed. -/
structure Moment where
  before : World
  event : Event
  report : Report
  after : World

abbrev History := List Moment

namespace Moment

/-- The moment at which an event occurs in a world. -/
def of (w : World) (e : Event) : Moment := ⟨w, e, (w.occur e).2, (w.occur e).1⟩

def issued (k : Nat) (m : Moment) : List Nat := (m.event.action? k).elim [] fun action => action.issued m.report.outcome

/-- The callbacks of a loader that fired; a report is that of the loader that was asked. -/
def fired (k : Nat) (m : Moment) : List Completion := (m.event.action? k).elim [] fun _ => m.report.fired

def cancelled (k : Nat) (m : Moment) : List Nat :=
  (m.event.action? k).elim [] fun action => action.cancelled m.report.outcome

/-- The pending requests that went with their loader. -/
def discarded (k : Nat) (m : Moment) : List Nat := if m.event = .step (.drop k) then m.before.pendingAt k else []

/-- What a loader's queue has gained beyond its former length. -/
def sent (k : Nat) (m : Moment) : List Completion :=
  match m.before.loader? k, m.after.loader? k with
  | some l, some next => next.queue.drop l.queue.length
  | _, _ => []

def effect (k : Nat) (m : Moment) : Loader.Effect := ⟨m.issued k, m.fired k, m.cancelled k, m.sent k⟩

end Moment

namespace History

def issued (k : Nat) (h : History) : List Nat := h.flatMap fun m => m.issued k

def fired (k : Nat) (h : History) : List Completion := h.flatMap fun m => m.fired k

def cancelled (k : Nat) (h : History) : List Nat := h.flatMap fun m => m.cancelled k

def discarded (k : Nat) (h : History) : List Nat := h.flatMap fun m => m.discarded k

def sent (k : Nat) (h : History) : List Completion := h.flatMap fun m => m.sent k

variable (k : Nat) (h : History) (m : Moment)

@[simp] theorem issued_concat : issued k (h ++ [m]) = h.issued k ++ m.issued k := by simp [issued]

@[simp] theorem fired_concat : fired k (h ++ [m]) = h.fired k ++ m.fired k := by simp [fired]

@[simp] theorem cancelled_concat : cancelled k (h ++ [m]) = h.cancelled k ++ m.cancelled k := by simp [cancelled]

@[simp] theorem discarded_concat : discarded k (h ++ [m]) = h.discarded k ++ m.discarded k := by simp [discarded]

@[simp] theorem sent_concat : sent k (h ++ [m]) = h.sent k ++ m.sent k := by simp [sent]

end History

/-- The history of events in a world. -/
def World.history (w : World) : List Event → History
  | [] => []
  | e :: rest => .of w e :: (w.occur e).1.history rest

namespace World

variable {w : World} {k : Nat} {l next : Loader}

theorem after_append (w : World) (first rest : List Event) : w.after (first ++ rest) = (w.after first).after rest :=
  List.foldl_append

theorem history_append (w : World) (first rest : List Event) :
    w.history (first ++ rest) = w.history first ++ (w.after first).history rest := by
  induction first generalizing w with
  | nil => rfl
  | cons e tail ih =>
    simp only [List.cons_append, history, ih]
    rfl

theorem history_concat (w : World) (events : List Event) (e : Event) :
    w.history (events ++ [e]) = w.history events ++ [.of (w.after events) e] := by
  rw [history_append]
  rfl

/-- A moment of a history is that of an event after the events before it. -/
theorem history_split {events : List Event} {first rest : History} {m : Moment}
    (split : w.history events = first ++ m :: rest) :
    ∃ earlier e later, events = earlier ++ e :: later ∧ first = w.history earlier ∧ m = .of (w.after earlier) e ∧
      rest = ((w.after earlier).occur e).1.history later := by
  induction events generalizing w first with
  | nil => simp [history] at split
  | cons e tail ih =>
    cases first with
    | nil =>
      obtain ⟨rfl, rfl⟩ := List.cons.inj split
      exact ⟨[], e, tail, rfl, rfl, rfl, rfl⟩
    | cons head first =>
      obtain ⟨rfl, restSplit⟩ := List.cons.inj split
      obtain ⟨earlier, e', later, rfl, rfl, rfl, rfl⟩ := ih restSplit
      exact ⟨e :: earlier, e', later, rfl, rfl, rfl, rfl⟩

theorem mem_history {events : List Event} {m : Moment} (member : m ∈ w.history events) :
    ∃ earlier e later, events = earlier ++ e :: later ∧ m = .of (w.after earlier) e := by
  obtain ⟨first, rest, split⟩ := List.append_of_mem member
  obtain ⟨earlier, e, later, events, _, moment, _⟩ := history_split split
  exact ⟨earlier, e, later, events, moment⟩

/-- Taking steps is a history in which nothing but steps occurs. -/
theorem run_eq_history (w : World) (steps : List Step) :
    w.run steps = (w.after (steps.map .step), (w.history (steps.map .step)).map Moment.report) := by
  induction steps generalizing w with
  | nil => rfl
  | cons s rest ih =>
    simp only [run, ih]
    rfl

/-! ## What becomes of one loader -/

theorem loader?_mk (replies : Replies) (gates : Table Nat) (running : Bool) (runtime : Runtime)
    (spawned : List (Nat × Nat)) (loaders : List (Option Loader)) :
    loader? ⟨replies, gates, running, runtime, spawned, loaders⟩ k = (loaders[k]?).bind id := rfl

theorem loader?_set (j : Nat) (entry : Option Loader) (inside : k < w.loaders.length) :
    ((w.loaders.set j entry)[k]?).bind id = if j = k then entry else w.loader? k := by
  by_cases same : j = k
  · subst same
    simp [inside]
  · simp [same, List.getElem?_set_ne same, loader?]

theorem loader?_mapLoaders (f : Nat → Loader → Loader) : (w.mapLoaders f).loader? k = (w.loader? k).map (f k) := by
  unfold mapLoaders
  rw [loader?_mk, List.getElem?_mapIdx]
  unfold loader?
  cases w.loaders[k]? <;> rfl

theorem inside_of_loader? (alive : w.loader? k = some l) : k < w.loaders.length := by
  apply Classical.byContradiction
  intro outside
  rw [loader?, List.getElem?_eq_none (by omega)] at alive
  cases alive

end World

/-- What becomes of the loader at a place, where the tasks have these turns. -/
def Loader.undergo (turn : Nat → Nat) (env : Environment) (self : Nat) (l : Loader) : Event → Option Loader
  | .step (.act k action) => some (if k = self then (l.act env self action).1 else l)
  | .step (.setReply _ _) => some l
  | .step (.release url) => some (l.release env url)
  | .step .shutdown => some (l.abortAll turn)
  | .step (.drop k) => if k = self then none else some l
  | .fetchEnds k id => some (if k = self then l.settleWhere fun t => t.id == id else l)

/-- The ways in which an event leaves a loader alive. -/
inductive Loader.Undergoes (env : Environment) (self : Nat) (l : Loader) : Event → Loader → Prop
  | acts (action : Action) : Undergoes env self l (.step (.act self action)) (l.act env self action).1
  | releases (url : String) :
    Undergoes env self l (.step (.release url)) (l.settleWhere (Waiting.isAt url (env.gate url)))
  | ends (id : Nat) : Undergoes env self l (.fetchEnds self id) (l.settleWhere fun t => t.id == id)
  | aborts (turn : Nat → Nat) : Undergoes env self l (.step .shutdown) (l.abortAll turn)
  | replies (url : String) (reply : Reply) : Undergoes env self l (.step (.setReply url reply)) l
  | otherActs {j : Nat} (action : Action) : j ≠ self → Undergoes env self l (.step (.act j action)) l
  | otherEnds {j : Nat} (id : Nat) : j ≠ self → Undergoes env self l (.fetchEnds j id) l
  | otherDropped {j : Nat} : j ≠ self → Undergoes env self l (.step (.drop j)) l

theorem Loader.undergoes_of_undergo {turn : Nat → Nat} {env : Environment} {self : Nat} {l next : Loader} {e : Event}
    (becomes : l.undergo turn env self e = some next) : Undergoes env self l e next := by
  cases e with
  | fetchEnds j id =>
    cases becomes
    split
    next same => exact same ▸ .ends id
    next other => exact .otherEnds id other
  | step s =>
    cases s with
    | act j action =>
      cases becomes
      split
      next same => exact same ▸ .acts action
      next other => exact .otherActs action other
    | setReply url reply =>
      cases becomes
      exact .replies url reply
    | release url =>
      cases becomes
      exact .releases url
    | shutdown =>
      cases becomes
      exact .aborts turn
    | drop j =>
      rw [undergo] at becomes
      split at becomes
      next => cases becomes
      next other =>
        cases becomes
        exact .otherDropped other

namespace World

variable {w : World} {k : Nat} {l next : Loader}

theorem loader?_occur (alive : w.loader? k = some l) (e : Event) :
    (w.occur e).1.loader? k = l.undergo (w.turn k) w.environment k e := by
  have inside := inside_of_loader? alive
  cases e with
  | fetchEnds j id =>
    by_cases same : j = k
    · subst same
      simp only [occur, alive, loader?_mk, loader?_set j _ inside, Loader.undergo, if_true]
    · simp only [occur, Loader.undergo, if_neg same]
      split
      · exact alive
      · rw [loader?_mk, loader?_set j _ inside, if_neg same, alive]
  | step s =>
    cases s with
    | act j action =>
      by_cases same : j = k
      · subst same
        simp only [occur, step, alive, loader?_mk, loader?_set j _ inside, Loader.undergo, if_true]
      · simp only [occur, step, Loader.undergo, if_neg same]
        split
        · exact alive
        · rw [loader?_mk, loader?_set j _ inside, if_neg same, alive]
    | setReply url reply => exact alive
    | release url => simp [occur, step, loader?_mapLoaders, alive, Loader.undergo]
    | shutdown =>
      change (w.mapLoaders fun k => Loader.abortAll (w.turn k)).loader? k = _
      simp [loader?_mapLoaders, alive, Loader.undergo]
    | drop j =>
      simp only [occur, step, Loader.undergo]
      rw [loader?_mk, loader?_set j _ inside, alive]

/-- A dropped loader does not come back, nor does one appear. -/
theorem loader?_occur_none (gone : w.loader? k = none) (e : Event) : (w.occur e).1.loader? k = none := by
  have untouched (j : Nat) (entry : Option Loader) (other : j = k → entry = none) :
      ((w.loaders.set j entry)[k]?).bind id = none := by
    by_cases inside : k < w.loaders.length
    · rw [loader?_set j entry inside]
      split
      next same => exact other same
      next => exact gone
    · rw [List.getElem?_eq_none (by simpa using inside)]
      rfl
  cases e with
  | fetchEnds j id =>
    simp only [occur]
    split
    · exact gone
    next alive => exact untouched j _ fun same => by rw [same, gone] at alive; cases alive
  | step s =>
    cases s with
    | act j action =>
      simp only [occur, step]
      split
      · exact gone
      next alive => exact untouched j _ fun same => by rw [same, gone] at alive; cases alive
    | setReply url reply => exact gone
    | release url => simp [occur, step, loader?_mapLoaders, gone]
    | shutdown =>
      change (w.mapLoaders fun k => Loader.abortAll (w.turn k)).loader? k = none
      simp [loader?_mapLoaders, gone]
    | drop j => exact untouched j none fun _ => rfl

/-- The report of an action is that of its loader. -/
theorem occur_report (alive : w.loader? k = some l) (action : Action) :
    (w.occur (.step (.act k action))).2 = (l.act w.environment k action).2 := by
  simp only [occur, step, alive]

end World

/-! ## The equations of a moment -/

namespace Loader

/-- Each dispatching action is a pass over the front of the queue. -/
theorem act_dispatched (env : Environment) (self : Nat) (l : Loader) {action : Action} (dispatches : action.Dispatches) :
    Dispatched l (l.act env self action).2.fired (l.act env self action).1 := by
  rcases dispatches with rfl | rfl | rfl
  · exact dispatchReady_spec l
  · cases call : l.dispatchNext with
    | mk next outcome =>
      cases outcome with
      | fired c =>
        simp only [act, call]
        exact (dispatchNext_fired call).1
      | idle =>
        obtain ⟨rfl, _⟩ := dispatchNext_idle call
        simp only [act, call]
        exact .refl _
      | blocked =>
        simp only [act, call]
        exact (dispatchNext_blocked call).1
  · exact dispatchAll_dispatched l

/-- Any other action fires nothing. -/
theorem act_silent (env : Environment) (self : Nat) (l : Loader) {action : Action} (other : ¬ action.Dispatches) :
    (l.act env self action).2.fired = [] := by
  cases action with
  | dispatchReady => exact absurd (.inl rfl) other
  | dispatchNext => exact absurd (.inr (.inl rfl)) other
  | dispatchAll => exact absurd (.inr (.inr rfl)) other
  | cancel handle =>
    simp only [act]
    split <;> rfl
  | _ => rfl

/-- Actions that are no requests, no cancellations and do not dispatch touch nothing but the cache. -/
theorem act_quiet (env : Environment) (self : Nat) (l : Loader) {action : Action}
    (noRequest : ∀ url, action ≠ .request url) (noCancel : ∀ handle, action ≠ .cancel handle)
    (other : ¬ action.Dispatches) : ∃ cache, (l.act env self action).1 = { l with cache := cache } := by
  cases action with
  | request url => exact absurd rfl (noRequest url)
  | cancel handle => exact absurd rfl (noCancel handle)
  | dispatchReady => exact absurd (.inl rfl) other
  | dispatchNext => exact absurd (.inr (.inl rfl)) other
  | dispatchAll => exact absurd (.inr (.inr rfl)) other
  | resolveUrl url => exact resolveNow_frame env.replies url l
  | resolveUrls urls => exact resolveAllNow_frame env.replies urls l
  | fetch url => exact fetchNow_frame env.replies url l
  | clearCache => exact ⟨_, rfl⟩
  | clearCached url => exact ⟨_, rfl⟩
  | _ => exact ⟨l.cache, rfl⟩

/-- A handle of another loader, or of a request that is not pending, cancels nothing. -/
theorem act_cancel_change (env : Environment) (self : Nat) (l : Loader) (handle : Handle)
    (tasksDistinct : l.unfinished.Nodup) :
    ∃ sent, Change l
      { cancelled := (Action.cancel handle).cancelled (l.act env self (.cancel handle)).2.outcome, sent := sent }
      (l.act env self (.cancel handle)).1 := by
  by_cases own : handle.loader = self
  · by_cases member : handle.id ∈ l.pending
    · obtain ⟨answer, sent, change⟩ := cancel_change member tasksDistinct
      refine ⟨sent, ?_⟩
      simp only [act, if_pos own, answer]
      exact change
    · refine ⟨[], ?_⟩
      simp only [act, if_pos own, cancel_foreign member]
      exact Change.quiet l l.cache
  · refine ⟨[], ?_⟩
    simp only [act, if_neg own]
    exact Change.quiet l l.cache

theorem act_change (env : Environment) (self : Nat) (l : Loader) (action : Action) (pendingDistinct : l.pending.Nodup)
    (tasksDistinct : l.unfinished.Nodup) :
    ∃ sent, Change l
      { issued := action.issued (l.act env self action).2.outcome,
        fired := (l.act env self action).2.fired,
        cancelled := action.cancelled (l.act env self action).2.outcome,
        sent := sent } (l.act env self action).1 := by
  by_cases dispatches : action.Dispatches
  · have change := (act_dispatched env self l dispatches).change pendingDistinct
    refine ⟨[], ?_⟩
    rcases dispatches with rfl | rfl | rfl <;> exact change
  · cases action with
    | request url => exact request_change env url l
    | cancel handle =>
      rw [act_silent env self l dispatches]
      exact act_cancel_change env self l handle tasksDistinct
    | _ =>
      obtain ⟨cache, frame⟩ := act_quiet env self l (by simp) (by simp) dispatches
      rw [act_silent env self l dispatches, frame]
      exact ⟨[], Change.quiet l cache⟩

/-- What a queue gains beyond its former length is what was sent. -/
theorem Change.drop_queue {l next : Loader} {effect : Effect} (change : Change l effect next) :
    next.queue.drop l.queue.length = effect.sent := by
  obtain ⟨taken, split, one, _⟩ := change.completions
  rcases one with nothing | nothing
  · rw [nothing, List.nil_append] at split
    rw [← split, List.drop_left]
  · rw [nothing, List.append_nil] at split
    rw [nothing, List.drop_eq_nil_iff, split, List.length_append]
    omega

end Loader

namespace Moment

variable {w : World} {k : Nat} {l next : Loader}

/-- An event that is no action of the loader shows nothing but what its tasks send. -/
theorem effect_eq {e : Event} {sent : List Completion} (idle : e.action? k = none) (alive : w.loader? k = some l)
    (lives : (w.occur e).1.loader? k = some next) (change : Loader.Change l { sent := sent } next) :
    Loader.Change l ((of w e).effect k) next := by
  have gained : (of w e).sent k = sent := by
    simp only [of, Moment.sent, alive, lives]
    exact change.drop_queue
  have shown : (of w e).effect k = { sent := sent } := by
    unfold effect
    rw [gained]
    simp only [of, issued, fired, cancelled, idle, Option.elim]
  exact shown ▸ change

theorem change (e : Event) (alive : w.loader? k = some l) (lives : (w.occur e).1.loader? k = some next)
    (pendingDistinct : l.pending.Nodup) (tasksDistinct : l.unfinished.Nodup) :
    Loader.Change l ((of w e).effect k) next := by
  have becomes := (World.loader?_occur alive e).symm.trans lives
  cases Loader.undergoes_of_undergo becomes with
  | acts action =>
    obtain ⟨sent, acted⟩ := Loader.act_change w.environment k l action pendingDistinct tasksDistinct
    have gained : (of w (.step (.act k action))).sent k = sent := by
      simp only [of, Moment.sent, alive, lives]
      exact acted.drop_queue
    unfold effect
    rw [gained]
    simp only [of, issued, fired, cancelled, Event.action?, if_true, Option.elim, World.occur_report alive action]
    exact acted
  | releases url =>
    obtain ⟨sent, settled⟩ := Loader.settleWhere_change (Waiting.isAt url (w.environment.gate url)) l
    exact effect_eq rfl alive lives settled
  | ends id =>
    obtain ⟨sent, settled⟩ := Loader.settleWhere_change (fun t => t.id == id) l
    exact effect_eq rfl alive lives settled
  | aborts turn =>
    obtain ⟨sent, aborted⟩ := Loader.abortAll_change turn l
    exact effect_eq rfl alive lives aborted
  | replies url reply => exact effect_eq rfl alive lives (.quiet l l.cache)
  | otherActs action other => exact effect_eq (by simp [Event.action?, other]) alive lives (.quiet l l.cache)
  | otherEnds id other => exact effect_eq rfl alive lives (.quiet l l.cache)
  | otherDropped other => exact effect_eq rfl alive lives (.quiet l l.cache)

/-- Only dropping it ends a loader. -/
theorem eq_drop {e : Event} (alive : w.loader? k = some l) (gone : (w.occur e).1.loader? k = none) :
    e = .step (.drop k) := by
  rw [World.loader?_occur alive] at gone
  cases e with
  | fetchEnds j id => cases gone
  | step s =>
    cases s with
    | drop j =>
      by_cases same : j = k
      · rw [same]
      · simp [Loader.undergo, same] at gone
    | _ => cases gone

/-- With a loader its pending requests go, and nothing else is shown. -/
theorem drop_effect (alive : w.loader? k = some l) :
    (of w (.step (.drop k))).issued k = [] ∧ (of w (.step (.drop k))).fired k = [] ∧
      (of w (.step (.drop k))).cancelled k = [] ∧ (of w (.step (.drop k))).discarded k = l.pending := by
  refine ⟨rfl, rfl, rfl, ?_⟩
  simp [of, discarded, World.pendingAt, alive]

/-- Where there is no loader nothing is shown of its requests. -/
theorem effect_none (e : Event) (gone : w.loader? k = none) :
    (of w e).issued k = [] ∧ (of w e).fired k = [] ∧ (of w e).cancelled k = [] ∧ (of w e).discarded k = [] := by
  cases asked : e.action? k with
  | none => simp [of, issued, fired, cancelled, discarded, World.pendingAt, asked, gone]
  | some action =>
    have refused : (w.occur e).2 = World.silent .noLoader := by
      cases e with
      | fetchEnds j id => cases asked
      | step s =>
        cases s with
        | act j other =>
          by_cases same : j = k
          · subst same
            simp only [World.occur, World.step, gone]
          · simp [Event.action?, same] at asked
        | _ => cases asked
    cases action <;>
      simp [of, issued, fired, cancelled, discarded, World.pendingAt, asked, gone, refused, World.silent,
        Action.issued, Action.cancelled]

end Moment

end ColorResolution
