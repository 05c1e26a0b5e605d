import Troupe.Scheduler.Worker
import Troupe.Settings.Basic

/-!
# Pools of workers

A pool has a number of workers, an inbox for each of them and a queue they share. A
task that is woken goes to the slot of the worker that woke it, a new one where the
strategy says, and one that yields to the back of its worker's inbox. Workers without
work look for it at their peers, a limited number of them at a time, and park.

* `requeue_shared` — a task that yields never goes to the shared queue;
* `beginSearch_le` — no more workers search than may.
-/

namespace Troupe

/-- A worker with its inbox and with what it publishes about itself. -/
structure Post (τ : Type) where
  worker : Worker τ := {}
  inbox : Injector τ := {}
  /-- The number of its own tasks, as last published. -/
  published : Nat := 0
  /-- Average time of a turn. -/
  mean : Float := 0.0
  /-- Average price of a turn. -/
  predicted : Float := 0.0
  phase : WorkerPhase := .idle
deriving Repr

/-- The workers of a node and the queue they share. -/
structure Pool (τ : Type) where
  settings : SchedulerSettings
  /-- How the queues of the pool form batches. -/
  batching : Batching τ := .standard
  posts : List (Post τ)
  shared : Injector τ := {}
  /-- The parked workers, last parked first. -/
  parked : List Nat := []
  /-- How many workers are looking for work. -/
  searching : Nat := 0
  /-- The worker on whose behalf the node acts at the moment, if any. -/
  current : Option Nat := none
  isStarted : Bool := false
  isShut : Bool := false

namespace Pool

variable {τ : Type}

/-- A pool with so many workers, none of which has started. -/
def ofSettings (settings : SchedulerSettings) (workers : Nat)
    (batching : Batching τ := .standard) : Pool τ :=
  { settings, batching, posts := List.replicate workers {} }

/-- The number of workers. -/
def size (p : Pool τ) : Nat := p.posts.length

/-- Changes the post of a worker. -/
def alter (p : Pool τ) (index : Nat) (f : Post τ → Post τ) : Pool τ :=
  { p with posts := p.posts.modify index f }

/-- Publishes the number of a worker's own tasks. -/
def publish (p : Pool τ) (index : Nat) : Pool τ :=
  p.alter index fun post => { post with published := post.worker.length }

/-- The load of a worker as others see it. -/
def loadOf (index : Nat) (post : Post τ) : Load :=
  ⟨index, post.published + post.inbox.length, post.mean, post.predicted, post.phase⟩

/-- The loads of all workers. -/
def loads (p : Pool τ) : List Load := p.posts.zipIdx.map fun (post, index) => loadOf index post

/-! ## Waking workers -/

/-- Unparks the worker that parked last. -/
def notifyOne (p : Pool τ) : Pool τ := { p with parked := p.parked.tail }

/-- Unparks a worker unless one is looking for work already. -/
def notifyIfUnsearched (p : Pool τ) : Pool τ := if p.searching = 0 then p.notifyOne else p

/-- Unparks a given worker. -/
def unpark (p : Pool τ) (index : Nat) : Pool τ := { p with parked := p.parked.filter (· ≠ index) }

/-! ## Queueing tasks -/

/-- Pushes to the shared queue. -/
def pushShared (p : Pool τ) (task : τ) : Pool τ := { p with shared := p.shared.push task }

/-- Pushes to a worker's stack, or to the shared queue when the stack is full. -/
def pushLocal (p : Pool τ) (index : Nat) (task : τ) : Pool τ :=
  match p.posts[index]? with
  | none => p.pushShared task
  | some post =>
    let pushed := match post.worker.push? p.settings.localCapacity task with
      | some worker => p.alter index fun post => { post with worker }
      | none => p.pushShared task
    (pushed.publish index).notifyIfUnsearched

/-- Puts a task into a worker's slot; the task it displaces goes to the stack. -/
def pushNext (p : Pool τ) (index : Nat) (task : τ) : Pool τ :=
  match p.posts[index]? with
  | none => p.pushShared task
  | some post =>
    let (worker, displaced) := post.worker.placeNext task
    let placed := p.alter index fun post => { post with worker }
    match displaced with
    | some other => placed.pushLocal index other
    | none => placed.publish index

/-- Queues a woken task. -/
def schedule (p : Pool τ) (task : τ) : Pool τ :=
  match p.current with
  | some index => p.pushNext index task
  | none => (p.pushShared task).notifyOne

/-- Pushes to a worker's inbox. -/
def pushInbox (p : Pool τ) (index : Nat) (task : τ) : Pool τ :=
  p.alter index fun post => { post with inbox := post.inbox.push task }

/-- Queues a new task. -/
def submit (p : Pool τ) (task : τ) : Destination → Pool τ
  | .worker index =>
    if index < p.size then
      -- only a worker itself may touch its stack
      if p.current = some index then p.pushLocal index task
      else (p.pushInbox index task).unpark index
    else (p.pushShared task).notifyOne
  | .shared => (p.pushShared task).notifyOne

/-- Queues a task that yielded on a worker behind all that worker has. -/
def requeue (p : Pool τ) (index : Nat) (task : τ) : Pool τ :=
  (p.pushInbox index task).notifyIfUnsearched

/-! ## Finding work -/

/-- Takes the next task for a worker. -/
def take (p : Pool τ) (index : Nat) : Pool τ × Option τ :=
  match p.posts[index]? with
  | none => (p, none)
  | some post =>
    let (worker, inbox, shared, task) := post.worker.take p.batching post.inbox p.shared
    (({ p with shared }.alter index fun post => { post with worker, inbox }).publish index, task)

/-- How many workers may look for work at a time. -/
def searchers (p : Pool τ) : Nat := SchedulerSettings.searchers p.size

/-- Starts looking for work, if not too many do. -/
def beginSearch (p : Pool τ) : Option (Pool τ) :=
  if p.searching < p.searchers then some { p with searching := p.searching + 1 } else none

/-- Ends looking for work. -/
def endSearch (p : Pool τ) : Pool τ := { p with searching := p.searching - 1 }

def setPhase (p : Pool τ) (index : Nat) (phase : WorkerPhase) : Pool τ :=
  p.alter index fun post => { post with phase }

/-- Robs one victim: its stack, or else its inbox. -/
def robOne (p : Pool τ) (thief victim : Nat) : Option (Pool τ × τ × List τ) :=
  match p.posts[victim]? with
  | none => none
  | some post =>
    if victim = thief then none
    else
      match post.worker.rob p.batching with
      | some (worker, task, more) =>
        some (p.alter victim fun post => { post with worker }, task, more)
      | none =>
        (post.inbox.takeBatch p.batching).map fun (inbox, task, more) =>
          (p.alter victim fun post => { post with inbox }, task, more)

/-- Robs the first victim that has anything, or else takes from the shared queue. -/
def robAny (p : Pool τ) (thief : Nat) : List Nat → Option (Pool τ × τ × List τ)
  | [] =>
    (p.shared.takeBatch p.batching).map fun (shared, task, more) => ({ p with shared }, task, more)
  | victim :: rest =>
    match p.robOne thief victim with
    | some found => some found
    | none => p.robAny thief rest

/-- Looks for work at the victims, in their order; answers a task and how many tasks
were taken with it. -/
def steal (p : Pool τ) (thief : Nat) (victims : List Nat) : Pool τ × Option (τ × Nat) :=
  match p.beginSearch with
  | none => (p, none)
  | some searching =>
    let searching := searching.setPhase thief .stealing
    match searching.robAny thief victims with
    | none => ((searching.publish thief).endSearch, none)
    | some (robbed, task, more) =>
      let loaded := robbed.alter thief fun post => { post with worker := post.worker.stackUp more }
      let ended := (loaded.publish thief).endSearch
      -- with more than the thief can run at once, a peer may help
      (if more.isEmpty then ended else ended.notifyIfUnsearched, some (task, more.length + 1))

/-- Whether a worker about to park would find something in a queue. -/
def hasWork (p : Pool τ) (index : Nat) : Bool :=
  !p.shared.isEmpty || ((p.posts[index]?).map fun post => !post.inbox.isEmpty).getD false

/-- Parks a worker, unless there is something to do. -/
def park (p : Pool τ) (index : Nat) : Pool τ :=
  -- a task that was pushed since the last look would find nobody to wake
  let idle := p.setPhase index .idle
  if idle.hasWork index then idle else { idle with parked := index :: idle.parked }

/-- Blends the time and the price of a turn into a worker's averages. The first sample
stands for itself. -/
def recordTurn (p : Pool τ) (index : Nat) (alpha elapsed price : Float) : Pool τ :=
  let fold (previous sample : Float) : Float :=
    if previous == 0.0 then sample else blended alpha previous sample
  p.alter index fun post =>
    { post with mean := fold post.mean elapsed, predicted := fold post.predicted price }

/-- Every task in the pool, wherever it is queued. -/
def tasks (p : Pool τ) : List τ :=
  p.shared.tasks ++ p.posts.flatMap fun post =>
    post.inbox.tasks ++ post.worker.stack ++ post.worker.next.toList

/-- Ends the pool: workers stop, and what they hold is dropped. -/
def shut (p : Pool τ) : Pool τ :=
  { p with isShut := true, parked := [], posts := p.posts.map fun post => { post with worker := {} } }

/-- The tasks that ending the pool drops. -/
def held (p : Pool τ) : List τ :=
  p.posts.flatMap fun post => post.worker.stack ++ post.worker.next.toList

theorem requeue_shared (p : Pool τ) (index : Nat) (task : τ) :
    (p.requeue index task).shared = p.shared := by
  unfold requeue notifyIfUnsearched
  split <;> rfl

theorem beginSearch_le {p p' : Pool τ} (h : p.beginSearch = some p') :
    p'.searching ≤ p.searchers := by
  unfold beginSearch at h
  split at h
  · next hlt =>
      simp only [Option.some.injEq] at h
      subst h
      exact hlt
  · simp at h

end Pool

end Troupe
