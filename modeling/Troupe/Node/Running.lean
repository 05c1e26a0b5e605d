import Troupe.Agent.Turn
import Troupe.Node.Basic

/-!
# Running a node

What workers do: they take a task, run a turn of its agent and put the task where its
end says; without a task they look for one at their peers and park. A node is settled
when all its workers are parked.

A `Host` supplies the behaviours of the agents.

* `settle_parked` — a settled node stays as it is.
-/

namespace Troupe

/-- The agents' side of a node. -/
structure Host (μ ε : Type) where
  behavior : AgentId → Behavior (Node μ ε) μ
  /-- What the end of a behaviour does to what it held. -/
  dropped : AgentId → Node μ ε → Node μ ε

namespace Node

variable {μ ε : Type}

/-- What an agent's turn finds around it on a node. -/
def around (id : AgentId) : Surroundings (Node μ ε) μ where
  isTerminating n := n.isTerminating id
  isEmpty n := n.pending id == 0
  dequeue n := n.receive id
  register n := n.alterSeat id fun seat => { seat with mailbox := seat.mailbox.register (.agent id) }
  meanwhile n := n
  countFailure n := { n with metrics := { n.metrics with failed := n.metrics.failed + 1 } }
  keepReport report n := { n with failures := n.failures.insert report.agent report }
  complete n := (n.closeMailbox id).deregister id

/-- Drops a task, and with it the behaviour. -/
def dropTask (n : Node μ ε) (host : Host μ ε) (task : Task) : Node μ ε := host.dropped task.agent n

/-- Drops a task that may not be there. -/
def dropTask? (n : Node μ ε) (host : Host μ ε) : Option Task → Node μ ε
  | some task => n.dropTask host task
  | none => n

/-- Books a turn: the worker's averages, its count of turns and the agent's profile. -/
def recordTurn (n : Node μ ε) (index : Nat) (agent : AgentId) (started : Instant)
    (ending : TurnEnd) (messages : Nat) : Node μ ε :=
  let elapsed := n.now.since started
  let sample : TurnSample := ⟨elapsed, messages, decide (ending = .yield), n.now⟩
  let (profiles, profile) := n.profiles.record agent sample
  { n with
    profiles
    metrics := n.metrics.recordTurn index
    pool := n.pool.recordTurn index n.profiles.alpha elapsed.toNanos (n.strategy.turnCost profile) }

/-- Puts a task where the end of its turn says. -/
def settleTask (n : Node μ ε) (host : Host μ ε) (index : Nat) (task : Task) : TurnEnd → Node μ ε
  | .yield =>
    match n.seat? task.agent with
    | none => n.dropTask host task
    | some seat =>
      -- an agent that was ended from outside meanwhile does not run again
      let (header, again) := seat.header.reschedule
      let n := n.alterSeat task.agent fun seat => { seat with header }
      if again then { n with pool := n.pool.requeue index task } else n.dropTask host task
  | .wait =>
    match n.seat? task.agent with
    | none => n.dropTask host task
    | some seat =>
      let (header, suspension) := seat.header.suspend task
      let n := n.alterSeat task.agent fun seat => { seat with header }
      match suspension with
      | .parked => n
      -- a wake came during the turn
      | .returned task => { n with pool := n.pool.requeue index task }
      | .dropped task => n.dropTask host task
  | .done =>
    let finished := match n.seat? task.agent with
      | none => n
      | some seat => n.alterSeat task.agent fun s => { s with header := seat.header.finish.1 }
    { finished with profiles := finished.profiles.erase task.agent }.dropTask host task

/-- Runs a turn of a task on a worker. A task whose agent is done is dropped. -/
def runTask (n : Node μ ε) (host : Host μ ε) (index : Nat) (task : Task) : Node μ ε :=
  match n.seat? task.agent with
  | none => n.dropTask host task
  | some seat =>
    let (header, may) := seat.header.beginRun
    let n := n.alterSeat task.agent fun seat => { seat with header }
    if may then
      let started := n.now
      let n := { n with pool := n.pool.setPhase index .running }
      let r := (host.behavior task.agent).turn (around task.agent) n.policy task.agent
        n.settings.scheduler.quantum n task.restarts
      let n := r.world.recordTurn index task.agent started r.ending r.books.received
      n.settleTask host index { task with restarts := r.restarts } r.ending
    else n.dropTask host task

/-- Acts on behalf of a worker, or of nobody in the pool. -/
def onBehalfOf (n : Node μ ε) (worker : Option Nat) (f : Node μ ε → Node μ ε) : Node μ ε :=
  -- calls nest: whoever acted before acts again afterwards
  let before := n.pool.current
  let after := f { n with pool := { n.pool with current := worker } }
  { after with pool := { after.pool with current := before } }

/-- One round of a worker: it runs a task of its own, or a stolen one, or parks. -/
def work (n : Node μ ε) (host : Host μ ε) (index : Nat) : Node μ ε :=
  n.onBehalfOf (some index) fun n =>
    match n.pool.take index with
    | (pool, some task) => { n with pool }.runTask host index task
    | (pool, none) =>
      let victims := n.strategy.victims index pool.loads
      match pool.steal index victims with
      | (pool, some (task, count)) =>
        let metrics :=
          { n.metrics with steals := n.metrics.steals + 1,
                           stolenTasks := n.metrics.stolenTasks + count }
        { n with pool, metrics }.runTask host index task
      | (pool, none) => { n with pool := pool.park index }

/-- The workers that are not parked. -/
def active (n : Node μ ε) : List Nat :=
  (List.range n.pool.size).filter fun index => !n.pool.parked.contains index

/-- Lets the workers work in turns until all are parked, for so many rounds at most. -/
def settle (host : Host μ ε) : (rounds : Nat) → Node μ ε → Node μ ε
  | 0, n => n
  | rounds + 1, n =>
    if n.isRunning = false then n
    else
      match n.active with
      | [] => n
      | active => settle host rounds (active.foldl (fun n index => n.work host index) n)

/-- Lets time pass until `t` and fires what is due, from outside the pool. -/
def advanceTo (n : Node μ ε) (t : Instant) : Node μ ε :=
  let o := n.timer.pass t
  { n with now := t, timer := o.state }.onBehalfOf none fun n => n.fireAll o.effects

/-- Has an agent woken at an instant. -/
def wakeAt (n : Node μ ε) (id : AgentId) (deadline : Instant) : Node μ ε :=
  let o := n.timer.register n.now deadline (.agent id)
  { n with timer := o.state }.fireAll o.effects

/-- The next instant, up to a limit, at which the timer has something to fire. -/
def nextAlarm? (n : Node μ ε) (limit : Instant) : Option Instant :=
  match n.timer.head? with
  | some alarm => if alarm.deadline ≤ limit then some alarm.deadline else none
  | none => none

/-- Waits for an answer to `poll`, up to a deadline: the wait is over when the deadline
has passed at a poll that finds nothing. `others` is what the rest of the node does
meanwhile, and time passes from one alarm to the next. -/
def await {α : Type} (others : Node μ ε → Node μ ε) (poll : Node μ ε → Node μ ε × Poll α)
    (deadline : Instant) : (tries : Nat) → Node μ ε → Node μ ε × Option α
  | 0, n => (n, none)
  | tries + 1, n =>
    match poll n with
    | (n, .ready a) => (n, some a)
    | (n, .pending) =>
      if deadline ≤ n.now then (n, none)
      else
        -- before time passes, everybody who can act does
        match poll (others n) with
        | (n, .ready a) => (n, some a)
        | (n, .pending) =>
          match n.nextAlarm? deadline with
          | some t => await others poll deadline tries (n.advanceTo (if t ≤ n.now then n.now else t))
          | none => (n.advanceTo (if deadline ≤ n.now then n.now else deadline), none)

/-! ## Starting and stopping -/

/-- Starts the workers. A node starts once. -/
def start (n : Node μ ε) : Node μ ε × Except Fault Unit :=
  if n.pool.isStarted then (n, .error (.misuse .alreadyStarted))
  else ({ n with pool := { n.pool with isStarted := true }, isRunning := true }, .ok ())

/-- Lets the workers work until the register is empty, for so many rounds at most. -/
def drain (host : Host μ ε) : (rounds : Nat) → Node μ ε → Node μ ε
  | 0, n => n
  | rounds + 1, n =>
    if n.registered.isEmpty then n
    else
      match n.active with
      | [] => n
      | active => drain host rounds (active.foldl (fun n index => n.work host index) n)

/-- Ends an agent from outside: it is done, whatever it was doing. -/
def finishSeat (n : Node μ ε) (host : Host μ ε) (id : AgentId) : Node μ ε :=
  match n.seat? id with
  | none => n
  | some seat =>
    let (header, task) := seat.header.finish
    (n.alterSeat id fun seat => { seat with header, isRegistered := false }).dropTask? host task

/-- Ends the pool and the timer. What workers hold is dropped, and what the timer holds
back is fired. -/
def shutDown (n : Node μ ε) (host : Host μ ε) : Node μ ε :=
  let held := n.pool.held
  let n := { n with pool := n.pool.shut }
  let n := held.foldl (fun n task => n.dropTask host task) n
  let timer := n.timer.shut
  let o := timer.pass n.now
  { n with timer := o.state }.fireAll o.effects

/-- Stops a node: every agent is asked to end and may empty its mailbox, for so many
rounds; then the pool and the timer end, and agents that are left are done. -/
def stop (n : Node μ ε) (host : Host μ ε) (rounds : Nat) : Node μ ε :=
  if n.isRunning = false then n
  else
    -- from here on nothing is spawned
    let n := { n with isRunning := false }
    let n := n.registered.foldl (fun n id => (n.terminate id).1) n
    let n := (drain host rounds n).shutDown host
    -- agents that did not come to their end in time
    n.registered.foldl (fun n id => n.finishSeat host id) n

theorem settle_parked (host : Host μ ε) (rounds : Nat) (n : Node μ ε) (h : n.active = []) :
    settle host rounds n = n := by
  cases rounds with
  | zero => rfl
  | succ rounds =>
      unfold settle
      split
      · rfl
      · rw [h]

end Node

end Troupe
