import Troupe.Agent.Header
import Troupe.Agent.Policy
import Troupe.Mailbox.Stats
import Troupe.Metrics
import Troupe.Scheduler.Pool
import Troupe.Timer

/-!
# Nodes

A node holds agents, each with a header and a mailbox, the pool of workers that run
their tasks, a timer, and the counters of it all. Its operations act on behalf of
whoever calls them: a worker, or somebody outside the pool.

The application that lives on a node has a state of its own, `ε`. A mailbox may have an
observer there, who is told of crossed watermarks.

* `wake_absent` — waking an agent there is not changes nothing;
* `send_forbidden` — a message that must stay where it is changes nothing.
-/

namespace Troupe

/-- Who can be woken. -/
inductive Waker where
  | agent (id : AgentId)
  /-- Somebody outside, who looks again by himself. -/
  | outsider
deriving DecidableEq, Repr

/-- An agent's behaviour on its way through queues and workers, with the restarts it
was granted. -/
structure Task where
  agent : AgentId
  restarts : Nat
deriving DecidableEq, Repr

/-- An agent as the node knows it. It stays addressable after it is done. -/
structure Seat (μ ε : Type) where
  header : Header Task
  mailbox : Mailbox Waker μ
  capability : Capability
  isRegistered : Bool
  /-- Tells the application of a crossed watermark. -/
  observer : PressureEvent → ε → ε

/-- A node for agents that receive `μ`, with an application in state `ε`. -/
structure Node (μ ε : Type) where
  settings : Settings
  strategy : Strategy
  policy : Policy
  pool : Pool Task
  seats : Table AgentId (Seat μ ε) := Table.empty
  nextId : AgentId := ⟨1⟩
  failures : Table AgentId FailureReport := Table.empty
  profiles : ProfileStore
  metrics : Metrics
  timer : Timer Waker := {}
  now : Instant
  isRunning : Bool := false
  app : ε

namespace Node

variable {μ ε : Type}

/-- A node that has not started. -/
def ofSettings (settings : Settings) (policy : Policy) (workers : Nat) (now : Instant) (app : ε)
    (batching : Batching Task := .standard) : Node μ ε where
  settings := settings
  strategy := settings.strategy.strategy
  policy := policy
  pool := .ofSettings settings.scheduler workers batching
  profiles := .ofAlpha settings.strategy.alpha
  metrics := .ofWorkers workers
  now := now
  app := app

def seat? (n : Node μ ε) (id : AgentId) : Option (Seat μ ε) := n.seats.get? id

/-- Changes the seat of an agent. -/
def alterSeat (n : Node μ ε) (id : AgentId) (f : Seat μ ε → Seat μ ε) : Node μ ε :=
  { n with seats := n.seats.modify id f }

/-- Changes the application. -/
def alterApp (n : Node μ ε) (f : ε → ε) : Node μ ε := { n with app := f n.app }

/-- The agents on the register, in order of their identities. -/
def registered (n : Node μ ε) : List AgentId :=
  (n.seats.rows.filter fun row => row.2.isRegistered).map (·.1)

/-- How many agents are on the register. -/
def agentCount (n : Node μ ε) : Nat := n.registered.length

/-! ## Waking -/

/-- Makes a waiting agent runnable. -/
def wake (n : Node μ ε) (id : AgentId) : Node μ ε :=
  match n.seat? id with
  | none => n
  | some seat =>
    let (header, task) := seat.header.wake
    let woken := n.alterSeat id fun seat => { seat with header }
    match task with
    | some task => { woken with pool := woken.pool.schedule task }
    | none => woken

/-- Fires a waker. -/
def fire (n : Node μ ε) : Waker → Node μ ε
  | .agent id => n.wake id
  | .outsider => n

/-- Carries out the effects of an operation on the mailbox of an agent. -/
def perform (n : Node μ ε) (owner : AgentId) : List (Effect Waker) → Node μ ε
  | [] => n
  | .wake w :: rest => (n.fire w).perform owner rest
  | .pressure event :: rest =>
    let counted := match event with
      | .engaged _ => { n.metrics with engaged := n.metrics.engaged + 1 }
      | .cleared _ => { n.metrics with cleared := n.metrics.cleared + 1 }
    let told := match n.seat? owner with
      | some seat => seat.observer event n.app
      | none => n.app
    { n with metrics := counted, app := told }.perform owner rest

/-- Fires the wakers among the effects of an operation on an object of the application. -/
def fireAll (n : Node μ ε) : List (Effect Waker) → Node μ ε
  | [] => n
  | .wake w :: rest => (n.fire w).fireAll rest
  | .pressure _ :: rest => n.fireAll rest

/-! ## Mailboxes of agents -/

/-- Counts what became of a message. -/
def countSend (m : Metrics) : Except (Refusal (Envelope μ)) Status → Metrics
  | .ok _ => { m with sent := m.sent + 1 }
  | .error (.full _ _) => { m with rejected := m.rejected + 1 }
  | .error _ => m

/-- Puts a message into the mailbox of an agent, or hands it back. An agent there is not
is answered like one whose mailbox is closed. -/
def send [Transferable μ] (n : Node μ ε) (target : AgentId) (message : μ)
    (sender : Option AgentId) : Node μ ε × Except (Refusal μ) Status :=
  match Envelope.trySeal message sender with
  | .error m => (n, .error (.forbidden m))
  | .ok envelope =>
    match n.seat? target with
    | none => (n, .error (.closed message))
    | some seat =>
      -- the message is stored and counted before anyone is woken
      let o := seat.mailbox.enqueue envelope
      let stored := n.alterSeat target fun seat => { seat with mailbox := o.state }
      let counted := { stored with metrics := countSend stored.metrics o.answer }
      (counted.perform target o.effects, match o.answer with
        | .ok status => .ok status
        | .error refusal => .error (refusal.map Envelope.payload))

/-- Takes the next message out of the mailbox of an agent. -/
def receive (n : Node μ ε) (id : AgentId) : Node μ ε × Option (Envelope μ) :=
  match n.seat? id with
  | none => (n, none)
  | some seat =>
    let o := seat.mailbox.dequeue
    let stored := n.alterSeat id fun seat => { seat with mailbox := o.state }
    let counted := match o.answer with
      | some _ => { stored.metrics with received := stored.metrics.received + 1 }
      | none => stored.metrics
    ({ stored with metrics := counted }.perform id o.effects, o.answer)

/-- Closes the mailbox of an agent. -/
def closeMailbox (n : Node μ ε) (id : AgentId) : Node μ ε :=
  match n.seat? id with
  | none => n
  | some seat =>
    let o := seat.mailbox.close
    (n.alterSeat id fun seat => { seat with mailbox := o.state }).perform id o.effects

/-- The number of messages in the mailbox of an agent. -/
def pending (n : Node μ ε) (id : AgentId) : Nat :=
  ((n.seat? id).map fun seat => seat.mailbox.length).getD 0

/-- Whether an agent was asked to end. -/
def isTerminating (n : Node μ ε) (id : AgentId) : Bool :=
  ((n.seat? id).map fun seat => seat.header.isTerminating).getD false

/-! ## Coming and going -/

/-- What may be said about an agent when it is spawned. -/
structure SpawnOptions (ε : Type) where
  mailbox : Option Watermarks := none
  observer : PressureEvent → ε → ε := fun _ app => app
  capability : Option Capability := none
  /-- What the agent is expected to cost. -/
  profile : Option Profile := none
  /-- An agent it is expected to resemble. -/
  profileOf : Option AgentId := none

/-- The capabilities under which an agent's state can be held. -/
def holdsState : Capability → Bool
  | .isolated => true
  | .mutableLocal => true
  | _ => false

/-- The expectation that the strategy is told of. -/
def hint (n : Node μ ε) (options : SpawnOptions ε) : Option Profile :=
  options.profile.or (options.profileOf.bind n.profiles.get?)

/-- Puts an agent on the register and queues its task. -/
def enroll (n : Node μ ε) (mailbox : Mailbox Waker μ) (capability : Capability)
    (options : SpawnOptions ε) : Node μ ε × AgentId :=
  let id := n.nextId
  let seat : Seat μ ε := ⟨.fresh, mailbox, capability, true, options.observer⟩
  -- the strategy sees the loads as they are without the new agent
  let destination := n.strategy.destination n.pool.current n.pool.loads (n.hint options)
  ({ n with
      nextId := id.next
      seats := n.seats.insert id seat
      pool := n.pool.submit ⟨id, 0⟩ destination
      metrics := { n.metrics with spawned := n.metrics.spawned + 1 } }, id)

/-- Spawns an agent. -/
def spawn (n : Node μ ε) (options : SpawnOptions ε) : Node μ ε × Except Fault AgentId :=
  if n.isRunning = false then (n, .error .spawnRejected)
  else
    let capability := options.capability.getD .isolated
    if holdsState capability = false then (n, .error (.violation (.unfitState capability)))
    else
      match Mailbox.open? (options.mailbox.getD n.settings.mailbox) with
      | .error why => (n, .error why)
      | .ok mailbox =>
        let (n, id) := n.enroll mailbox capability options
        (n, .ok id)

/-- Asks an agent to end: its mailbox is closed, and it is woken to empty it. A second
request changes nothing. -/
def terminate (n : Node μ ε) (id : AgentId) : Node μ ε × Except Fault Unit :=
  match n.seat? id with
  | none => (n, .error (.agentNotFound id))
  | some seat =>
    if seat.isRegistered = false then (n, .error (.agentNotFound id))
    else
      let (header, first) := seat.header.requestEnd
      let asked := n.alterSeat id fun seat => { seat with header }
      if first then ((asked.closeMailbox id).wake id, .ok ()) else (asked, .ok ())

/-- Takes an agent off the register. -/
def deregister (n : Node μ ε) (id : AgentId) : Node μ ε :=
  match n.seat? id with
  | none => n
  | some seat =>
    if seat.isRegistered then
      { n.alterSeat id fun seat => { seat with isRegistered := false } with
        metrics := { n.metrics with terminated := n.metrics.terminated + 1 } }
    else n

/-- A registered agent as others see it. -/
structure AgentInfo where
  id : AgentId
  state : AgentState
  capability : Capability
  isTerminating : Bool
  pending : Nat
  profile : Option Profile

/-- What is known of a registered agent. -/
def info? (n : Node μ ε) (id : AgentId) : Option AgentInfo :=
  match n.seat? id with
  | none => none
  | some seat =>
    if seat.isRegistered then
      some ⟨id, seat.header.state, seat.capability, seat.header.isTerminating,
        seat.mailbox.length, n.profiles.get? id⟩
    else none

theorem wake_absent (n : Node μ ε) (id : AgentId) (h : n.seat? id = none) : n.wake id = n := by
  simp [wake, h]

theorem send_forbidden [Transferable μ] (n : Node μ ε) (target : AgentId) (message : μ)
    (sender : Option AgentId)
    (h : (Transferable.capability message).isTransferable = false) :
    n.send target message sender = (n, .error (.forbidden message)) := by
  simp [send, Envelope.trySeal, h]

end Node

end Troupe
