import Troupe.Document.Json
import Troupe.Form.Mail
import Troupe.Form.Settings
import Troupe.Scenario.World

/-!
# What a scenario shows

Documents for what agents and outsiders see. Agents are shown by name, or by number
when they have none. What depends on how several workers happen to share the work is
shown only of a node with one worker.

* `ofAgentIn_unknown` — an agent without a name is shown by its number.
-/

namespace Troupe.Scenario

open Document (table text truth)
open Form

/-- An agent by name, or else by number. -/
def ofAgentIn (w : World) (id : AgentId) : Document :=
  match w.nameOf? id with
  | some name => text name
  | none => ofAgent id

/-- A fault; of those that name an agent the name is shown instead of the wording. -/
def ofFaultIn (w : World) : Fault → Document
  | .agentNotFound id => table [("error", text (kindOf (.agentNotFound id))), ("agent", ofAgentIn w id)]
  | .leaseConflict key holder =>
    table [("error", text (kindOf (.leaseConflict key holder))), ("key", text key),
      ("holder", ofAgentIn w holder)]
  | f => ofFault f

/-- A result, or the fault in its place. -/
def resultIn {α : Type} (w : World) (f : α → Document) : Except Fault α → Document
  | .ok a => f a
  | .error why => ofFaultIn w why

/-- What became of a message that was sent. -/
def sentIn {μ : Type} (w : World) : Except (Refusal μ) Status → Document
  | .ok status => ofStatus status
  | .error refusal => ofFaultIn w refusal.fault

/-- An agent as its handle shows it. -/
def ofSeat (seat : Seat Message World) : Document :=
  table [("state", text seat.header.state.text),
    ("alive", truth (decide (seat.header.state ≠ .done))), ("closed", truth seat.mailbox.isClosed),
    ("bp", truth seat.mailbox.isEngaged), ("len", nat seat.mailbox.length), ("eq_self", truth true)]

/-- Whether an agent is over: it is done, and takes no more. -/
def isOver (seat : Seat Message World) : Bool :=
  decide (seat.header.state = .done) && seat.mailbox.isClosed

def ofInfo (w : World) (info : Node.AgentInfo) : Document :=
  table [("agent", ofAgentIn w info.id), ("state", text info.state.text),
    ("capability", ofCapability info.capability), ("terminating", truth info.isTerminating),
    ("len", nat info.pending), ("turns", optional (fun p => nat p.turns) info.profile),
    ("cpu", optional (fun p => ofReal p.cpu) info.profile)]

def ofReport (w : World) (r : FailureReport) : Document :=
  table [("agent", ofAgentIn w r.agent), ("reason", text r.reason), ("restarts", nat r.restarts)]

/-- A decided round, its responses in the given order. -/
def ofVerdict (w : World) (v : Verdict Nat) : Document :=
  table [("responses", listOf (fun (r : AgentId × Nat) => .list [ofAgentIn w r.1, nat r.2])
      v.responses),
    ("affirmed", nat v.responses.length), ("rejected", nat v.rejected),
    ("participants", nat v.participants)]

/-- The queues and workers of a node. -/
def ofNode (n : Stage) : Document :=
  let p := n.pool
  let queued := p.loads.map (·.queued)
  let total := queued.foldl (· + ·) p.shared.length
  table ([("agents", nat n.agentCount), ("leases", nat (n.app.leases.liveCount n.app.clock.now)),
    ("workers", nat p.size), ("strategy", text n.strategy.name)] ++
    if n.app.ordered then
      [("global", nat p.shared.length), ("local", listOf nat queued),
        ("total", nat total), ("idle", nat p.parked.length),
        ("searching", nat p.searching), ("worker", optional nat p.current)]
    else [])

/-- The counters of a node. -/
def ofMetrics (ordered : Bool) (m : Metrics) : Document :=
  table ([("spawned", nat m.spawned), ("terminated", nat m.terminated), ("failed", nat m.failed),
    ("sent", nat m.sent), ("received", nat m.received), ("rejected", nat m.rejected),
    ("high", nat m.engaged), ("cleared", nat m.cleared), ("in_flight", nat m.inFlight)] ++
    if ordered then [("turns", listOf nat m.turns)] else [])

def ofEntry (e : Entry) : Document := .list [text e.who, text e.what, e.value]

/-- Documents in the order of their texts. -/
def sortedByText (ds : List Document) : List Document :=
  ((ds.map fun d => (Json.write d, d)).mergeSort fun a b => !decide (b.1 < a.1)).map (·.2)

theorem ofAgentIn_unknown (w : World) (id : AgentId) (h : w.nameOf? id = none) :
    ofAgentIn w id = ofAgent id := by
  simp [ofAgentIn, h]

end Troupe.Scenario
