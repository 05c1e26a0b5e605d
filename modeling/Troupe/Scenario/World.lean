import Troupe.Channel
import Troupe.Gossip.Basic
import Troupe.Gossip.Memory
import Troupe.Lease.Basic
import Troupe.Node.Handover
import Troupe.Node.Running
import Troupe.Promise
import Troupe.Quorum
import Troupe.Scenario.Script

/-!
# The world of a scenario

What a scenario keeps beside the node that it plays on: the cast with the state of each
agent's script, the objects that go by name, and the log.

* `note_log` — what is noted is the newest entry of the log.
-/

namespace Troupe.Scenario

/-- What agents of a scenario send to each other. -/
inductive Message where
  | words (label : Capability) (text : String)
  /-- The handle of an agent. -/
  | handle (agent : AgentId)
  /-- A ballot of a round. -/
  | ballot (round : Nat) (payload : String)
  | gossip (g : Gossip String)
  /-- Numbers that move to the receiver. -/
  | numbers (value : List Nat)
deriving Repr

/-- The rights that go with a message. -/
def Message.capability : Message → Capability
  | words label _ => label
  | handle _ => .identityOnly
  | ballot _ _ => .immutableShared
  | gossip _ => .immutableShared
  | numbers _ => .isolated

instance : Transferable Message := ⟨Message.capability⟩

/-- Numbers travel in messages of their own. -/
def Message.ofNumbers : Carriage (List Nat) Message where
  load := numbers
  unload?
    | numbers value => some value
    | _ => none
  unload?_load _ := rfl
  capability_load _ := rfl

/-- The text of a message that has one. -/
def Message.text : Message → String
  | words _ text => text
  | _ => ""

/-- What an agent of the cast does. -/
inductive Part where
  | script (template : Template)
  /-- Takes numbers in, or lets them lie. -/
  | sink (receives : Bool)

/-- The agents that follow a script. -/
def Part.isScript : Part → Bool
  | script _ => true
  | sink _ => false

/-- An agent of the cast. -/
structure Actor where
  name : String
  part : Part
  /-- The list of acts for the next resume. -/
  index : Nat := 0
  /-- How many acts of that list are over, when one of them made the agent wait. -/
  skipped : Nat := 0
  /-- The rounds whose ballots the agent keeps, oldest first. -/
  ballots : List Nat := []
  memory : Memory MessageId := .ofCapacity 4

/-- A line of the log: who reports what, and with what result. -/
structure Entry where
  who : String
  what : String
  value : Document

/-- A promise that goes by name, and whether the awaiting side is still there. -/
structure Future where
  promise : Promise Waker Nat := {}
  awaited : Bool := true

/-- Everything but the node. -/
structure World where
  templates : Table String Template
  /-- One worker only: the order of the log is determined. -/
  ordered : Bool
  /-- The entries not reported yet, newest first. -/
  log : List Entry := []
  cast : Table AgentId Actor := Table.empty
  names : Table String AgentId := Table.empty
  sinks : Table String AgentId := Table.empty
  wakers : Table String AgentId := Table.empty
  futures : Table String Future := Table.empty
  /-- The rounds by number: late votes find them after their names are gone. -/
  rounds : Table Nat (Round Waker Nat) := Table.empty
  roundNames : Table String Nat := Table.empty
  channels : Table String (Channel Unit Waker Message) := Table.empty
  clock : ManualClock
  leases : LeaseTable
  /-- The last lease granted on each key. -/
  granted : Table String Lease := Table.empty
  cells : Table String (Cell (List Nat)) := Table.empty
  /-- How many rounds and gossiped messages there have been. -/
  minted : Nat := 0

/-- A node in the world of a scenario. -/
abbrev Stage := Node Message World

namespace World

/-- Adds a line to the log. -/
def note (w : World) (who what : String) (value : Document) : World :=
  { w with log := ⟨who, what, value⟩ :: w.log }

/-- Changes the state of an agent of the cast. -/
def alterActor (w : World) (id : AgentId) (f : Actor → Actor) : World :=
  { w with cast := w.cast.modify id f }

/-- The name of an agent. -/
def nameOf? (w : World) (id : AgentId) : Option String := (w.cast.get? id).map (·.name)

/-- A number that was not used before. -/
def mint (w : World) : World × Nat := ({ w with minted := w.minted + 1 }, w.minted + 1)

theorem note_log (w : World) (who what : String) (value : Document) :
    (w.note who what value).log = ⟨who, what, value⟩ :: w.log := rfl

end World

namespace Stage

/-- Adds a line to the log. -/
def note (n : Stage) (who what : String) (value : Document) : Stage :=
  n.alterApp (·.note who what value)

/-- Records a vote in a round, and wakes whom that wakes. -/
def recordVote (n : Stage) (round : Nat) (voter : AgentId) (answer : Option Nat) : Stage :=
  match n.app.rounds.get? round with
  | none => n
  | some r =>
    let o := r.record voter answer
    (n.alterApp fun w => { w with rounds := w.rounds.insert round o.state }).fireAll o.effects

/-- Throws away the ballots that an agent keeps; each is a rejection. -/
def dropBallots (id : AgentId) (n : Stage) : Stage :=
  match n.app.cast.get? id with
  | none => n
  | some actor =>
    let n := n.alterApp (·.alterActor id fun a => { a with ballots := [] })
    actor.ballots.foldl (fun n round => recordVote n round id none) n

end Stage

end Troupe.Scenario
