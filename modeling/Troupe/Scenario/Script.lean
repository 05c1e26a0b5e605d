import Troupe.AgentId
import Troupe.Capability
import Troupe.Document.Basic
import Troupe.Strategy.Profile
import Troupe.Watermarks

/-!
# Scripts

The language in which a scenario says what its agents do, and what is done from
outside the node. Everything is addressed by names that the scenario chooses; a name
may be given again and then means what it was given to last.

A `Deed` is open to agents and outsiders alike, an `Act` to agents only, a `Cue` to the
outside only.

* `Deed.name_terminate` — a deed goes by the name under which it is reported.
-/

namespace Troupe.Scenario

/-- A message as a script puts it. -/
inductive Saying where
  /-- A text under a label. -/
  | words (label : Capability) (text : String)
  /-- The handle of an agent. -/
  | handle (name : String)
deriving Repr

/-- How an agent answers a ballot. -/
inductive Vote where
  | affirm (value : Nat)
  | reject
  /-- The ballot is thrown away unanswered. -/
  | drop
deriving DecidableEq, Repr

/-- A sizing that somebody asks for, unless it cannot be derived. -/
abbrev Sizing := Option Watermarks

/-- What is said about an agent when it is spawned. -/
structure Traits where
  mailbox : Option Sizing := none
  /-- Whether crossed watermarks are reported. -/
  observed : Bool := false
  capability : Option Capability := none
  profile : Option Profile := none
  profileOf : Option String := none
deriving Repr

/-- The sizing of a mailbox, where one is given, unless it cannot be derived. -/
def Traits.mailbox? (t : Traits) : Option (Option Watermarks) :=
  match t.mailbox with
  | none => some none
  | some sizing => sizing.map some

/-- What anyone may do. -/
inductive Deed where
  | spawn (template name : String)
  | signal (target : String) (saying : Saying) (anonymous : Bool) (sender : Option AgentId)
  | terminate (who : String)
  | handle (who : String)
  | mailbox (who : String)
  | info (who : String)
  | failure (who : String)
  | agents
  | running
  | stats
  | metrics
  | wake (waker : String)
  | newFuture (name : String)
  | resolve (future : String) (value : Nat)
  | waitFuture (future : String) (allowed : Span)
  | startQuorum (name : String) (voters : List String) (threshold : Nat) (payload : String)
  | waitQuorum (round : String) (allowed : Span)
  | quorum (voters : List String) (threshold : Nat) (payload : String) (allowed : Span)
  | broadcast (peers : List String) (payload : String) (fanout : Nat)
  | channel (name : String) (sizing : Sizing)
  | send (channel text : String)
  | dropSender (channel : String)
  | dropReceiver (channel : String)
  | receiveWithin (channel : String) (allowed : Span)
  | lease (key : String) (ttl : Span)
  | renew (key : String) (ttl : Span)
  | release (key : String)
  /-- Moves the hands of the clock that leases go by. -/
  | advance (by' : Span)
  | shard (key : String) (shards : List String)
  /-- Spawns an agent that only takes numbers in. -/
  | sink (name : String) (receives : Bool) (traits : Traits)
  | endSink (who : String)
  | cell (name : String) (value : List Nat)
  | cellSend (cell target : String)
deriving Repr

/-- The name under which a deed is reported. -/
def Deed.name : Deed → String
  | spawn .. => "spawn"
  | signal .. => "signal"
  | terminate .. => "terminate"
  | handle .. => "handle"
  | mailbox .. => "mailbox"
  | info .. => "info"
  | failure .. => "failure"
  | agents => "agents"
  | running => "running"
  | stats => "stats"
  | metrics => "metrics"
  | wake .. => "wake"
  | newFuture .. => "new_future"
  | resolve .. => "resolve"
  | waitFuture .. => "wait_future"
  | startQuorum .. => "start_quorum"
  | waitQuorum .. => "wait_quorum"
  | quorum .. => "quorum"
  | broadcast .. => "broadcast"
  | channel .. => "channel"
  | send .. => "send"
  | dropSender .. => "drop_tx"
  | dropReceiver .. => "drop_rx"
  | receiveWithin .. => "recv_timeout"
  | lease .. => "lease"
  | renew .. => "renew"
  | release .. => "release"
  | advance .. => "advance"
  | shard .. => "shard"
  | sink .. => "sink"
  | endSink .. => "end_sink"
  | cell .. => "cell"
  | cellSend .. => "cell_send"

/-- What an agent does on its own account. -/
inductive Act where
  | yield
  | wait
  | done
  /-- Fails for a reason told from the outside in. -/
  | fail (chain : List String)
  /-- Breaks down with a reason in words, or with none. -/
  | panic (reason : Option String)
  /-- Chooses the list of acts for the next resume. -/
  | goto (index : Nat)
  | log (value : Document)
  | pending
  | terminating
  | receive (most : Nat)
  | receiveAll
  /-- Receives while more than so many messages are there. -/
  | receiveUntil (left : Nat)
  | awaitMessage
  | saveWaker (name : String)
  /-- Has the agent woken at an instant that has passed. -/
  | wakePast
  | wakeAfter (delay : Span)
  /-- Keeps the worker busy. -/
  | spin (time : Span)
  | selfSignal (saying : Saying)
  | pollFuture (future : String) (allowed : Span)
  | pollQuorum (round : String) (allowed : Span)
  | pollChannel (channel : String)
  | vote (how : Vote)
  | deed (d : Deed)

/-- What agents of a kind do. -/
structure Template where
  /-- A list of acts for each resume; the last one serves for all that follow. -/
  resumes : List (List Act) := []
  onStop : List Act := []
  onRestart : List Act := []
  traits : Traits := {}
  /-- Whether resumes go unreported. -/
  quiet : Bool := false

/-- What is done from outside. -/
inductive Cue where
  | start
  | stop
  /-- Waits until so many entries are in the log. -/
  | awaitLog (entries : Nat)
  | deed (d : Deed)

/-- A cue, and how it is reported. -/
structure Beat where
  cue : Cue
  /-- The workers do not get to work before the next cue. -/
  unsettled : Bool := false
  /-- The log is left to the next report. -/
  held : Bool := false
  /-- The log is reported in an order of its own. -/
  sorted : Bool := false

theorem Deed.name_terminate (who : String) : (Deed.terminate who).name = "terminate" := rfl

end Troupe.Scenario
