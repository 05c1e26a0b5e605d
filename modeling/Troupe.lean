import Troupe.Agent.Header
import Troupe.Agent.Policy
import Troupe.Agent.Program
import Troupe.Agent.Turn
import Troupe.AgentId
import Troupe.Capability
import Troupe.Channel
import Troupe.Decimal.Literal
import Troupe.Decimal.Nearest
import Troupe.Decimal.Shortest
import Troupe.Decimal.Stepwise
import Troupe.Document.Basic
import Troupe.Document.Json
import Troupe.Document.Overlay
import Troupe.Document.Path
import Troupe.Document.Toml
import Troupe.Document.Yaml
import Troupe.Document.Yaml.Cursor
import Troupe.Document.Yaml.Node
import Troupe.Document.Yaml.Plain
import Troupe.Document.Yaml.Property
import Troupe.Document.Yaml.Reading
import Troupe.Document.Yaml.Scalar
import Troupe.Document.Yaml.Token
import Troupe.Envelope
import Troupe.Fault
import Troupe.Form.Basic
import Troupe.Form.Fault
import Troupe.Form.Mail
import Troupe.Form.Settings
import Troupe.Gossip.Basic
import Troupe.Gossip.Broadcast
import Troupe.Gossip.Memory
import Troupe.Gossip.MessageId
import Troupe.Lease.Basic
import Troupe.Lease.Waiting
import Troupe.Mailbox.Basic
import Troupe.Mailbox.Stats
import Troupe.Metrics
import Troupe.Node.Basic
import Troupe.Node.Handover
import Troupe.Node.Running
import Troupe.Outcome
import Troupe.Ownership
import Troupe.Payload
import Troupe.Promise
import Troupe.Proofs.Agent.Steps
import Troupe.Proofs.Channel.Run
import Troupe.Proofs.Lease.Fencing
import Troupe.Proofs.Lease.Run
import Troupe.Proofs.Mailbox.Fifo
import Troupe.Proofs.Mailbox.Hysteresis
import Troupe.Proofs.Mailbox.Run
import Troupe.Proofs.Node.Drain
import Troupe.Proofs.Node.Seat
import Troupe.Proofs.Payload.Confinement
import Troupe.Proofs.Quorum.Decision
import Troupe.Proofs.Quorum.Session
import Troupe.Proofs.Quorum.Settlement
import Troupe.Proofs.Table
import Troupe.Quorum
import Troupe.Scenario.Acting
import Troupe.Scenario.Deed
import Troupe.Scenario.Play
import Troupe.Scenario.Reading
import Troupe.Scenario.Script
import Troupe.Scenario.Showing
import Troupe.Scenario.World
import Troupe.Scheduler.Batching
import Troupe.Scheduler.Injector
import Troupe.Scheduler.Pool
import Troupe.Scheduler.Worker
import Troupe.Settings.Basic
import Troupe.Settings.Reading
import Troupe.Settings.Source
import Troupe.Sha256
import Troupe.Shard.Basic
import Troupe.Shard.Ring
import Troupe.Strategy.Basic
import Troupe.Strategy.Load
import Troupe.Strategy.Profile
import Troupe.Table
import Troupe.Text.Hex
import Troupe.Text.Invisible
import Troupe.Text.Quoted
import Troupe.Text.Shown
import Troupe.Time.Clock
import Troupe.Time.Span
import Troupe.Timer
import Troupe.Watermarks
import Troupe.Word
import Troupe.Proofs.Scheduler.Bounds
import Troupe.Proofs.Scheduler.Conservation
import Troupe.Proofs.Scheduler.Floor
import Troupe.Proofs.Scheduler.Custody
import Troupe.Proofs.Agent.Overtaking
import Troupe.Proofs.Node.Floor
import Troupe.Proofs.Shard.Order
import Troupe.Proofs.Shard.Ring
import Troupe.Proofs.Shard.Remapping
import Troupe.Proofs.Mailbox.Traffic
import Troupe.Proofs.Mailbox.Closing
import Troupe.Proofs.Agent.Stirring
import Troupe.Proofs.Agent.Parking
import Troupe.Proofs.Mailbox.Senders
import Troupe.Proofs.Mailbox.Gauge
import Troupe.Proofs.Promise.Once
import Troupe.Proofs.Channel.Lifecycle
import Troupe.Proofs.Lease.Discretion
import Troupe.Proofs.Lease.Patience
import Troupe.Proofs.Agent.Tenure
import Troupe.Proofs.Agent.Summons
import Troupe.Proofs.Agent.Budget
import Troupe.Proofs.Agent.Conduct
import Troupe.Proofs.Node.House
import Troupe.Proofs.Node.Shutdown
import Troupe.Proofs.Agent.Allowance
import Troupe.Proofs.Agent.Keeping
import Troupe.Proofs.Node.Departure
import Troupe.Proofs.Time.Deadlines
import Troupe.Proofs.Waking
import Troupe.Proofs.Promise.Waiting
import Troupe.Proofs.Timer.Punctuality
import Troupe.Proofs.Shard.Names
import Troupe.Proofs.Gossip.Recent
import Troupe.Proofs.Gossip.Accounting
import Troupe.Proofs.Node.Handover
import Troupe.Proofs.Strategy.Victims
import Troupe.Proofs.Strategy.Placement
import Troupe.Proofs.Scheduler.Capacity
import Troupe.Proofs.Node.Accounts
import Troupe.Proofs.Node.Bookkeeping
import Troupe.Proofs.Node.Failures
import Troupe.Proofs.Mailbox.Sizing
import Troupe.Proofs.Scheduler.Throttle
import Troupe.Proofs.Scheduler.Fairness
