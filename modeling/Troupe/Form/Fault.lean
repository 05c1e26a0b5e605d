import Troupe.Fault
import Troupe.Form.Basic

/-!
# Faults and identities as documents

A fault is a table with the name of its kind and its wording. Capabilities have names
of their own, which are read as well as written.

* `capabilityNamed?_name` — a capability that is written reads back.
-/

namespace Troupe.Form

open Document (table text truth)

/-- The names of the capabilities. -/
def capabilityName : Capability → String
  | .isolated => "isolated"
  | .immutableShared => "immutable_shared"
  | .mutableLocal => "mutable_local"
  | .identityOnly => "identity_only"

/-- The capability of a name. -/
def capabilityNamed? (name : String) : Option Capability :=
  Capability.all.find? fun c => capabilityName c == name

/-- A capability: its name, or a table whose one key is its name. -/
def capabilityOf? : Document → Option Capability
  | .text name => capabilityNamed? name
  | .table [(name, .null)] => capabilityNamed? name
  | _ => none

/-- A capability by name; a value is isolated unless said otherwise. -/
def capability (d : Document) (key : String) : Capability :=
  ((string? d key).bind capabilityNamed?).getD .isolated

def ofCapability (c : Capability) : Document := text (capabilityName c)

def agent? (d : Document) (key : String) : Option AgentId := (nat? d key).map AgentId.mk
def agent (d : Document) (key : String) : AgentId := ⟨nat0 d key⟩
def ofAgent (id : AgentId) : Document := nat id.raw

/-- A table that says what went wrong by name only. -/
def cause (name : String) : Document := table [("error", text name)]

/-- The name of the kind of a fault. -/
def kindOf : Fault → String
  | .spawnRejected => "SpawnRejected"
  | .mailboxFull _ => "MailboxFull"
  | .mailboxClosed => "MailboxClosed"
  | .consumed => "ConsumedValueUse"
  | .violation _ => "CapabilityViolation"
  | .awaitTimeout _ => "AwaitTimeout"
  | .quorumFailure _ _ => "QuorumFailure"
  | .leaseConflict _ _ => "LeaseConflict"
  | .shardUnavailable => "ShardUnavailable"
  | .agentNotFound _ => "AgentNotFound"
  | .agentFailed _ => "AgentFailed"
  | .misuse _ => "InvalidArgument"
  | .badSetting _ => "ConfigError"

/-- A fault with its wording; of settings that cannot be read, the kind only. -/
def ofFault : Fault → Document
  | .badSetting .unreadable => cause "ConfigError"
  | f => table [("error", text (kindOf f)), ("message", text f.text)]

/-- A result, or the fault in its place. -/
def result {α : Type} (f : α → Document) : Except Fault α → Document
  | .ok a => f a
  | .error why => ofFault why

/-- The fault of a given kind; the details are in the fields that the kind has. -/
def faultOf (d : Document) : Fault :=
  let words := string d "text"
  match string d "kind" with
  | "SpawnRejected" => .spawnRejected
  | "MailboxFull" => .mailboxFull (nat0 d "capacity")
  | "MailboxClosed" => .mailboxClosed
  | "ConsumedValueUse" => .consumed
  | "CapabilityViolation" => .violation (.because words)
  | "AwaitTimeout" => .awaitTimeout (span d "timeout")
  | "QuorumFailure" => .quorumFailure (nat0 d "affirmed") (nat0 d "threshold")
  | "LeaseConflict" => .leaseConflict words (agent d "agent")
  | "ShardUnavailable" => .shardUnavailable
  | "AgentNotFound" => .agentNotFound (agent d "agent")
  | "AgentFailed" => .agentFailed words
  | "InvalidArgument" => .misuse (.because words)
  | _ => .badSetting (.because words)

theorem capabilityNamed?_name (c : Capability) : capabilityNamed? (capabilityName c) = some c := by
  cases c <;> decide

end Troupe.Form
