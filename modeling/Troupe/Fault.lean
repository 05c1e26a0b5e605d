import Troupe.AgentId
import Troupe.Capability
import Troupe.Decimal.Shortest
import Troupe.Time.Span

/-!
# Faults

Every way in which an operation can be refused, as the cause of the refusal. The
wording of all of them is in `Fault.text`; a caller that may sensibly try again
asks `Fault.isRecoverable`.

* `isRecoverable_iff` — the five causes that pass with time or elsewhere.
-/

namespace Troupe

/-- A value or a state that its capability keeps where it is. -/
inductive Violation where
  /-- A value of this capability was about to leave its agent. -/
  | cannotLeave (capability : Capability)
  /-- The state of an agent cannot be held under this capability. -/
  | unfitState (capability : Capability)
  /-- Another reason, in words. -/
  | because (reason : String)
deriving DecidableEq, Repr

/-- An argument that no state of affairs would make acceptable, or that came too late. -/
inductive Misuse where
  | zeroCapacity
  | highAboveCapacity (high capacity : Nat)
  | lowNotBelowHigh (low high : Nat)
  | zeroLease
  | leaseAbsent (key : String)
  | leaseSuperseded (key : String)
  | leaseExpired (key : String)
  | zeroThreshold
  | zeroFanout
  | alreadyStarted
  /-- Another reason, in words. -/
  | because (reason : String)
deriving DecidableEq, Repr

/-- A setting outside its range; the two real-valued ones are kept as bit patterns. -/
inductive BadSetting where
  | zeroLocalQueue
  | zeroQuantum
  | smoothing (bits : UInt64)
  | imbalance (bits : UInt64)
  /-- Settings that could not be read at all. -/
  | unreadable
  /-- Another reason, in words. -/
  | because (reason : String)
deriving DecidableEq, Repr

/-- Why an operation was refused. -/
inductive Fault where
  /-- Agents are spawned only while the node runs. -/
  | spawnRejected
  /-- The mailbox holds as much as it may. -/
  | mailboxFull (capacity : Nat)
  /-- The mailbox takes no more. -/
  | mailboxClosed
  /-- The value was moved away earlier. -/
  | consumed
  | violation (why : Violation)
  /-- Nothing came in the time allowed. -/
  | awaitTimeout (allowed : Span)
  /-- The round ended below its threshold. -/
  | quorumFailure (affirmed threshold : Nat)
  /-- The key is held under a live lease. -/
  | leaseConflict (key : String) (holder : AgentId)
  /-- There is no shard to choose from. -/
  | shardUnavailable
  | agentNotFound (id : AgentId)
  | agentFailed (reason : String)
  | misuse (why : Misuse)
  | badSetting (why : BadSetting)
deriving DecidableEq, Repr

def Violation.text : Violation → String
  | .cannotLeave c => c.text ++ " value cannot leave its owning agent"
  | .unfitState c => "agent state cannot be " ++ c.text
  | .because reason => reason

def Misuse.text : Misuse → String
  | .zeroCapacity => "mailbox capacity must be positive"
  | .highAboveCapacity h c =>
    "high watermark " ++ toString h ++ " exceeds capacity " ++ toString c
  | .lowNotBelowHigh l h =>
    "low watermark " ++ toString l ++ " must be below high watermark " ++ toString h
  | .zeroLease => "lease ttl must be non-zero"
  | .leaseAbsent key => "no lease held on '" ++ key ++ "'"
  | .leaseSuperseded key => "lease on '" ++ key ++ "' was superseded"
  | .leaseExpired key => "lease on '" ++ key ++ "' already expired"
  | .zeroThreshold => "quorum threshold must be positive"
  | .zeroFanout => "broadcast fanout must be at least 1"
  | .alreadyStarted => "scheduler already started"
  | .because reason => reason

def BadSetting.text : BadSetting → String
  | .zeroLocalQueue => "local_queue_capacity must be positive"
  | .zeroQuantum => "quantum must be positive"
  | .smoothing bits => "ewma_alpha must be in (0, 1], got " ++ Decimal.text (Float.ofBits bits)
  | .imbalance bits => "imbalance_ratio must be >= 1.0, got " ++ Decimal.text (Float.ofBits bits)
  | .unreadable => "settings could not be read"
  | .because reason => reason

namespace Fault

/-- The fault in words. -/
def text : Fault → String
  | .spawnRejected => "Spawn rejected: runtime is not running"
  | .mailboxFull capacity => "Mailbox full (capacity " ++ toString capacity ++ ")"
  | .mailboxClosed => "Mailbox closed"
  | .consumed => "Isolated value already consumed"
  | .violation why => "Capability violation: " ++ why.text
  | .awaitTimeout allowed => "Await timed out after " ++ allowed.text
  | .quorumFailure affirmed threshold =>
    "Quorum failed: " ++ toString affirmed ++ "/" ++ toString threshold ++ " affirmations"
  | .leaseConflict key holder =>
    "Lease conflict on '" ++ key ++ "' (held by " ++ holder.text ++ ")"
  | .shardUnavailable => "No shard available: shard list is empty"
  | .agentNotFound id => "Agent not found: " ++ id.text
  | .agentFailed reason => "Agent failed: " ++ reason
  | .misuse why => "Invalid argument: " ++ why.text
  | .badSetting why => "Configuration error: " ++ why.text

/-- Whether the same call may succeed later, or at another agent. -/
def isRecoverable : Fault → Bool
  | .mailboxFull _ => true
  | .mailboxClosed => true
  | .awaitTimeout _ => true
  | .quorumFailure _ _ => true
  | .leaseConflict _ _ => true
  | _ => false

theorem isRecoverable_iff (f : Fault) : f.isRecoverable = true ↔
    (∃ c, f = .mailboxFull c) ∨ f = .mailboxClosed ∨ (∃ t, f = .awaitTimeout t) ∨
      (∃ a t, f = .quorumFailure a t) ∨ ∃ k h, f = .leaseConflict k h := by
  cases f <;> simp [isRecoverable]

end Fault

end Troupe
