import Troupe.Lease.Basic

/-!
# Claims that read a clock

How many readings an operation takes is part of what it does: a claim of no length is
refused before any reading, every other operation takes one, and a claimant that waits
takes one for its deadline, one for each attempt and two between attempts.

* `acquireOn_zero` — a claim of no length takes no reading.
-/

namespace Troupe

/-- Where readings come from, and what sleeping does there. -/
structure TimeSource (κ : Type) where
  read : κ → Instant × κ
  sleep : Span → κ → κ

/-- A clock as a source of readings. -/
def Clock.source : TimeSource Clock := ⟨Clock.read, Clock.sleep⟩

namespace LeaseTable

variable {κ : Type}

/-- Claims a key at the next reading. -/
def acquireOn (src : TimeSource κ) (c : κ) (t : LeaseTable) (key : String) (holder : AgentId)
    (ttl : Span) : κ × LeaseTable × Except Fault Lease :=
  if ttl.isZero then (c, t, .error (.misuse .zeroLease))
  else
    let (now, c) := src.read c
    (c, t.acquire now key holder ttl)

/-- Extends a claim at the next reading. -/
def renewOn (src : TimeSource κ) (c : κ) (t : LeaseTable) (lease : Lease) (ttl : Span) :
    κ × LeaseTable × Except Fault Lease :=
  if ttl.isZero then (c, t, .error (.misuse .zeroLease))
  else
    let (now, c) := src.read c
    (c, t.renew now lease ttl)

/-- Attempts to claim a key until an attempt is not refused for a conflict, or until a
reading has reached the deadline. Answers `none` when `attempts` did not suffice. -/
def attempt (src : TimeSource κ) (key : String) (holder : AgentId) (ttl : Span)
    (deadline : Instant) : (attempts : Nat) → κ → LeaseTable →
    κ × LeaseTable × Option (Except Fault Lease)
  | 0, c, t => (c, t, none)
  | left + 1, c, t =>
    match t.acquireOn src c key holder ttl with
    | (c, t, .error (.leaseConflict k h)) =>
      let (now, c) := src.read c
      if now < deadline then
        -- the pause is measured from a reading of its own
        let (again, c) := src.read c
        let pause := t.terms.retry.shorter (deadline.since again)
        attempt src key holder ttl deadline left (src.sleep pause c) t
      else (c, t, some (.error (.leaseConflict k h)))
    | (c, t, result) => (c, t, some result)

/-- Claims a key, waiting up to `wait` for it to become free. -/
def acquireWithin (src : TimeSource κ) (attempts : Nat) (c : κ) (t : LeaseTable) (key : String)
    (holder : AgentId) (ttl wait : Span) : κ × LeaseTable × Option (Except Fault Lease) :=
  let (now, c) := src.read c
  attempt src key holder ttl (deadlineAfter now wait) attempts c t

theorem acquireOn_zero (src : TimeSource κ) (c : κ) (t : LeaseTable) (key : String)
    (holder : AgentId) :
    t.acquireOn src c key holder Span.zero = (c, t, .error (.misuse .zeroLease)) := rfl

end LeaseTable

end Troupe
