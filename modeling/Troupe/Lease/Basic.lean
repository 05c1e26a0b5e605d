import Troupe.Fault
import Troupe.Table
import Troupe.Time.Clock

/-!
# Leases

A lease is an exclusive claim on a key for a limited time. A record stays in the table
after its time has passed, but counts for nothing; the next claim replaces it. Every
grant carries a token larger than all before it, by which a holder that outlived its
lease can be told from the present one.

Each operation takes the one reading of the clock on which it decides.

* `acquire_live` — a live record refuses every claim, also its holder's;
* `acquire_free` — otherwise the claim is granted.
-/

namespace Troupe

/-- A granted claim. -/
structure Lease where
  key : String
  holder : AgentId
  token : Nat
  acquired : Instant
  expires : Instant
deriving DecidableEq, Repr

namespace Lease

/-- Whether the claim still holds. -/
def isLive (l : Lease) (now : Instant) : Bool := decide (now < l.expires)

/-- The time left, zero once it has passed. -/
def remaining (l : Lease) (now : Instant) : Span := l.expires.since now

end Lease

/-- The terms of a table: how long a claim lasts unless said otherwise, and how long a
waiting claimant pauses between attempts. -/
structure LeaseTerms where
  ttl : Span
  retry : Span
deriving DecidableEq, Repr

/-- The records of all keys. -/
structure LeaseTable where
  terms : LeaseTerms
  records : Table String Lease := Table.empty
  nextToken : Nat := 1
deriving Repr

namespace LeaseTable

/-- The live record of a key. -/
def live? (t : LeaseTable) (now : Instant) (key : String) : Option Lease :=
  (t.records.get? key).filter (·.isLive now)

/-- Records a new grant. -/
def grant (t : LeaseTable) (now : Instant) (key : String) (holder : AgentId) (ttl : Span) :
    LeaseTable × Lease :=
  let lease : Lease := ⟨key, holder, t.nextToken, now, deadlineAfter now ttl⟩
  ({ t with records := t.records.insert key lease, nextToken := t.nextToken + 1 }, lease)

/-- Claims a key. -/
def acquire (t : LeaseTable) (now : Instant) (key : String) (holder : AgentId) (ttl : Span) :
    LeaseTable × Except Fault Lease :=
  if ttl.isZero then (t, .error (.misuse .zeroLease))
  else
    match t.live? now key with
    | some current => (t, .error (.leaseConflict key current.holder))
    | none =>
      let (granted, lease) := t.grant now key holder ttl
      (granted, .ok lease)

/-- Extends the claim that a lease stands for to `ttl` from now. -/
def renew (t : LeaseTable) (now : Instant) (lease : Lease) (ttl : Span) :
    LeaseTable × Except Fault Lease :=
  if ttl.isZero then (t, .error (.misuse .zeroLease))
  else
    match t.records.get? lease.key with
    | none => (t, .error (.misuse (.leaseAbsent lease.key)))
    | some current =>
      -- the key went to somebody else since the lease was granted
      if current.token ≠ lease.token then
        if current.isLive now then (t, .error (.leaseConflict lease.key current.holder))
        else (t, .error (.misuse (.leaseSuperseded lease.key)))
      else if current.isLive now then
        let renewed := { current with expires := deadlineAfter now ttl }
        ({ t with records := t.records.insert lease.key renewed }, .ok renewed)
      else (t, .error (.misuse (.leaseExpired lease.key)))

/-- Gives a key back; answers whether a live claim ended. -/
def release (t : LeaseTable) (now : Instant) (key : String) (holder : AgentId) :
    LeaseTable × Except Fault Bool :=
  match t.records.get? key with
  | none => (t, .ok false)
  | some current =>
    let live := current.isLive now
    if current.holder ≠ holder ∧ live = true then (t, .error (.leaseConflict key current.holder))
    -- a record whose time has passed is anybody's to remove
    else ({ t with records := t.records.erase key }, .ok live)

/-- The holder of a live claim. -/
def holder? (t : LeaseTable) (now : Instant) (key : String) : Option AgentId :=
  (t.live? now key).map (·.holder)

/-- The number of live claims. -/
def liveCount (t : LeaseTable) (now : Instant) : Nat := t.records.values.countP (·.isLive now)

/-- Drops the records whose time has passed; answers how many. -/
def purge (t : LeaseTable) (now : Instant) : LeaseTable × Nat :=
  let left := t.records.rows.filter fun row => row.2.isLive now
  ({ t with records := ⟨left⟩ }, t.records.rows.length - left.length)

theorem acquire_live {t : LeaseTable} {now : Instant} {key : String} {current : Lease}
    (h : t.live? now key = some current) (holder : AgentId) {ttl : Span} (hz : ttl.isZero = false) :
    t.acquire now key holder ttl = (t, .error (.leaseConflict key current.holder)) := by
  simp [acquire, h, hz]

theorem acquire_free {t : LeaseTable} {now : Instant} {key : String}
    (h : t.live? now key = none) (holder : AgentId) {ttl : Span} (hz : ttl.isZero = false) :
    (t.acquire now key holder ttl).2 = .ok (t.grant now key holder ttl).2 := by
  simp [acquire, h, hz]

end LeaseTable

end Troupe
