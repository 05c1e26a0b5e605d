/-!
# Metrics

The counters of a node. They only grow; the messages in flight are those sent and not
yet received.

* `inFlight_le` — no more are in flight than were sent.
-/

namespace Troupe

/-- Everything that is counted. -/
structure Metrics where
  spawned : Nat := 0
  terminated : Nat := 0
  failed : Nat := 0
  sent : Nat := 0
  received : Nat := 0
  rejected : Nat := 0
  steals : Nat := 0
  stolenTasks : Nat := 0
  engaged : Nat := 0
  cleared : Nat := 0
  /-- Turns finished by each worker. -/
  turns : List Nat := []
deriving DecidableEq, Repr, Inhabited

namespace Metrics

/-- The counters of a node with so many workers. -/
def ofWorkers (workers : Nat) : Metrics := { turns := List.replicate workers 0 }

/-- Messages sent and not received. -/
def inFlight (m : Metrics) : Nat := m.sent - m.received

/-- Counts a turn of a worker. -/
def recordTurn (m : Metrics) (worker : Nat) : Metrics :=
  { m with turns := m.turns.modify worker (· + 1) }

/-- The turns of a worker; none of a worker there is not. -/
def turnsOf (m : Metrics) (worker : Nat) : Nat := m.turns.getD worker 0

theorem inFlight_le (m : Metrics) : m.inFlight ≤ m.sent := Nat.sub_le _ _

end Metrics

end Troupe
