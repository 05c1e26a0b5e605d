/-!
# Memory of identities seen

A receiver of gossip remembers the last identities it accepted, up to a capacity, and
accepts an identity only if it does not remember it. When the memory is full, the
oldest identity is forgotten to make room.

* `observe_seen` — an identity that is remembered changes nothing;
* `contains_observe` — an identity just observed is remembered.
-/

namespace Troupe

/-- The identities remembered, as a set and in order of arrival. -/
structure Memory (ι : Type) where
  capacity : Nat
  seen : List ι := []
  order : List ι := []
deriving Repr

namespace Memory

variable {ι : Type} [DecidableEq ι]

/-- An empty memory; it always has room for one identity. -/
def ofCapacity (capacity : Nat) : Memory ι := { capacity := max capacity 1 }

/-- The memory used where no capacity is given. -/
def standard : Memory ι := ofCapacity 4096

/-- Whether an identity is remembered. -/
def contains (m : Memory ι) (id : ι) : Bool := m.seen.contains id

/-- The number of identities remembered. -/
def length (m : Memory ι) : Nat := m.order.length

/-- Whether nothing is remembered. -/
def isEmpty (m : Memory ι) : Bool := m.order.isEmpty

/-- Forgets the oldest identity when the memory is full. -/
def makeRoom (m : Memory ι) : Memory ι :=
  if m.order.length = m.capacity then
    match m.order with
    | [] => m
    | oldest :: rest => { m with seen := m.seen.filter (· ≠ oldest), order := rest }
  else m

/-- Remembers an identity; answers whether it was new. -/
def observe (m : Memory ι) (id : ι) : Memory ι × Bool :=
  if m.contains id then (m, false)
  else
    let room := m.makeRoom
    ({ room with seen := id :: room.seen, order := room.order ++ [id] }, true)

theorem observe_seen (m : Memory ι) (id : ι) (h : m.contains id = true) :
    m.observe id = (m, false) := by
  simp [observe, h]

theorem contains_observe (m : Memory ι) (id : ι) : (m.observe id).1.contains id = true := by
  by_cases h : m.contains id = true
  · rw [observe_seen m id h]
    exact h
  · rw [observe, if_neg h]
    simp [contains]

end Memory

end Troupe
