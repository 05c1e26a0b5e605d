import Troupe.Shard.Basic

/-!
# Rings

A ring keeps its points sorted, for many look-ups over a list of shards that seldom
changes. Adding a shard appends it, removing a name removes every shard of that name.

* `remove_absent` — removing a name that no shard bears changes nothing.
-/

namespace Troupe

/-- A list of shards with its points in ring order. -/
structure ShardRing where
  place : Placement
  shards : List (List UInt8)
  points : List RingPoint

namespace ShardRing

/-- Ring order as a relation that allows equality. -/
def notAfter (a b : RingPoint) : Bool := !b.before a

/-- The ring of a list of shards. -/
def ofShards (place : Placement) (shards : List (List UInt8)) : ShardRing :=
  ⟨place, shards, (ringPoints place shards).mergeSort notAfter⟩

/-- The ring with one shard more. -/
def add (r : ShardRing) (name : List UInt8) : ShardRing := ofShards r.place (r.shards ++ [name])

/-- The ring without the shards of a name; answers whether there were any. -/
def remove (r : ShardRing) (name : List UInt8) : ShardRing × Bool :=
  let left := r.shards.filter (· ≠ name)
  if left.length = r.shards.length then (r, false) else (ofShards r.place left, true)

/-- The position of the shard that a key belongs to: the owner of the first point at or
after its hash, around the end of the ring if need be. -/
def locate (r : ShardRing) (key : List UInt8) : Except Fault Nat :=
  let target := r.place.key key
  let slot := (r.points.takeWhile fun p => decide (p.hash < target)).length
  -- past the last point the ring begins again
  ownerOf r.points[slot % r.points.length]?

/-- The number of shards. -/
def length (r : ShardRing) : Nat := r.shards.length

/-- Whether there are no shards. -/
def isEmpty (r : ShardRing) : Bool := r.shards.isEmpty

theorem remove_absent (r : ShardRing) (name : List UInt8) (h : name ∉ r.shards) :
    r.remove name = (r, false) := by
  have : r.shards.filter (· ≠ name) = r.shards := by
    rw [List.filter_eq_self]
    intro a ha
    simpa using fun e : a = name => h (e ▸ ha)
  rw [remove, this, if_pos rfl]

end ShardRing

end Troupe
