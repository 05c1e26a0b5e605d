import Troupe.Fault
import Troupe.Sha256

/-!
# Sharding

Every shard owns a fixed number of points on a ring of hashes. A key belongs to the
owner of the first point at or after the key's own hash, and to the owner of the
lowest point when there is none. Points with equal hashes are ordered by the name of
their shard and then by its position, so the choice is always determined.

Names and keys are byte strings; the hashes are parameters.

* `shardAll_eq_map` — sharding many keys at once is sharding each of them.
-/

namespace Troupe

/-- The number of points a shard owns. -/
def pointsPerShard : Nat := 64

/-- How keys and points are placed on the ring. -/
structure Placement where
  /-- Where a key falls. -/
  key : List UInt8 → Nat
  /-- Where the point of a shard with a given number lies. -/
  point : List UInt8 → Nat → Nat

namespace Placement

/-- A number below `2 ^ 32` in four bytes, highest first. -/
def numeral (n : Nat) : List UInt8 :=
  [UInt8.ofNat (n / 0x1000000), UInt8.ofNat (n / 0x10000), UInt8.ofNat (n / 0x100), UInt8.ofNat n]

/-- The placement in use: the first eight bytes of a digest, of the key itself or of
the shard's name, a number sign and the number of the point. -/
def digest : Placement where
  key := Sha256.leading
  point := fun name number => Sha256.leading (name ++ [35] ++ numeral number)

end Placement

/-- A point of the ring: its hash, the name of its shard and the shard's position. -/
structure RingPoint where
  hash : Nat
  name : List UInt8
  index : Nat
deriving DecidableEq, Repr

namespace RingPoint

/-- Whether `a` comes before `b` on the ring. -/
def before (a b : RingPoint) : Bool :=
  decide (a.hash < b.hash) ||
    (a.hash == b.hash && (decide (a.name < b.name) || (a.name == b.name && decide (a.index < b.index))))

/-- The earlier of a point and the best so far. -/
def earlier (best : Option RingPoint) (p : RingPoint) : Option RingPoint :=
  match best with
  | none => some p
  | some b => some (if p.before b then p else b)

end RingPoint

/-- The points of one shard. -/
def pointsOf (place : Placement) (name : List UInt8) (index : Nat) : List RingPoint :=
  (List.range pointsPerShard).map fun number => ⟨place.point name number, name, index⟩

/-- The points of all shards, shard by shard. -/
def ringPoints (place : Placement) (shards : List (List UInt8)) : List RingPoint :=
  shards.zipIdx.flatMap fun (name, index) => pointsOf place name index

/-- Goes through the points, keeping the earliest at or after `target` and the
earliest of all. -/
def scan (target : Nat) (points : List RingPoint) : Option RingPoint :=
  let (successor, lowest) := points.foldl
    (fun (successor, lowest) p =>
      (if target ≤ p.hash then RingPoint.earlier successor p else successor,
        RingPoint.earlier lowest p))
    ((none, none) : Option RingPoint × Option RingPoint)
  successor.or lowest

/-- The position of the shard that a point belongs to. -/
def ownerOf : Option RingPoint → Except Fault Nat
  | some p => .ok p.index
  | none => .error .shardUnavailable

/-- The position of the shard that each key belongs to. -/
def shardAll (place : Placement) (keys shards : List (List UInt8)) : List (Except Fault Nat) :=
  let points := ringPoints place shards
  keys.map fun key => ownerOf (scan (place.key key) points)

/-- The position of the shard that a key belongs to. -/
def shard (place : Placement) (key : List UInt8) (shards : List (List UInt8)) : Except Fault Nat :=
  ownerOf (scan (place.key key) (ringPoints place shards))

/-- Many keys are sharded as each of them is. -/
theorem shardAll_eq_map (place : Placement) (keys shards : List (List UInt8)) :
    shardAll place keys shards = keys.map fun key => shard place key shards := rfl

end Troupe
