import Mathlib.Data.List.Lex
import Mathlib.Data.List.MinMax
import Mathlib.Order.Nat
import Mathlib.Data.Prod.Lex
import Mathlib.Order.BooleanAlgebra.Basic
import Troupe.Shard.Basic

/-!
# The turn of a point

A key goes once round the ring from its own hash: points at or after it come first, then,
past the end, those before it. So every point has its turn for a key, and the turns are
in a linear order. The point that a key belongs to is the one whose turn is first, and of
that point only the name of its shard matters.

* `IsFirst.unique` — at most one point of a ring has the first turn;
* `scan_eq_some_iff` — it is the one that a scan comes to;
* `Owns.unique`, `Owns.of_subset` — whose it is depends on the names alone;
* `owner?_eq_some_iff` — and that is the name the choice of a shard answers.
-/

namespace Troupe

namespace RingPoint

/-- Bytes are ordered by their value. -/
scoped instance : LinearOrder UInt8 where
  le_refl := UInt8.le_refl
  le_trans _ _ _ := UInt8.le_trans
  le_antisymm _ _ := UInt8.le_antisymm
  le_total := UInt8.le_total
  lt_iff_le_not_ge a b := by
    rw [UInt8.lt_iff_toNat_lt, UInt8.le_iff_toNat_le, UInt8.le_iff_toNat_le]
    omega
  toDecidableLE := inferInstance

/-- The turn of a hash and a name for a key whose own hash is `target`. -/
def spot (target hash : Nat) (name : List UInt8) : Bool ×ₗ Nat ×ₗ List UInt8 :=
  toLex (decide (hash < target), toLex (hash, name))

/-- The turn of a point. -/
def turn (target : Nat) (p : RingPoint) : (Bool ×ₗ Nat ×ₗ List UInt8) ×ₗ Nat :=
  toLex (spot target p.hash p.name, p.index)

/-- No two points have one turn. -/
theorem turn_injective (target : Nat) : Function.Injective (turn target) := by
  rintro ⟨hash, name, index⟩ ⟨hash', name', index'⟩ h
  simp only [turn, spot, EmbeddingLike.apply_eq_iff_eq, Prod.mk.injEq] at h
  obtain ⟨⟨-, rfl, rfl⟩, rfl⟩ := h
  rfl

/-- Points with turns in order are points of shards with turns in order. -/
theorem spot_le_of_turn_le {target : Nat} {p q : RingPoint} (h : p.turn target ≤ q.turn target) :
    spot target p.hash p.name ≤ spot target q.hash q.name := by
  rcases Prod.Lex.toLex_le_toLex.mp h with hlt | ⟨heq, -⟩
  · exact le_of_lt hlt
  · exact le_of_eq heq

/-- The spot of a point tells its name. -/
theorem name_eq_of_spot_eq {target hash hash' : Nat} {name name' : List UInt8}
    (h : spot target hash name = spot target hash' name') : name = name' := by
  simp only [spot, EmbeddingLike.apply_eq_iff_eq, Prod.mk.injEq] at h
  exact h.2.2

/-- The order of the ring is the order of turns for the lowest key. -/
theorem before_iff {a b : RingPoint} : a.before b = true ↔ a.turn 0 < b.turn 0 := by
  obtain ⟨hash, name, index⟩ := a
  obtain ⟨hash', name', index'⟩ := b
  simp only [before, turn, spot, Prod.Lex.toLex_lt_toLex, Nat.not_lt_zero, decide_false,
    Bool.or_eq_true, Bool.and_eq_true, decide_eq_true_eq, beq_iff_eq, lt_irrefl, false_or,
    true_and, EmbeddingLike.apply_eq_iff_eq, Prod.mk.injEq]
  -- hash, name and index decide in this order on both sides
  constructor
  · rintro (hlt | ⟨rfl, hlt | ⟨rfl, hlt⟩⟩)
    · exact .inl (.inl hlt)
    · exact .inl (.inr ⟨rfl, hlt⟩)
    · exact .inr ⟨⟨rfl, rfl⟩, hlt⟩
  · rintro ((hlt | ⟨rfl, hlt⟩) | ⟨⟨rfl, rfl⟩, hlt⟩)
    · exact .inl hlt
    · exact .inr ⟨rfl, .inl hlt⟩
    · exact .inr ⟨rfl, .inr ⟨rfl, hlt⟩⟩

/-- A point at or after the key has its turn before one that is not. -/
theorem turn_le_of_side {target : Nat} {a b : RingPoint} (ha : target ≤ a.hash)
    (hb : b.hash < target) : a.turn target ≤ b.turn target := by
  have hspot : spot target a.hash a.name < spot target b.hash b.name := by
    refine Prod.Lex.toLex_lt_toLex.mpr (.inl ?_)
    simp [hb, Nat.not_lt.mpr ha]
  exact le_of_lt (Prod.Lex.toLex_lt_toLex.mpr (.inl hspot))

/-- On one side of the key the turns are in the order of the ring. -/
theorem turn_le_iff_of_side {target : Nat} {a b : RingPoint}
    (h : a.hash < target ↔ b.hash < target) :
    a.turn target ≤ b.turn target ↔ a.turn 0 ≤ b.turn 0 := by
  simp [turn, spot, Prod.Lex.toLex_le_toLex, Prod.Lex.toLex_lt_toLex, h]

/-- The hashes are in the order of the ring. -/
theorem hash_le_of_turn_le {a b : RingPoint} (h : a.turn 0 ≤ b.turn 0) : a.hash ≤ b.hash := by
  have hspot := spot_le_of_turn_le h
  simp only [spot, Nat.not_lt_zero, decide_false, Prod.Lex.toLex_le_toLex, lt_irrefl, false_or,
    true_and] at hspot
  rcases hspot with hlt | ⟨heq, -⟩
  · exact le_of_lt hlt
  · exact le_of_eq heq

end RingPoint

open scoped RingPoint

/-! ## The first of the points -/

/-- Of these points `p` has the first turn. -/
structure IsFirst (target : Nat) (points : List RingPoint) (p : RingPoint) : Prop where
  mem : p ∈ points
  turn_le : ∀ q ∈ points, p.turn target ≤ q.turn target

/-- The first of some points is first in any order of them. -/
theorem IsFirst.unique {target : Nat} {points points' : List RingPoint} {p p' : RingPoint}
    (h : IsFirst target points p) (h' : IsFirst target points' p')
    (hperm : points.Perm points') : p = p' :=
  RingPoint.turn_injective target
    (le_antisymm (h.turn_le p' (hperm.mem_iff.mpr h'.mem)) (h'.turn_le p (hperm.mem_iff.mp h.mem)))

/-- Keeping the earlier of two points keeps the one with the least turn. -/
theorem foldl_earlier (points : List RingPoint) :
    points.foldl RingPoint.earlier none = points.argmin (RingPoint.turn 0) := by
  refine congrArg (fun f => points.foldl f none) (funext₂ fun best p => ?_)
  cases best with
  | none => rfl
  | some b =>
      by_cases hlt : p.turn 0 < b.turn 0
      · simp [RingPoint.earlier, List.argAux, RingPoint.before_iff, hlt]
      · simp [RingPoint.earlier, List.argAux, RingPoint.before_iff, hlt]

/-- What a scan has found so far, one point further on. -/
def scanStep (target : Nat) (best : Option RingPoint × Option RingPoint) (p : RingPoint) :
    Option RingPoint × Option RingPoint :=
  (if target ≤ p.hash then RingPoint.earlier best.1 p else best.1, RingPoint.earlier best.2 p)

/-- The two searches of a scan do not look at each other. -/
theorem foldl_scanStep (target : Nat) (points : List RingPoint)
    (best : Option RingPoint × Option RingPoint) :
    points.foldl (scanStep target) best =
      ((points.filter fun p => target ≤ p.hash).foldl RingPoint.earlier best.1,
        points.foldl RingPoint.earlier best.2) := by
  induction points generalizing best with
  | nil => rfl
  | cons p rest ih =>
      rw [List.foldl_cons, ih, scanStep]
      by_cases hp : target ≤ p.hash
      · simp [hp]
      · simp [hp]

/-- A scan goes through the points at or after the key, and through all. -/
theorem scan_eq_or (target : Nat) (points : List RingPoint) :
    scan target points =
      ((points.filter fun p => target ≤ p.hash).argmin (RingPoint.turn 0)).or
        (points.argmin (RingPoint.turn 0)) := by
  have hscan : scan target points =
      (points.foldl (scanStep target) (none, none)).1.or
        (points.foldl (scanStep target) (none, none)).2 := rfl
  rw [hscan, foldl_scanStep, foldl_earlier, foldl_earlier]

/-- A scan comes to the point with the first turn. -/
theorem isFirst_of_scan {target : Nat} {points : List RingPoint} {p : RingPoint}
    (h : scan target points = some p) : IsFirst target points p := by
  rw [scan_eq_or, Option.or_eq_some_iff] at h
  -- the key's successor if there is one, else the lowest point of the ring
  rcases h with hsuccessor | ⟨hnone, hlowest⟩
  · have hmem := List.mem_filter.mp (List.argmin_mem hsuccessor)
    have hp : target ≤ p.hash := of_decide_eq_true hmem.2
    refine ⟨hmem.1, fun q hq => ?_⟩
    by_cases hside : q.hash < target
    · exact RingPoint.turn_le_of_side hp hside
    · have hkept : q ∈ points.filter fun p => target ≤ p.hash :=
        List.mem_filter.mpr ⟨hq, decide_eq_true (Nat.not_lt.mp hside)⟩
      have hsame : p.hash < target ↔ q.hash < target := by omega
      exact (RingPoint.turn_le_iff_of_side hsame).mpr (List.le_of_mem_argmin hkept hsuccessor)
  · -- past the end of the ring: every point lies before the key
    have hempty := List.argmin_eq_none.mp hnone
    have hbelow : ∀ q ∈ points, q.hash < target := by
      intro q hq
      have hnot := List.filter_eq_nil_iff.mp hempty q hq
      exact Nat.not_le.mp fun hle => hnot (decide_eq_true hle)
    have hmem := List.argmin_mem hlowest
    refine ⟨hmem, fun q hq => ?_⟩
    have hsame : p.hash < target ↔ q.hash < target := iff_of_true (hbelow p hmem) (hbelow q hq)
    exact (RingPoint.turn_le_iff_of_side hsame).mpr (List.le_of_mem_argmin hq hlowest)

/-- Only an empty ring has nothing to find. -/
theorem scan_eq_none_iff {target : Nat} {points : List RingPoint} :
    scan target points = none ↔ points = [] := by
  rw [scan_eq_or, Option.or_eq_none_iff, List.argmin_eq_none, List.argmin_eq_none]
  constructor
  · exact fun h => h.2
  · rintro rfl
    exact ⟨rfl, rfl⟩

/-- The scan finds exactly the first point. -/
theorem scan_eq_some_iff {target : Nat} {points : List RingPoint} {p : RingPoint} :
    scan target points = some p ↔ IsFirst target points p := by
  constructor
  · exact isFirst_of_scan
  · intro h
    cases hscan : scan target points with
    | none => exact absurd h.mem (scan_eq_none_iff.mp hscan ▸ List.not_mem_nil)
    | some q => rw [(isFirst_of_scan hscan).unique h (List.Perm.refl points)]

/-! ## The points of a list of shards -/

/-- The points of a ring are those of its shards, numbered. -/
theorem mem_ringPoints {place : Placement} {shards : List (List UInt8)} {p : RingPoint} :
    p ∈ ringPoints place shards ↔ shards[p.index]? = some p.name ∧
      ∃ number < pointsPerShard, p.hash = place.point p.name number := by
  obtain ⟨hash, name, index⟩ := p
  simp only [ringPoints, pointsOf, List.mem_flatMap, Prod.exists, List.mk_mem_zipIdx_iff_getElem?,
    List.mem_map, List.mem_range, RingPoint.mk.injEq]
  constructor
  · rintro ⟨name', index', hmem, number, hnumber, rfl, rfl, rfl⟩
    exact ⟨hmem, number, hnumber, rfl⟩
  · rintro ⟨hmem, number, hnumber, rfl⟩
    exact ⟨name, index, hmem, number, hnumber, rfl, rfl, rfl⟩

/-- A ring without points is a ring without shards. -/
theorem ringPoints_eq_nil_iff {place : Placement} {shards : List (List UInt8)} :
    ringPoints place shards = [] ↔ shards = [] := by
  constructor
  · intro hnone
    cases shards with
    | nil => rfl
    | cons name rest =>
        have hmem : (⟨place.point name 0, name, 0⟩ : RingPoint) ∈
            ringPoints place (name :: rest) :=
          mem_ringPoints.mpr ⟨rfl, 0, by decide, rfl⟩
        rw [hnone] at hmem
        exact nomatch hmem
  · rintro rfl
    rfl

/-- The choice fails exactly if there are no shards. -/
theorem shard_eq_error_iff {place : Placement} {key : List UInt8} {shards : List (List UInt8)} :
    shard place key shards = .error .shardUnavailable ↔ shards = [] := by
  have hnone : scan (place.key key) (ringPoints place shards) = none ↔ shards = [] :=
    scan_eq_none_iff.trans ringPoints_eq_nil_iff
  rw [← hnone, shard]
  cases scan (place.key key) (ringPoints place shards) with
  | none => simp [ownerOf]
  | some p => simp [ownerOf]

/-! ## Owners -/

/-- The name of the shard that a key belongs to. -/
def owner? (place : Placement) (key : List UInt8) (shards : List (List UInt8)) :
    Option (List UInt8) :=
  (shard place key shards).toOption.bind (shards[·]?)

/-- The shards named `name` have the first turn of all for a key. -/
structure Owns (place : Placement) (key : List UInt8) (shards : List (List UInt8))
    (name : List UInt8) : Prop where
  mem : name ∈ shards
  turn_le : ∃ number < pointsPerShard, ∀ other ∈ shards, ∀ number' < pointsPerShard,
    RingPoint.spot (place.key key) (place.point name number) name ≤
      RingPoint.spot (place.key key) (place.point other number') other

variable {place : Placement} {key : List UInt8} {shards : List (List UInt8)}
  {name : List UInt8}

/-- Two lists that hold each other's owner of a key have the same owner. -/
theorem Owns.unique {shards' : List (List UInt8)} {name' : List UInt8}
    (h : Owns place key shards name) (h' : Owns place key shards' name')
    (hmem : name ∈ shards') (hmem' : name' ∈ shards) : name = name' := by
  obtain ⟨number, hnumber, hle⟩ := h.turn_le
  obtain ⟨number', hnumber', hle'⟩ := h'.turn_le
  exact RingPoint.name_eq_of_spot_eq
    (le_antisymm (hle name' hmem' number' hnumber') (hle' name hmem number hnumber))

/-- Who has the first turn of many has it of fewer, too. -/
theorem Owns.of_subset {fewer : List (List UInt8)} (h : Owns place key shards name)
    (hsubset : fewer ⊆ shards) (hmem : name ∈ fewer) : Owns place key fewer name := by
  obtain ⟨number, hnumber, hle⟩ := h.turn_le
  exact ⟨hmem, number, hnumber, fun other hother => hle other (hsubset hother)⟩

/-- The name of the first point owns the key. -/
theorem IsFirst.owns {p : RingPoint}
    (h : IsFirst (place.key key) (ringPoints place shards) p) : Owns place key shards p.name := by
  obtain ⟨hindex, number, hnumber, hhash⟩ := mem_ringPoints.mp h.mem
  refine ⟨List.mem_of_getElem? hindex, number, hnumber, fun other hother number' hnumber' => ?_⟩
  obtain ⟨index, hother⟩ := List.mem_iff_getElem?.mp hother
  have hmem : (⟨place.point other number', other, index⟩ : RingPoint) ∈ ringPoints place shards :=
    mem_ringPoints.mpr ⟨hother, number', hnumber', rfl⟩
  rw [← hhash]
  exact RingPoint.spot_le_of_turn_le (h.turn_le _ hmem)

/-- The choice of a shard answers whoever has the first turn. -/
theorem owner?_eq_some_iff : owner? place key shards = some name ↔ Owns place key shards name := by
  -- whatever the scan finds is first, so its name is the owner
  have howns : ∀ {p : RingPoint}, scan (place.key key) (ringPoints place shards) = some p →
      owner? place key shards = some p.name ∧ Owns place key shards p.name := by
    intro p hp
    have hfirst := isFirst_of_scan hp
    have hindex := (mem_ringPoints.mp hfirst.mem).1
    exact ⟨by simp [owner?, shard, hp, ownerOf, Except.toOption, hindex], hfirst.owns⟩
  cases hscan : scan (place.key key) (ringPoints place shards) with
  | none =>
      have hnil : shards = [] := ringPoints_eq_nil_iff.mp (scan_eq_none_iff.mp hscan)
      subst hnil
      constructor
      · intro h
        exact nomatch h
      · intro h
        exact nomatch h.mem
  | some p =>
      obtain ⟨howner, hp⟩ := howns hscan
      rw [howner, Option.some.injEq]
      constructor
      · rintro rfl
        exact hp
      · intro h
        exact hp.unique h hp.mem h.mem

/-- A key has an owner wherever there is a shard. -/
theorem exists_owns (place : Placement) (key : List UInt8) (hne : shards ≠ []) :
    ∃ name, Owns place key shards name := by
  cases hscan : scan (place.key key) (ringPoints place shards) with
  | none => exact absurd (ringPoints_eq_nil_iff.mp (scan_eq_none_iff.mp hscan)) hne
  | some p => exact ⟨p.name, (isFirst_of_scan hscan).owns⟩

end Troupe
