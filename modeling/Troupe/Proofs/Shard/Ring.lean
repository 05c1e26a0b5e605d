import Mathlib.Data.List.TakeWhile
import Troupe.Proofs.Shard.Order
import Troupe.Shard.Ring

/-!
# Rings and scans

A ring looks a key up in its sorted points; a scan goes through all points once. However
a ring came to its members, and however the hashes of points and keys fall together, both
come to the point with the first turn for the key.

* `run_eq_ofShards` — after any changes a ring is the ring of its members;
* `isFirst_slot` — in sorted points the slot of a key holds the point with the first turn;
* `locate_of_split` — any search for the end of the points below a key finds that slot;
* `locate_run_eq_shard` — a ring and a scan agree after any changes.
-/

namespace Troupe

open scoped RingPoint

namespace ShardRing

variable {place : Placement} {key : List UInt8}

/-! ## Changes -/

/-- A change to the members of a ring. -/
inductive Change where
  | add (name : List UInt8)
  | remove (name : List UInt8)
deriving DecidableEq, Repr

def change (r : ShardRing) : Change → ShardRing
  | .add name => r.add name
  | .remove name => (r.remove name).1

/-- What comes of changes one after another. -/
def run (r : ShardRing) (changes : List Change) : ShardRing := changes.foldl change r

/-- Removing a name removes it wherever it stands. -/
theorem shards_remove (r : ShardRing) (name : List UInt8) :
    (r.remove name).1.shards = r.shards.filter (· ≠ name) := by
  unfold remove
  dsimp only
  split
  · next hlength =>
      have hall := List.length_filter_eq_length_iff.mp hlength
      exact (List.filter_eq_self.mpr hall).symm
  · rfl

/-- A change leaves a ring that is the ring of its members. -/
theorem change_eq_ofShards (shards : List (List UInt8)) (c : Change) :
    (ofShards place shards).change c =
      ofShards place ((ofShards place shards).change c).shards := by
  cases c with
  | add name => rfl
  | remove name =>
      simp only [change, remove]
      split
      · rfl
      · rfl

/-- After any changes a ring is the ring of its members. -/
theorem run_eq_ofShards (initial : List (List UInt8)) (changes : List Change) :
    (ofShards place initial).run changes =
      ofShards place ((ofShards place initial).run changes).shards := by
  induction changes generalizing initial with
  | nil => rfl
  | cons c rest ih =>
      show ((ofShards place initial).change c).run rest =
        ofShards place (((ofShards place initial).change c).run rest).shards
      rw [change_eq_ofShards]
      exact ih _

/-! ## Looking up -/

/-- The points of a ring are sorted. -/
theorem pairwise_points (shards : List (List UInt8)) :
    (ofShards place shards).points.Pairwise fun a b => a.turn 0 ≤ b.turn 0 := by
  have hle : ∀ a b : RingPoint, notAfter a b = true ↔ a.turn 0 ≤ b.turn 0 := by
    intro a b
    rw [notAfter, Bool.not_eq_true', ← Bool.not_eq_true, RingPoint.before_iff, not_lt]
  have htrans : ∀ a b c : RingPoint,
      notAfter a b = true → notAfter b c = true → notAfter a c = true := by
    intro a b c hab hbc
    exact (hle a c).mpr (le_trans ((hle a b).mp hab) ((hle b c).mp hbc))
  have htotal : ∀ a b : RingPoint, (notAfter a b || notAfter b a) = true := by
    intro a b
    rw [Bool.or_eq_true, hle, hle]
    exact le_total _ _
  have hsorted := List.pairwise_mergeSort htrans htotal (ringPoints place shards)
  exact hsorted.imp fun hab => (hle _ _).mp hab

/-- In sorted points the first one that is not below a key, or around the end the first of
all, has the first turn for it. -/
theorem isFirst_slot {points : List RingPoint}
    (hsorted : points.Pairwise fun a b => a.turn 0 ≤ b.turn 0) (hne : points ≠ []) (target : Nat) :
    ∃ p, points[(points.takeWhile fun p => decide (p.hash < target)).length % points.length]? =
      some p ∧ IsFirst target points p := by
  have hsplit := List.takeWhile_append_dropWhile
    (p := fun p : RingPoint => decide (p.hash < target)) (l := points)
  have hbelow : ∀ p ∈ points.takeWhile (fun p => decide (p.hash < target)), p.hash < target := by
    intro p hp
    have hdecide := List.mem_takeWhile_imp hp
    exact of_decide_eq_true hdecide
  generalize points.takeWhile (fun p => decide (p.hash < target)) = below at hsplit hbelow ⊢
  -- whether any point lies at the key or above it
  cases hrest : points.dropWhile fun p => decide (p.hash < target) with
  | nil =>
      -- every point lies below the key, so the ring begins again
      rw [hrest, List.append_nil] at hsplit
      subst hsplit
      rw [Nat.mod_self]
      cases below with
      | nil => exact absurd rfl hne
      | cons p rest =>
          refine ⟨p, rfl, List.mem_cons_self, fun q hq => ?_⟩
          have hsame : p.hash < target ↔ q.hash < target :=
            iff_of_true (hbelow p List.mem_cons_self) (hbelow q hq)
          rw [RingPoint.turn_le_iff_of_side hsame]
          rcases List.mem_cons.mp hq with rfl | hq
          · exact le_refl _
          · exact List.rel_of_pairwise_cons hsorted hq
  | cons p rest =>
      have hp : target ≤ p.hash := by
        have hnot := List.head_dropWhile_not (fun p : RingPoint => decide (p.hash < target))
          (l := points) (by rw [hrest]; exact List.cons_ne_nil p rest)
        simp only [hrest, List.head_cons, decide_eq_false_iff_not] at hnot
        exact Nat.not_lt.mp hnot
      rw [hrest] at hsplit
      subst hsplit
      have hlt : below.length < (below ++ p :: rest).length := by simp
      rw [Nat.mod_eq_of_lt hlt]
      refine ⟨p, by simp, by simp, fun q hq => ?_⟩
      rcases List.mem_append.mp hq with hq | hq
      · exact RingPoint.turn_le_of_side hp (hbelow q hq)
      · have hle : p.turn 0 ≤ q.turn 0 := by
          rcases List.mem_cons.mp hq with rfl | hq
          · exact le_refl _
          · exact List.rel_of_pairwise_cons (List.pairwise_append.mp hsorted).2.1 hq
        have hhash := RingPoint.hash_le_of_turn_le hle
        have hsame : p.hash < target ↔ q.hash < target := by omega
        exact (RingPoint.turn_le_iff_of_side hsame).mpr hle

/-- The ring of a list of shards looks a key up as a scan of the list does. -/
theorem locate_ofShards (shards : List (List UInt8)) :
    (ofShards place shards).locate key = shard place key shards := by
  have hperm : (ofShards place shards).points.Perm (ringPoints place shards) :=
    List.mergeSort_perm _ _
  by_cases hne : ringPoints place shards = []
  · have hnone : (ofShards place shards).points = [] := List.Perm.eq_nil (hne ▸ hperm)
    rw [shard, scan_eq_none_iff.mpr hne, locate, hnone]
    rfl
  · obtain ⟨p, hp, hfirst⟩ := isFirst_slot (pairwise_points shards)
      (fun hnil => hne (hnil ▸ hperm).symm.eq_nil) (place.key key)
    have hscan : scan (place.key key) (ringPoints place shards) = some p :=
      scan_eq_some_iff.mpr
        ⟨hperm.mem_iff.mp hfirst.mem, fun q hq => hfirst.turn_le q (hperm.mem_iff.mpr hq)⟩
    rw [shard, hscan]
    exact congrArg ownerOf hp

/-- It does not matter how the end of the points below a key is looked for. -/
theorem locate_of_split (r : ShardRing) {slot : Nat}
    (hbelow : ∀ p ∈ r.points.take slot, p.hash < r.place.key key)
    (habove : ∀ p ∈ r.points.drop slot, ¬ p.hash < r.place.key key) (hle : slot ≤ r.points.length) :
    r.locate key = ownerOf r.points[slot % r.points.length]? := by
  have htake : r.points.takeWhile (fun p => decide (p.hash < r.place.key key)) =
      r.points.take slot := by
    conv_lhs => rw [← List.take_append_drop slot r.points]
    rw [List.takeWhile_append_of_pos fun p hp => decide_eq_true (hbelow p hp)]
    have hnone :
        (r.points.drop slot).takeWhile (fun p => decide (p.hash < r.place.key key)) = [] := by
      cases hdrop : r.points.drop slot with
      | nil => rfl
      | cons p rest =>
          have hp : ¬ p.hash < r.place.key key :=
            habove p (by rw [hdrop]; exact List.mem_cons_self)
          exact List.takeWhile_cons_of_neg (by simpa using hp)
    rw [hnone, List.append_nil]
  rw [locate, htake, List.length_take, Nat.min_eq_left hle]

/-- After any changes to its members a ring looks every key up as a scan of the members does,
wherever keys and points are placed; and it finds a member unless there is none. -/
theorem locate_run_eq_shard (place : Placement) (initial : List (List UInt8))
    (changes : List Change) (key : List UInt8) :
    let r := (ofShards place initial).run changes
    r.locate key = shard place key r.shards ∧
      (r.locate key = .error .shardUnavailable ↔ r.shards = []) ∧
      (shard place key r.shards = .error .shardUnavailable ↔ r.shards = []) ∧
      (r.shards ≠ [] → ∃ index < r.shards.length, r.locate key = .ok index) := by
  intro r
  have hagree : r.locate key = shard place key r.shards := by
    show ((ofShards place initial).run changes).locate key = _
    rw [run_eq_ofShards, locate_ofShards]
  refine ⟨hagree, hagree ▸ shard_eq_error_iff, shard_eq_error_iff, fun hne => ?_⟩
  cases hscan : scan (place.key key) (ringPoints place r.shards) with
  | none => exact absurd (ringPoints_eq_nil_iff.mp (scan_eq_none_iff.mp hscan)) hne
  | some p =>
      have hindex := (mem_ringPoints.mp (isFirst_of_scan hscan).mem).1
      refine ⟨p.index, (List.getElem?_eq_some_iff.mp hindex).1, ?_⟩
      rw [hagree, shard, hscan]
      rfl

/-- Every point lies at seven and the key above them all: the ring begins again, at the first
of the shards with the lowest name. -/
theorem locate_run_of_equal_hashes :
    let place : Placement := ⟨fun _ => 9, fun _ _ => 7⟩
    let ring := (ofShards place [[3], [3]]).run [.add [2], .remove [4], .add [2]]
    ring.shards = [[3], [3], [2], [2]] ∧
      (∃ index < ring.shards.length, ring.locate [] = .ok index) ∧ ring.locate [] = .ok 2 := by
  intro place ring
  obtain ⟨hagree, -, -, hfound⟩ :=
    locate_run_eq_shard place [[3], [3]] [.add [2], .remove [4], .add [2]] []
  have hscan : shard place [] [[3], [3], [2], [2]] = .ok 2 := by decide +kernel
  exact ⟨rfl, hfound (List.cons_ne_nil _ _), hagree.trans hscan⟩

end ShardRing

end Troupe
