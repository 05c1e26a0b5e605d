import Troupe.Proofs.Shard.Ring

/-!
# Where a key falls among names

The order of a list of shards, and how often a name stands in it, do not matter to whom a key
belongs: the turns of points are settled by hashes and names before positions are looked at.
A position only says which of the shards that bear the name is meant, and it is the first.

* `Owns.of_sameNames` — who owns a key in one list owns it in every list of the same names;
* `IsFirst.fallsOn` — the point with the first turn belongs to the first shard of its name;
* `choice_isByName` — scans and rings of the same names all fall on one name.
-/

namespace Troupe

/-- Two lists in which the same names stand, in any order and any number of times. -/
def SameNames (shards shards' : List (List UInt8)) : Prop :=
  ∀ name, name ∈ shards ↔ name ∈ shards'

/-- A choice falls on the first of the shards that bear a name. -/
def FallsOn (name : List UInt8) (shards : List (List UInt8)) (choice : Except Fault Nat) : Prop :=
  ∃ index, choice = .ok index ∧ shards[index]? = some name ∧ name ∉ shards.take index

variable {place : Placement} {key : List UInt8} {shards shards' : List (List UInt8)}

theorem Owns.of_sameNames {name : List UInt8} (h : Owns place key shards name)
    (hsame : SameNames shards' shards) : Owns place key shards' name := by
  have hsubset : shards' ⊆ shards := fun other hother => (hsame other).mp hother
  have hmem : name ∈ shards' := (hsame name).mpr h.mem
  exact h.of_subset hsubset hmem

namespace RingPoint

open scoped RingPoint

/-- Of two points in one place on the ring and of one name, positions settle whose turn it is. -/
theorem index_le_of_turn_le {target : Nat} {p q : RingPoint} (h : p.turn target ≤ q.turn target)
    (hhash : p.hash = q.hash) (hname : p.name = q.name) : p.index ≤ q.index := by
  rcases Prod.Lex.toLex_le_toLex.mp h with hlt | ⟨-, hle⟩
  · rw [hhash, hname] at hlt
    exact absurd hlt (lt_irrefl _)
  · exact hle

end RingPoint

/-- Every shard of a name has the same points but for its own position, so no shard of the name
stands before the one whose point has the first turn. -/
theorem IsFirst.fallsOn {target : Nat} {p : RingPoint}
    (h : IsFirst target (ringPoints place shards) p) :
    FallsOn p.name shards (.ok p.index) := by
  obtain ⟨hindex, number, hnumber, hhash⟩ := mem_ringPoints.mp h.mem
  refine ⟨p.index, rfl, hindex, ?_⟩
  intro hearlier
  obtain ⟨index, hlt, hget⟩ := List.mem_take_iff_getElem.mp hearlier
  have hshard : shards[index]? = some p.name := by
    rw [List.getElem?_eq_getElem (by omega), hget]
  -- the same number of the earlier shard gives a point in the same place
  have htwin : (⟨p.hash, p.name, index⟩ : RingPoint) ∈ ringPoints place shards :=
    mem_ringPoints.mpr ⟨hshard, number, hnumber, hhash⟩
  have hturn := h.turn_le _ htwin
  have hle : p.index ≤ index := RingPoint.index_le_of_turn_le hturn rfl rfl
  omega

/-- The choice of a shard falls on the name that owns the key. -/
theorem Owns.fallsOn {name : List UInt8} (h : Owns place key shards name) :
    FallsOn name shards (shard place key shards) := by
  cases hscan : scan (place.key key) (ringPoints place shards) with
  | none =>
      have hnil : shards = [] := ringPoints_eq_nil_iff.mp (scan_eq_none_iff.mp hscan)
      have hmem : name ∈ shards := h.mem
      rw [hnil] at hmem
      exact absurd hmem List.not_mem_nil
  | some p =>
      have hfirst := isFirst_of_scan hscan
      have hname : p.name = name := hfirst.owns.unique h hfirst.owns.mem h.mem
      rw [shard, hscan, ← hname]
      exact hfirst.fallsOn

/-- Wherever keys and points are placed, a key has one name among some names. Every list in which
just these names stand, in whatever order and however often, sends the key to its first shard of
that name; and so does every ring of such a list, whatever its members were before. -/
theorem choice_isByName (place : Placement) (key : List UInt8) {names : List (List UInt8)}
    (hne : names ≠ []) :
    ∃ name, ∀ shards, SameNames shards names →
      FallsOn name shards (shard place key shards) ∧
        ∀ (initial : List (List UInt8)) (changes : List ShardRing.Change),
          ((ShardRing.ofShards place initial).run changes).shards = shards →
            FallsOn name shards (((ShardRing.ofShards place initial).run changes).locate key) := by
  obtain ⟨name, howns⟩ := exists_owns place key hne
  refine ⟨name, ?_⟩
  -- the name is chosen before the list, so every list of the same names falls on it
  intro shards hsame
  have hscan : FallsOn name shards (shard place key shards) := (howns.of_sameNames hsame).fallsOn
  refine ⟨hscan, ?_⟩
  intro initial changes hshards
  -- a ring looks up what a scan of its members finds
  have hring : ((ShardRing.ofShards place initial).run changes).locate key =
      shard place key shards := by
    rw [ShardRing.run_eq_ofShards, hshards, ShardRing.locate_ofShards]
  rw [hring]
  exact hscan

/-- Every point lies at seven and the key above them all, so the lower name is chosen: at the
second place of one list, and at the first place of a ring that has it twice. -/
theorem choice_isByName_of_equal_hashes :
    let place : Placement := ⟨fun _ => 9, fun _ _ => 7⟩
    let ring := (ShardRing.ofShards place [[1], [4], [1]]).run [.add [2], .remove [4]]
    ([[2], [1]] : List (List UInt8)) ≠ [] ∧ SameNames ring.shards [[2], [1]] ∧
      ∃ name, name = [1] ∧ FallsOn name [[2], [1]] (shard place [] [[2], [1]]) ∧
        FallsOn name ring.shards (ring.locate []) := by
  intro place ring
  have hshards : ring.shards = [[1], [1], [2]] := by decide +kernel
  have hsame : SameNames ring.shards [[2], [1]] := by
    intro name
    rw [hshards]
    simp only [List.mem_cons, List.not_mem_nil, or_false]
    tauto
  obtain ⟨name, hfalls⟩ := choice_isByName place [] (List.cons_ne_nil [2] [[1]])
  have hlist := (hfalls [[2], [1]] fun _ => Iff.rfl).1
  have hring := (hfalls ring.shards hsame).2 [[1], [4], [1]] [.add [2], .remove [4]] rfl
  have hname : name = [1] := by
    obtain ⟨index, hchoice, hget, -⟩ := hlist
    have hsecond : shard place [] [[2], [1]] = .ok 1 := by decide +kernel
    obtain rfl : index = 1 := by
      rw [hsecond] at hchoice
      exact (Except.ok.inj hchoice).symm
    exact (Option.some.inj hget).symm
  exact ⟨List.cons_ne_nil _ _, hsame, name, hname, hlist, hring⟩

end Troupe
