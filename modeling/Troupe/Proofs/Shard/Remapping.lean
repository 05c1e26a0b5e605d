import Troupe.Proofs.Shard.Ring

/-!
# What moves when a shard comes or goes

Whose turn is first among many names is settled by the names alone. So a shard that comes
can only take keys over, and a shard that goes gives up its own and no others.

* `Gains` — what a new name does to the owner of a key, `Spares` — what a lost one does not;
* `gains_owner?`, `spares_owner?` — what they do to the choice of a shard;
* `remapping_isMinimal` — so it is for lists and for rings, whatever the hashes are.
-/

namespace Troupe

open scoped RingPoint

/-- A key that somebody owned is owned by the same name afterwards, or by the new one. -/
def Gains (new : List UInt8) (before after : Option (List UInt8)) : Prop :=
  ∃ name, before = some name ∧ (after = some name ∨ after = some new)

/-- A key that was not owned by the lost name is owned by the same name afterwards. -/
def Spares (lost : List UInt8) (before after : Option (List UInt8)) : Prop :=
  ∀ name, name ≠ lost → before = some name → after = some name

variable {place : Placement} {key : List UInt8} {shards : List (List UInt8)}

/-- A name that comes, wherever in the list, takes keys over or leaves them where they are. -/
theorem gains_owner? {grown : List (List UInt8)} {new : List UInt8} (hne : shards ≠ [])
    (hgrown : grown.Perm (new :: shards)) :
    Gains new (owner? place key shards) (owner? place key grown) := by
  have hsubset : shards ⊆ grown := fun name hname =>
    hgrown.mem_iff.mpr (List.mem_cons_of_mem new hname)
  obtain ⟨name, hname⟩ := exists_owns place key hne
  have hsome : grown ≠ [] := List.ne_nil_of_mem (hsubset hname.mem)
  obtain ⟨after, hafter⟩ := exists_owns place key hsome
  refine ⟨name, owner?_eq_some_iff.mpr hname, ?_⟩
  rcases List.mem_cons.mp (hgrown.mem_iff.mp hafter.mem) with rfl | hold
  · exact .inr (owner?_eq_some_iff.mpr hafter)
  · -- an old name that is first among all was first before
    have hbefore : Owns place key shards after := hafter.of_subset hsubset hold
    obtain rfl : after = name := hbefore.unique hname hold hname.mem
    exact .inl (owner?_eq_some_iff.mpr hafter)

/-- A name that goes, with all its copies, gives up its own keys only. -/
theorem spares_owner? (shards : List (List UInt8)) (lost : List UInt8) :
    Spares lost (owner? place key shards) (owner? place key (shards.filter (· ≠ lost))) := by
  intro name hne hbefore
  have howns := owner?_eq_some_iff.mp hbefore
  have hleft : name ∈ shards.filter (· ≠ lost) :=
    List.mem_filter.mpr ⟨howns.mem, decide_eq_true hne⟩
  have hsubset : shards.filter (· ≠ lost) ⊆ shards := List.filter_subset_self shards
  exact owner?_eq_some_iff.mpr (howns.of_subset hsubset hleft)

namespace ShardRing

/-- The name of the shard that a ring finds for a key. -/
def owner? (r : ShardRing) (key : List UInt8) : Option (List UInt8) :=
  (r.locate key).toOption.bind (r.shards[·]?)

/-- A ring finds the name that a scan of its members comes to. -/
theorem owner?_ofShards (shards : List (List UInt8)) :
    (ofShards place shards).owner? key = Troupe.owner? place key shards := by
  rw [owner?, locate_ofShards]
  rfl

/-- Removing a name from a ring is leaving it out of the list. -/
theorem owner?_remove (shards : List (List UInt8)) (name : List UInt8) :
    ((ofShards place shards).remove name).1.owner? key =
      Troupe.owner? place key (shards.filter (· ≠ name)) := by
  have hring : ((ofShards place shards).remove name).1 =
      ofShards place ((ofShards place shards).remove name).1.shards :=
    change_eq_ofShards shards (.remove name)
  rw [hring, owner?_ofShards, shards_remove]
  rfl

end ShardRing

/-- Wherever keys and points are placed, a name that comes to a list of shards only takes keys
over, and a name that goes with all its copies only gives its own up. So it is for a ring,
whatever its members were before. -/
theorem remapping_isMinimal (place : Placement) (name key : List UInt8) :
    (∀ shards grown : List (List UInt8), shards ≠ [] → grown.Perm (name :: shards) →
      Gains name (owner? place key shards) (owner? place key grown)) ∧
    (∀ shards : List (List UInt8),
      Spares name (owner? place key shards) (owner? place key (shards.filter (· ≠ name)))) ∧
    (∀ (initial : List (List UInt8)) (changes : List ShardRing.Change),
      let r := (ShardRing.ofShards place initial).run changes
      (r.shards ≠ [] → Gains name (r.owner? key) ((r.add name).owner? key)) ∧
        Spares name (r.owner? key) ((r.remove name).1.owner? key)) := by
  refine ⟨fun shards grown => gains_owner?, fun shards => spares_owner? shards name, ?_⟩
  intro initial changes r
  have hr : r = ShardRing.ofShards place r.shards := ShardRing.run_eq_ofShards initial changes
  -- a ring after any changes is the ring of its members
  rw [hr, ShardRing.owner?_remove, ShardRing.owner?_ofShards]
  refine ⟨fun hne => ?_, spares_owner? r.shards name⟩
  have hadd : ((ShardRing.ofShards place r.shards).add name).owner? key =
      owner? place key (r.shards ++ [name]) :=
    ShardRing.owner?_ofShards (r.shards ++ [name])
  rw [hadd]
  exact gains_owner? hne (List.perm_append_singleton name r.shards)

/-- Every point lies at seven and the key above them all, so the names alone decide: a lower name
takes the key over, and when a higher one goes with both its copies the key stays. -/
theorem remapping_of_equal_hashes :
    let place : Placement := ⟨fun _ => 9, fun _ _ => 7⟩
    let ring := (ShardRing.ofShards place [[3]]).run [.add [2], .add [3]]
    ring.shards = [[3], [2], [3]] ∧ ring.owner? [] = some [2] ∧
      Gains [1] (ring.owner? []) ((ring.add [1]).owner? []) ∧
      (ring.remove [3]).1.owner? [] = some [2] := by
  intro place ring
  obtain ⟨-, -, hring⟩ := remapping_isMinimal place [1] []
  obtain ⟨-, -, hremoved⟩ := remapping_isMinimal place [3] []
  have hring' : ring = ShardRing.ofShards place [[3], [2], [3]] := rfl
  have howner : ring.owner? [] = some [2] := by
    rw [hring', ShardRing.owner?_ofShards]
    decide +kernel
  exact ⟨rfl, howner, (hring [[3]] [.add [2], .add [3]]).1 (List.cons_ne_nil _ _),
    (hremoved [[3]] [.add [2], .add [3]]).2 [2] (by decide) howner⟩

end Troupe
