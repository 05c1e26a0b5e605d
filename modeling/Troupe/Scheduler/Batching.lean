/-!
# Batches

Who looks for work takes several tasks at once, one to run and some for later: out of a
queue that anyone may push to, or off somebody's stack. How many he takes and which of
them he runs is up to whoever made the queues. What can be relied on is that he takes at
least one if there is any, not more than a fixed number come along with the one to run,
and none is lost or doubled.

* `Batching.standard` — the rule by which the queues of a node go.
-/

namespace Troupe

/-- How queues form batches. -/
structure Batching (τ : Type) where
  /-- How many tasks come along with one out of an injector that so many have left and that
  holds so many. -/
  along : (gone length : Nat) → Nat
  /-- How many tasks come along with one off a stack of such a height. -/
  spoils : (height : Nat) → Nat
  /-- The order in which a batch out of an injector is used, given in order of arrival: the
  first is run, the others go onto the stack, the first of them on top. -/
  unpack : List τ → List τ
  /-- The order in which a batch off a stack is used, given from the bottom of that stack. -/
  unload : List τ → List τ
  /-- The largest number of tasks that come along. -/
  largest : Nat
  along_le : ∀ gone length, along gone length ≤ largest
  spoils_le : ∀ height, spoils height ≤ largest
  unpack_perm : ∀ batch, (unpack batch).Perm batch
  unload_perm : ∀ loot, (unload loot).Perm loot

namespace Batching

variable {τ : Type}

/-! ## The rule of a node -/

/-- Injectors keep their tasks in blocks of this length. -/
def blockLength : Nat := 63

/-- The largest batch out of an injector. -/
def largestBatch : Nat := 33

/-- The largest batch off a stack. -/
def largestLoot : Nat := 32

/-- How many tasks are in a batch out of an injector: half of the tasks while all of them
lie in one block, and otherwise what is left of the oldest task's block. -/
def batchLength (gone length : Nat) : Nat :=
  -- the blocks of the oldest task and of the next one to come
  let here := gone / blockLength
  let end' := (gone + length) / blockLength
  if here = end' then min ((length + 1) / 2) largestBatch
  else min (blockLength - gone % blockLength) largestBatch

theorem batchLength_le (gone length : Nat) : batchLength gone length ≤ largestBatch := by
  unfold batchLength
  dsimp only
  split
  · exact Nat.min_le_right _ _
  · exact Nat.min_le_right _ _

/-- Half of the tasks, from where they have waited longest. Out of an injector the oldest is
run and the others follow in order of arrival; off a stack the last that is taken is run,
and the others go onto the thief's stack in the order in which they are taken. -/
def standard : Batching τ where
  along gone length := batchLength gone length - 1
  spoils height := min ((height + 1) / 2) largestLoot - 1
  unpack batch := batch
  unload loot := loot.reverse
  largest := largestBatch - 1
  along_le gone length := Nat.sub_le_sub_right (batchLength_le gone length) 1
  spoils_le height := by
    have hloot : min ((height + 1) / 2) largestLoot ≤ largestLoot := Nat.min_le_right _ _
    exact Nat.le_trans (Nat.sub_le_sub_right hloot 1) (by decide)
  unpack_perm batch := .refl batch
  unload_perm loot := loot.reverse_perm

instance : Inhabited (Batching τ) := ⟨standard⟩

end Batching

end Troupe
