import Troupe.Scheduler.Batching

/-!
# Injectors

An injector is a queue that anyone may push to and from which workers take batches: one
task to run at once, and some others for later. A batch is made of the oldest tasks.

* `takeBatch_perm` — a batch and what is left are the tasks that were there;
* `takeBatch_eq_none_iff` — where there is a task there is a batch.
-/

namespace Troupe

/-- A queue with the number of tasks that have left it. -/
structure Injector (τ : Type) where
  gone : Nat := 0
  tasks : List τ := []
deriving Repr

namespace Injector

variable {τ : Type}

instance : Inhabited (Injector τ) := ⟨{}⟩

def length (q : Injector τ) : Nat := q.tasks.length

def isEmpty (q : Injector τ) : Bool := q.tasks.isEmpty

/-- Appends a task. -/
def push (q : Injector τ) (task : τ) : Injector τ := { q with tasks := q.tasks ++ [task] }

/-- How many tasks the next batch has at most. -/
def reach (q : Injector τ) (b : Batching τ) : Nat := 1 + b.along q.gone q.length

/-- Takes a batch: the task to run, and the others. -/
def takeBatch (q : Injector τ) (b : Batching τ) : Option (Injector τ × τ × List τ) :=
  match b.unpack (q.tasks.take (q.reach b)) with
  | [] => none
  | task :: more => some (⟨q.gone + 1 + more.length, q.tasks.drop (q.reach b)⟩, task, more)

variable {b : Batching τ} {q left : Injector τ} {task : τ} {more : List τ}

/-- A batch is made of the oldest tasks, and the others are left. -/
theorem takeBatch_eq_some (h : q.takeBatch b = some (left, task, more)) :
    (task :: more).Perm (q.tasks.take (q.reach b)) ∧ left.tasks = q.tasks.drop (q.reach b) := by
  unfold takeBatch at h
  split at h
  · exact nomatch h
  · next first rest hbatch =>
      obtain ⟨rfl, hrest⟩ := Prod.mk.inj (Option.some.inj h)
      obtain ⟨rfl, rfl⟩ := Prod.mk.inj hrest
      exact ⟨hbatch ▸ b.unpack_perm _, rfl⟩

/-- A batch and what is left are what was there. -/
theorem takeBatch_perm (h : q.takeBatch b = some (left, task, more)) :
    (task :: (more ++ left.tasks)).Perm q.tasks := by
  obtain ⟨hbatch, hleft⟩ := takeBatch_eq_some h
  rw [hleft, ← List.cons_append]
  exact (hbatch.append_right _).trans (.of_eq (List.take_append_drop _ _))

/-- Whoever takes a batch goes away empty-handed only where there is nothing. -/
theorem takeBatch_eq_none_iff : q.takeBatch b = none ↔ q.tasks = [] := by
  have hperm : (b.unpack (q.tasks.take (q.reach b))).Perm _ := b.unpack_perm _
  unfold takeBatch
  split
  · next hnil =>
      rw [hnil, List.nil_perm, List.take_eq_nil_iff] at hperm
      refine iff_of_true rfl (hperm.resolve_left ?_)
      exact Nat.ne_of_gt (Nat.le_add_right 1 _)
  · next first rest hcons =>
      refine iff_of_false nofun fun hempty => ?_
      rw [hcons, hempty, List.take_nil, List.perm_nil] at hperm
      exact nomatch hperm

end Injector

end Troupe
