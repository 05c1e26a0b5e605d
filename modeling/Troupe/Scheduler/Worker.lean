import Troupe.Scheduler.Injector

/-!
# Workers

A worker has a stack of tasks, which thieves rob from the bottom, and a slot for the
task to run next. It takes the task in the slot first, but not more than three times
in a row; then the stack; then its inbox and the queue that all workers share. Every
so many ticks the order is reversed, so that nothing waits for ever behind a busy stack.

* `takeOwn_eq_none` — a worker finds nothing of its own only if it has nothing;
* `rob_eq_some`, `rob_eq_none_iff` — what a thief takes comes from the bottom of the stack, and
  he takes something if it is not empty.
-/

namespace Troupe

/-- A worker's own tasks. The head of `stack` is on top. -/
structure Worker (τ : Type) where
  stack : List τ := []
  next : Option τ := none
  /-- Tasks taken from the slot in a row. -/
  streak : Nat := 0
  tick : Nat := 0
deriving Repr

namespace Worker

variable {τ : Type}

instance : Inhabited (Worker τ) := ⟨{}⟩

/-- Ticks between two visits to the queues before the worker's own tasks. -/
def visitInterval : Nat := 61

/-- How many tasks in a row may come from the slot. -/
def longestStreak : Nat := 3

/-- The number of a worker's own tasks. -/
def length (w : Worker τ) : Nat := w.stack.length + (if w.next.isSome then 1 else 0)

/-- Takes the task in the slot, if the streak allows. -/
def takeNext (w : Worker τ) : Option (Worker τ × τ) :=
  if w.streak < longestStreak then
    match w.next with
    | some task => some ({ w with next := none, streak := w.streak + 1 }, task)
    | none => none
  else none

/-- Takes the task on top of the stack, or else the task in the slot. -/
def takeStack (w : Worker τ) : Worker τ × Option τ :=
  -- whatever is found, the streak is over
  match w.stack, w.next with
  | task :: rest, _ => ({ w with stack := rest, streak := 0 }, some task)
  | [], some task => ({ w with next := none, streak := 0 }, some task)
  | [], none => ({ w with streak := 0 }, none)

/-- Takes a task of the worker's own. -/
def takeOwn (w : Worker τ) : Worker τ × Option τ :=
  match w.takeNext with
  | some (w, task) => (w, some task)
  | none => w.takeStack

/-- Puts tasks on the stack so that the first of them is on top. -/
def stackUp (w : Worker τ) (tasks : List τ) : Worker τ := { w with stack := tasks ++ w.stack }

/-- Takes a batch out of a queue: one task to run, the others onto the stack. -/
def drain (w : Worker τ) (b : Batching τ) (q : Injector τ) : Worker τ × Injector τ × Option τ :=
  match q.takeBatch b with
  | none => (w, q, none)
  | some (q, task, more) => (w.stackUp more, q, some task)

/-- Takes a task from the inbox or else from the shared queue. -/
def takeRemote (w : Worker τ) (b : Batching τ) (inbox shared : Injector τ) :
    Worker τ × Injector τ × Injector τ × Option τ :=
  match w.drain b inbox with
  | (w, inbox, some task) => (w, inbox, shared, some task)
  | (w, inbox, none) =>
    let (w, shared, task) := w.drain b shared
    (w, inbox, shared, task)

/-- Takes the next task to run. -/
def take (w : Worker τ) (b : Batching τ) (inbox shared : Injector τ) :
    Worker τ × Injector τ × Injector τ × Option τ :=
  let w := { w with tick := w.tick + 1 }
  if w.tick % visitInterval = 0 then
    -- the queues that others push to come first this time
    match w.takeRemote b inbox shared with
    | (w, inbox, shared, some task) => (w, inbox, shared, some task)
    | (w, inbox, shared, none) =>
      let (w, task) := w.takeOwn
      (w, inbox, shared, task)
  else
    match w.takeOwn with
    | (w, some task) => (w, inbox, shared, some task)
    | (w, none) => w.takeRemote b inbox shared

/-- Puts a task into the slot; answers the task it displaces. -/
def placeNext (w : Worker τ) (task : τ) : Worker τ × Option τ :=
  ({ w with next := some task }, w.next)

/-- Puts a task on the stack, unless the stack has reached its capacity. -/
def push? (w : Worker τ) (capacity : Nat) (task : τ) : Option (Worker τ) :=
  if w.stack.length < capacity then some (w.stackUp [task]) else none

/-- How many tasks on top of the stack a thief leaves there. -/
def spared (w : Worker τ) (b : Batching τ) : Nat :=
  w.stack.length - (1 + b.spoils w.stack.length)

/-- Gives tasks away, from the bottom of the stack; answers one of them and the others. -/
def rob (w : Worker τ) (b : Batching τ) : Option (Worker τ × τ × List τ) :=
  -- the bottom of the stack holds the tasks that have waited longest
  match b.unload (w.stack.drop (w.spared b)).reverse with
  | [] => none
  | task :: more => some ({ w with stack := w.stack.take (w.spared b) }, task, more)

theorem takeOwn_eq_none {w w' : Worker τ} (h : w.takeOwn = (w', none)) :
    w.stack = [] ∧ w.next = none := by
  unfold takeOwn at h
  split at h
  · simp at h
  · unfold takeStack at h
    split at h
    · simp at h
    · simp at h
    · next hs hn => exact ⟨hs, hn⟩

section

variable {b : Batching τ} {w w' : Worker τ} {task : τ} {more : List τ}

/-- A thief takes from the bottom of the stack. -/
theorem rob_eq_some (h : w.rob b = some (w', task, more)) :
    (task :: more).Perm (w.stack.drop (w.spared b)) ∧
      w' = { w with stack := w.stack.take (w.spared b) } := by
  unfold rob at h
  split at h
  · exact nomatch h
  · next first rest hloot =>
      obtain ⟨rfl, hrest⟩ := Prod.mk.inj (Option.some.inj h)
      obtain ⟨rfl, rfl⟩ := Prod.mk.inj hrest
      exact ⟨hloot ▸ (b.unload_perm _).trans (List.reverse_perm _), rfl⟩

/-- A thief goes away empty-handed only from an empty stack. -/
theorem rob_eq_none_iff : w.rob b = none ↔ w.stack = [] := by
  have hperm : (b.unload (w.stack.drop (w.spared b)).reverse).Perm (w.stack.drop (w.spared b)) :=
    (b.unload_perm _).trans (List.reverse_perm _)
  have hheight : w.stack = [] ↔ w.stack.length ≤ w.spared b := by
    rw [← List.length_eq_zero_iff, spared]
    omega
  unfold rob
  split
  · next hnil =>
      rw [hnil, List.nil_perm, List.drop_eq_nil_iff] at hperm
      exact iff_of_true rfl (hheight.mpr hperm)
  · next first rest hcons =>
      refine iff_of_false nofun fun hempty => ?_
      rw [hcons, List.drop_eq_nil_of_le (hheight.mp hempty), List.perm_nil] at hperm
      exact nomatch hperm

end

end Worker

end Troupe
