import Mathlib.Algebra.Order.BigOperators.Group.List
import Mathlib.Algebra.Order.Group.Nat
import Troupe.Proofs.Scheduler.Floor

/-!
# One place for every task

However the workers, the strategy and the rest of the node act together, an agent that
was spawned and has not ended has its one task in one place, the place that its header
tells: some queue or the hand of a worker about to run it, the hand of a worker that runs
it, or the agent's own slot.

* `IsAt` — the place of an agent's task, and its state there;
* `run_isAccounted` — after every run, every task has its place.
-/

namespace Troupe

/-- Where tasks can be. -/
inductive Place (workers : Nat) where
  | shared
  | inbox (worker : Fin workers)
  | stack (worker : Fin workers)
  | next (worker : Fin workers)
  | hand (worker : Fin workers)
  | slot (owner : AgentId)

namespace Floor

variable {workers : Nat} {f : Floor workers} {agent : AgentId}

/-- What a worker that may not be there has somewhere at its post. -/
def posted (f : Floor workers) (worker : Fin workers) (tasks : Post Task → List Task) :
    List Task :=
  ((f.pool.posts[worker.val]?).map tasks).getD []

/-- The tasks in a place. -/
def lying (f : Floor workers) : Place workers → List Task
  | .shared => f.pool.shared.tasks
  | .inbox worker => f.posted worker (·.inbox.tasks)
  | .stack worker => f.posted worker (·.worker.stack)
  | .next worker => f.posted worker (·.worker.next.toList)
  | .hand worker => (f.hands worker).picks ++ (f.hands worker).runs
  | .slot owner => ((f.headers owner).bind (·.slot)).toList

/-- The tasks of an agent in a place. -/
def tasksOf (f : Floor workers) (agent : AgentId) (place : Place workers) : List Task :=
  (f.lying place).filter (isOf agent)

/-- What the header of an agent has to say whose task is in a place. -/
def stateAt (f : Floor workers) : Place workers → AgentState
  | .hand worker =>
    match f.hands worker with
    | .running _ => .running
    | _ => .scheduled
  | .slot _ => .waiting
  | _ => .scheduled

/-- The one task of an agent is in one place, and its header says so. -/
structure IsAt (f : Floor workers) (agent : AgentId) (place : Place workers) : Prop where
  one : ∃ task, f.tasksOf agent place = [task]
  only : ∀ other, other ≠ place → f.tasksOf agent other = []
  own : ∀ owner, place = .slot owner → owner = agent
  state : (f.headers agent).map (·.state) = some (f.stateAt place)

/-- Every task is accounted for: those of agents that were submitted and have not finished
are in one place each, and there are no others. -/
structure Accounted (f : Floor workers) : Prop where
  placed : ∀ agent ∈ f.submitted, agent ∉ f.finished → ∃ place, f.IsAt agent place
  absent : ∀ agent, agent ∉ f.submitted ∨ agent ∈ f.finished →
    ∀ place, f.tasksOf agent place = []

/-! ## Counting place by place -/

/-- The queues of the pool. -/
def queues (workers : Nat) : List (Place workers) :=
  .shared :: (List.finRange workers).flatMap fun worker => [.inbox worker, .stack worker,
    .next worker]

/-- The hands of all workers. -/
def handPlaces (workers : Nat) : List (Place workers) := (List.finRange workers).map .hand

def count (f : Floor workers) (agent : AgentId) (place : Place workers) : Nat :=
  (f.lying place).countP (isOf agent)

/-- A place holds no task of an agent exactly if it counts none. -/
theorem tasksOf_eq_nil_iff {place : Place workers} :
    f.tasksOf agent place = [] ↔ f.count agent place = 0 := by
  rw [tasksOf, count, List.countP_eq_length_filter, List.length_eq_zero_iff]

theorem tasksOf_eq_singleton {place : Place workers} (h : f.count agent place = 1) :
    ∃ task, f.tasksOf agent place = [task] := by
  rw [count, List.countP_eq_length_filter] at h
  exact List.length_eq_one_iff.mp h

/-- Amounts at the elements of a list, by index. -/
theorem sum_map_eq_finRange {α : Type} {xs : List α} {n : Nat} (hn : xs.length = n)
    (size : α → Nat) : (xs.map size).sum =
      ((List.finRange n).map fun i => ((xs[i.val]?).map size).getD 0).sum := by
  subst hn
  congr 1
  apply List.ext_getElem
  · simp
  · intro i hi hi'
    simp at hi
    simp

/-- The queues together hold what lies in the pool. -/
theorem sum_count_queues (hsize : f.pool.size = workers) (agent : AgentId) :
    ((queues workers).map (f.count agent)).sum = f.pool.tasks.countP (isOf agent) := by
  -- inbox, stack and next slot together are the post
  have hpost : ∀ worker : Fin workers,
      ([.inbox worker, .stack worker, .next worker].map (f.count agent)).sum =
        ((f.pool.posts[worker.val]?).map fun post => post.tasks.countP (isOf agent)).getD 0 := by
    intro worker
    simp only [List.map_cons, List.map_nil, List.sum_cons, List.sum_nil, count, lying, posted]
    cases f.pool.posts[worker.val]? with
    | none => rfl
    | some post =>
        simp only [Option.map_some, Option.getD_some, Post.countP_tasks, Worker.countP_tasks]
        omega
  rw [Pool.countP_tasks, sum_map_eq_finRange hsize, queues, List.map_cons, List.sum_cons,
    List.map_flatMap, List.flatMap_def, List.sum_flatten, List.map_map]
  exact congrArg₂ (· + ·) rfl (congrArg List.sum (List.map_congr_left fun worker _ => hpost worker))

/-- The hands together hold what has been picked and what is running. -/
theorem sum_count_hands (f : Floor workers) (agent : AgentId) :
    ((handPlaces workers).map (f.count agent)).sum =
      ∑ worker, (f.hands worker).picks.countP (isOf agent) + f.running agent := by
  rw [handPlaces, List.map_map, ← Fin.sum_univ_def, running, ← Finset.sum_add_distrib]
  exact Finset.sum_congr rfl fun worker _ => List.countP_append

/-- Where amounts sum up to one, one of them is one and the others are nothing. -/
theorem exists_of_sum_eq_one {α : Type} {xs : List α} {size : α → Nat}
    (h : (xs.map size).sum = 1) :
    ∃ x ∈ xs, size x = 1 ∧ ∀ y ∈ xs, y ≠ x → size y = 0 := by
  induction xs with
  | nil => exact nomatch h
  | cons x rest ih =>
      rw [List.map_cons, List.sum_cons] at h
      -- the one is here, or the rest has it
      by_cases hx : size x = 0
      · obtain ⟨y, hy, hone, hothers⟩ := ih (by omega)
        refine ⟨y, List.mem_cons_of_mem _ hy, hone, fun z hz hne => ?_⟩
        rcases List.mem_cons.mp hz with rfl | hz
        · exact hx
        · exact hothers z hz hne
      · refine ⟨x, List.mem_cons_self, by omega, fun z hz hne => ?_⟩
        rcases List.mem_cons.mp hz with rfl | hz
        · exact absurd rfl hne
        · have hle := List.le_sum_of_mem (List.mem_map_of_mem (f := size) hz)
          omega

/-- All places but the slots of others. -/
def places (workers : Nat) (agent : AgentId) : List (Place workers) :=
  .slot agent :: queues workers ++ handPlaces workers

/-- Every place is one where the agent's task may lie, or the slot of somebody else. -/
theorem mem_places (place : Place workers) (agent : AgentId) :
    place ∈ places workers agent ∨ ∃ owner, owner ≠ agent ∧ place = .slot owner := by
  cases place with
  | slot owner =>
      by_cases hown : owner = agent
      · exact .inl (by simp [places, hown])
      · exact .inr ⟨owner, hown, rfl⟩
  | _ => exact .inl (by simp [places, queues, handPlaces])

/-- An agent's tasks, counted place by place. -/
theorem sum_count_places (hsize : f.pool.size = workers) (agent : AgentId) :
    ((places workers agent).map (f.count agent)).sum =
      f.count agent (.slot agent) + f.due agent + f.running agent := by
  have hqueues := sum_count_queues hsize agent
  have hhands := sum_count_hands f agent
  rw [places, List.cons_append, List.map_cons, List.sum_cons, List.map_append, List.sum_append,
    hqueues, hhands, due]
  omega

/-! ## Every task has its place -/

theorem count_slot (f : Floor workers) (agent owner : AgentId) :
    f.count agent (.slot owner) =
      (((f.headers owner).bind (·.slot)).toList).countP (isOf agent) := rfl

/-- Nobody keeps the task of another agent. -/
theorem Kept.count_slot_ne (hf : f.Kept) {owner : AgentId} (hne : owner ≠ agent) :
    f.count agent (.slot owner) = 0 := by
  have horder := hf.inOrder owner
  generalize haccount : f.account owner = account at horder
  rw [count_slot]
  -- only a waiting header has a task in its slot, and that is its owner's
  cases horder with
  | waiting restarts ending =>
      obtain ⟨hheader, -⟩ := Account.mk.inj haccount
      rw [hheader]
      exact (countP_isOf agent ⟨owner, restarts⟩).trans (if_neg hne)
  | _ =>
      obtain ⟨hheader, -⟩ := Account.mk.inj haccount
      rw [hheader]
      rfl

/-! ## The state that a header tells -/

/-- An agent whose task is due is scheduled. -/
theorem Kept.scheduled_of_due (hf : f.Kept) (h : 1 ≤ f.due agent) :
    (f.headers agent).map (·.state) = some .scheduled := by
  obtain ⟨isTerminating, haccount⟩ := hf.account_of_due h
  obtain ⟨hheader, -⟩ := Account.mk.inj haccount
  rw [hheader]
  rfl

/-- An agent whose task is run is running. -/
theorem Kept.running_of_running (hf : f.Kept) (h : 1 ≤ f.running agent) :
    (f.headers agent).map (·.state) = some .running := by
  obtain ⟨phase, isTerminating, hphase, haccount⟩ := hf.account_of_running h
  obtain ⟨hheader, -⟩ := Account.mk.inj haccount
  rw [hheader]
  rcases hphase with rfl | rfl
  · rfl
  · rfl

/-- An agent whose task lies in its slot is waiting. -/
theorem Kept.waiting_of_slot (hf : f.Kept) (h : 1 ≤ f.count agent (.slot agent)) :
    (f.headers agent).map (·.state) = some .waiting := by
  have horder := hf.inOrder agent
  generalize haccount : f.account agent = account at horder
  cases horder with
  | waiting restarts ending =>
      obtain ⟨hheader, -⟩ := Account.mk.inj haccount
      rw [hheader]
      rfl
  | _ =>
      obtain ⟨hheader, -⟩ := Account.mk.inj haccount
      rw [count_slot, hheader] at h
      exact nomatch h

/-- What is in a queue is due. -/
theorem count_le_due (hsize : f.pool.size = workers) {place : Place workers}
    (h : place ∈ queues workers) : f.count agent place ≤ f.due agent := by
  have hle := List.le_sum_of_mem (List.mem_map_of_mem (f := f.count agent) h)
  rw [sum_count_queues hsize agent] at hle
  exact hle.trans (Nat.le_add_right _ _)

/-- A task that counts for an agent is the agent's. -/
theorem agent_eq_of_countP {task : Task} (h : [task].countP (isOf agent) = 1) :
    task.agent = agent := by
  by_contra hne
  rw [countP_isOf, if_neg hne] at h
  exact nomatch h

/-- A task of an agent in a place, and the header of the agent agree. -/
theorem Kept.state_of_count (hf : f.Kept) {place : Place workers}
    (hplace : place ∈ places workers agent) (h : f.count agent place = 1) :
    (f.headers agent).map (·.state) = some (f.stateAt place) := by
  -- slot, hand and queue each fix the state of the header
  cases place with
  | slot owner =>
      obtain rfl : owner = agent := by
        by_contra hne
        rw [hf.count_slot_ne hne] at h
        exact nomatch h
      exact hf.waiting_of_slot h.ge
  | hand worker =>
      rw [count, lying] at h
      rw [stateAt]
      cases hhand : f.hands worker with
      | empty =>
          rw [hhand] at h
          exact nomatch h
      | picked task =>
          rw [hhand] at h
          exact hf.scheduled_of_due (agent_eq_of_countP h ▸ one_le_due hhand)
      | running task =>
          rw [hhand] at h
          exact hf.running_of_running (agent_eq_of_countP h ▸ one_le_running hhand)
  | _ =>
      exact hf.scheduled_of_due (h.symm.le.trans (count_le_due hf.size (by simp [queues])))

/-- An agent that was submitted and has not finished has one task, others have none. -/
theorem Kept.sum_eq (hf : f.Kept) (agent : AgentId) :
    f.count agent (.slot agent) + f.due agent + f.running agent =
      if agent ∈ f.submitted ∧ agent ∉ f.finished then 1 else 0 := by
  have horder := hf.inOrder agent
  generalize haccount : f.account agent = account at horder
  simp only [count_slot, ← List.contains_iff_mem]
  cases horder with
  | _ =>
      obtain ⟨hheader, hdue, hrunning, hsubmitted, hfinished⟩ := Account.mk.inj haccount
      rw [hheader, hdue, hrunning, hsubmitted, hfinished]
      simp [isOf]

/-- What is kept of every header accounts for every task. -/
theorem Kept.accounted (hf : f.Kept) : f.Accounted := by
  -- all places together hold one task of an agent that is submitted and unfinished, else none
  have hsum := fun agent => (sum_count_places hf.size agent).trans (hf.sum_eq agent)
  constructor
  · intro agent hsubmitted hfinished
    have hone := hsum agent
    rw [if_pos ⟨hsubmitted, hfinished⟩] at hone
    obtain ⟨place, hplace, hcount, hothers⟩ := exists_of_sum_eq_one hone
    refine ⟨place, tasksOf_eq_singleton hcount, ?_, ?_, hf.state_of_count hplace hcount⟩
    · intro other hother
      rw [tasksOf_eq_nil_iff]
      rcases mem_places other agent with hmem | ⟨owner, hne, rfl⟩
      · exact hothers other hmem hother
      · exact hf.count_slot_ne hne
    · rintro owner rfl
      by_contra hne
      rw [hf.count_slot_ne hne] at hcount
      exact nomatch hcount
  · intro agent hgone place
    have hnone := hsum agent
    have hneither : ¬ (agent ∈ f.submitted ∧ agent ∉ f.finished) := by tauto
    rw [if_neg hneither] at hnone
    rw [tasksOf_eq_nil_iff]
    rcases mem_places place agent with hmem | ⟨owner, hne, rfl⟩
    · have hle := List.le_sum_of_mem (List.mem_map_of_mem (f := f.count agent) hmem)
      omega
    · exact hf.count_slot_ne hne

/-- Whatever was done on the floor and however its queues form batches, nobody went to a worker
that is not there, and every task is accounted for. -/
theorem run_isAccounted (settings : SchedulerSettings) (workers : Nat)
    (batching : Batching Task) (actions : List (Action workers)) :
    ∃ f, (opening settings workers batching).run? actions = some f ∧ f.Accounted := by
  obtain ⟨f, hrun, hf⟩ := (kept_opening settings workers batching).run actions
  exact ⟨f, hrun, hf.accounted⟩

end Floor

end Troupe
