/-!
# Agent headers

The header of an agent says where its task is: in the header's own slot while the
agent waits, in a run queue, in a worker's hands, or nowhere once the agent is done.
Wakes may come at any time and from anywhere; each operation below is a run of the
atomic steps on the phase and on the slot, with nobody in between.

* `wake_idle` — waking a waiting agent hands its task out to be queued;
* `wake_running` — waking a running one is remembered until its turn ends;
* `suspend_notified` — and then the agent does not wait.
-/

namespace Troupe

/-- Where the task of an agent is. -/
inductive Phase where
  /-- In the header's slot. -/
  | idle
  /-- In a run queue, or on its way there. -/
  | scheduled
  /-- With a worker. -/
  | running
  /-- With a worker, and woken in the meantime. -/
  | notified
  /-- Gone. -/
  | done
deriving DecidableEq, Repr

/-- The state of an agent as others see it. -/
inductive AgentState where
  | waiting
  | scheduled
  | running
  | done
deriving DecidableEq, Repr

namespace Phase

/-- What a phase looks like from outside. -/
def state : Phase → AgentState
  | idle => .waiting
  | scheduled => .scheduled
  | running => .running
  | notified => .running
  | done => .done

end Phase

def AgentState.text : AgentState → String
  | .waiting => "Waiting"
  | .scheduled => "Scheduled"
  | .running => "Running"
  | .done => "Done"

/-- The phase of an agent, the slot for its task, and whether it was asked to end. -/
structure Header (τ : Type) where
  phase : Phase
  slot : Option τ
  isTerminating : Bool
deriving Repr

namespace Header

variable {τ : Type}

/-- The header of an agent whose task is about to be queued. -/
def fresh : Header τ := ⟨.scheduled, none, false⟩

def state (h : Header τ) : AgentState := h.phase.state

/-- Asks the agent to end; answers whether it was asked for the first time. -/
def requestEnd (h : Header τ) : Header τ × Bool :=
  ({ h with isTerminating := true }, !h.isTerminating)

/-- Makes a waiting agent runnable; answers the task to be queued. -/
def wake (h : Header τ) : Header τ × Option τ :=
  match h.phase with
  | .idle => ({ h with phase := .scheduled, slot := none }, h.slot)
  | .running => ({ h with phase := .notified }, none)
  | _ => (h, none)

/-- A worker takes the task from its queue; answers whether it may run. -/
def beginRun (h : Header τ) : Header τ × Bool :=
  match h.phase with
  | .scheduled => ({ h with phase := .running }, true)
  | _ => (h, false)

/-- The task will be queued again; answers whether that makes sense still. -/
def reschedule (h : Header τ) : Header τ × Bool :=
  match h.phase with
  | .running => ({ h with phase := .scheduled }, true)
  | .notified => ({ h with phase := .scheduled }, true)
  | _ => (h, false)

/-- What became of a task that was to be put away. -/
inductive Suspension (τ : Type) where
  /-- It is in the slot. -/
  | parked
  /-- The agent was woken during its turn: the task is handed back. -/
  | returned (task : τ)
  /-- The agent is done: the task is dropped. -/
  | dropped (task : τ)
deriving Repr

/-- Puts the task into the slot until the agent is woken. -/
def suspend (h : Header τ) (task : τ) : Header τ × Suspension τ :=
  match h.phase with
  | .running => ({ h with phase := .idle, slot := some task }, .parked)
  | .notified => ({ h with phase := .scheduled, slot := none }, .returned task)
  | _ => ({ h with slot := none }, .dropped task)

/-- The agent is done; answers the task that was in the slot. -/
def finish (h : Header τ) : Header τ × Option τ :=
  ({ h with phase := .done, slot := none }, h.slot)

theorem wake_idle (h : Header τ) (task : τ) (hp : h.phase = .idle) (hs : h.slot = some task) :
    h.wake = ({ h with phase := .scheduled, slot := none }, some task) := by
  simp [wake, hp, hs]

theorem wake_running (h : Header τ) (hp : h.phase = .running) :
    h.wake = ({ h with phase := .notified }, none) := by
  simp [wake, hp]

theorem suspend_notified (h : Header τ) (task : τ) (hp : h.phase = .notified) :
    (h.suspend task).2 = .returned task := by
  simp [suspend, hp]

end Header

end Troupe
