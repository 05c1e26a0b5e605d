import Mathlib.Data.List.Basic
import Troupe.Agent.Header
import Troupe.Agent.Turn

/-!
# Traffic at a header

The operations of a header are runs of atomic steps: a load, a compare-and-swap or a store
of the phase, a visit to the slot. Here the steps of several calls mix. Wakes and requests
to finish come from anywhere, any number of them at a time; one worker at a time has the
agent's task, takes it out of a run queue, runs a turn and puts the task where the turn's
end says.

* `wake_alone`, `beginRun_alone`, `reschedule_alone`, `suspend_alone`, `finish_alone` — a
  call that nobody interferes with is the operation of the header.
-/

namespace Troupe

namespace Header

/-! ## Calls in progress -/

/-- A wake in progress. -/
inductive WakeCall (τ : Type) where
  /-- About to look at the phase. -/
  | loading
  /-- The agent was seen waiting: about to swap its phase. -/
  | waking
  /-- The agent was seen running: about to swap its phase. -/
  | notifying
  /-- Has made the agent scheduled: about to take the task out of the slot. -/
  | taking
  | queueing (task : τ)
deriving DecidableEq, Repr

/-- A request to finish in progress. -/
inductive FinishCall where
  | storing
  /-- About to empty the slot. -/
  | taking
deriving DecidableEq, Repr

/-- What the worker is about to do that has the task, if one has it. -/
inductive Runner (τ : Type) where
  | away
  /-- Has the task out of a queue: about to make the agent running. -/
  | picked (task : τ)
  /-- In a turn. -/
  | running (task : τ)
  /-- The turn yielded: about to look at the phase. -/
  | loading (task : τ)
  /-- About to make the agent scheduled, if its phase is still as seen. -/
  | swapping (task : τ) (woken : Bool)
  | queueing (task : τ)
  /-- The turn ended waiting: about to put the task into the slot. -/
  | parking (task : τ)
  /-- About to make the agent idle, if it was not woken. -/
  | sealing
  /-- It was woken: about to make it scheduled, whatever it is by now. -/
  | overwriting
  | retaking
  /-- The agent is done: about to empty the slot. -/
  | clearing
  /-- The turn was the last: about to make the agent done. -/
  | closing (task : τ)
  | emptying (task : τ)
deriving DecidableEq, Repr

/-- What a step of a call does: to the header, to the run queues, and where the call goes on. -/
structure Step (τ γ : Type) where
  header : Header τ
  pushed : Option τ := none
  next : γ

variable {τ : Type}

/-- How a wake goes on that sees a phase. -/
def WakeCall.seeing : Phase → Option (WakeCall τ)
  | .idle => some .waking
  | .running => some .notifying
  | _ => none

/-- A step of a wake. Without a scheduler the agent that would be queued is done. -/
def WakeCall.step (h : Header τ) (isUp : Bool) : WakeCall τ → Step τ (Option (WakeCall τ))
  | .loading => { header := h, next := seeing h.phase }
  | .waking =>
    if h.phase = .idle then { header := { h with phase := .scheduled }, next := some .taking }
    else { header := h, next := seeing h.phase }
  | .notifying =>
    if h.phase = .running then { header := { h with phase := .notified }, next := none }
    else { header := h, next := seeing h.phase }
  | .taking => { header := { h with slot := none }, next := h.slot.map .queueing }
  | .queueing task =>
    if isUp then { header := h, pushed := some task, next := none }
    else { header := { h with phase := .done }, next := none }

def FinishCall.step (h : Header τ) : FinishCall → Step τ (Option FinishCall)
  | .storing => { header := { h with phase := .done }, next := some .taking }
  | .taking => { header := { h with slot := none }, next := none }

/-- How a worker goes on that sees a phase and has a task to queue again. -/
def Runner.seeing (task : τ) : Phase → Runner τ
  | .running => .swapping task false
  | .notified => .swapping task true
  | _ => .away

/-- A step of the worker; if it is in a turn, the turn comes to this end. -/
def Runner.step (h : Header τ) (ending : TurnEnd) : Runner τ → Step τ (Runner τ)
  | .away => { header := h, next := .away }
  | .picked task =>
    if h.phase = .scheduled then { header := { h with phase := .running }, next := .running task }
    else { header := h, next := .away }
  | .running task =>
    { header := h
      next := match ending with
        | .yield => .loading task
        | .wait => .parking task
        | .done => .closing task }
  | .loading task => { header := h, next := seeing task h.phase }
  | .swapping task woken =>
    if h.phase = if woken then .notified else .running then
      { header := { h with phase := .scheduled }, next := .queueing task }
    else { header := h, next := seeing task h.phase }
  | .queueing task => { header := h, pushed := some task, next := .away }
  | .parking task => { header := { h with slot := some task }, next := .sealing }
  | .sealing =>
    match h.phase with
    | .running => { header := { h with phase := .idle }, next := .away }
    | .notified => { header := h, next := .overwriting }
    | _ => { header := h, next := .clearing }
  | .overwriting => { header := { h with phase := .scheduled }, next := .retaking }
  | .retaking =>
    { header := { h with slot := none }
      next := match h.slot with
        | some task => .queueing task
        | none => .away }
  | .clearing => { header := { h with slot := none }, next := .away }
  | .closing task => { header := { h with phase := .done }, next := .emptying task }
  | .emptying _ => { header := { h with slot := none }, next := .away }

/-! ## Traffic -/

/-- A header, the run queues as far as the agent is concerned, and all calls in progress. -/
structure Traffic (τ : Type) where
  header : Header τ
  queue : List τ
  /-- Whether there is a scheduler still. -/
  isUp : Bool
  runner : Runner τ
  wakes : List (WakeCall τ)
  finishes : List FinishCall
deriving Repr

namespace Traffic

/-- A new agent, whose task is queued. -/
def start (task : τ) : Traffic τ := ⟨.fresh, [task], true, .away, [], []⟩

/-- What can happen next. A call in progress is named by its place among its like. -/
inductive Action where
  /-- A worker takes the task out of a run queue. -/
  | pick
  /-- The worker that has the task makes a step. -/
  | run (ending : TurnEnd)
  | callWake
  | wake (index : Nat)
  | callFinish
  | finish (index : Nat)
  /-- The scheduler goes away. -/
  | fall
deriving DecidableEq, Repr

/-- Puts a call that went on back into its place; one that returned is gone. -/
def replace {γ : Type} (calls : List γ) (index : Nat) (next : Option γ) : List γ :=
  calls.take index ++ next.toList ++ calls.drop (index + 1)

def next (s : Traffic τ) : Action → Traffic τ
  | .pick =>
    match s.runner, s.queue with
    | .away, task :: rest => { s with queue := rest, runner := .picked task }
    | _, _ => s
  | .run ending =>
    let step := s.runner.step s.header ending
    { s with header := step.header, queue := s.queue ++ step.pushed.toList, runner := step.next }
  | .callWake => { s with wakes := s.wakes ++ [.loading] }
  | .wake index =>
    match s.wakes[index]? with
    | none => s
    | some call =>
      let step := call.step s.header s.isUp
      { s with
        header := step.header
        queue := s.queue ++ step.pushed.toList
        wakes := replace s.wakes index step.next }
  | .callFinish => { s with finishes := s.finishes ++ [.storing] }
  | .finish index =>
    match s.finishes[index]? with
    | none => s
    | some call =>
      let step := call.step s.header
      { s with
        header := step.header
        queue := s.queue ++ step.pushed.toList
        finishes := replace s.finishes index step.next }
  | .fall => { s with isUp := false }

/-- What comes of actions one after another. -/
def run (s : Traffic τ) (actions : List Action) : Traffic τ := actions.foldl next s

theorem run_append (s : Traffic τ) (pre post : List Action) :
    s.run (pre ++ post) = (s.run pre).run post :=
  List.foldl_append

/-! ## Calls without interference -/

@[simp] theorem replace_last {γ : Type} (calls : List γ) (call : γ) (next : Option γ) :
    replace (calls ++ [call]) calls.length next = calls ++ next.toList := by
  simp [replace]

/-- A call that goes on is back in its place, with the other calls; one that returned is gone. -/
theorem mem_replace {γ : Type} {calls : List γ} {index : Nat} {after : Option γ} {call : γ}
    (h : call ∈ replace calls index after) : call ∈ calls ∨ after = some call := by
  rw [replace, List.mem_append, List.mem_append, Option.mem_toList] at h
  rcases h with (hbefore | hafter) | hbehind
  · exact .inl (List.mem_of_mem_take hbefore)
  · exact .inr hafter
  · exact .inl (List.mem_of_mem_drop hbehind)

theorem mem_replace_some {γ : Type} (calls : List γ) (index : Nat) (call : γ) :
    call ∈ replace calls index (some call) := by
  simp [replace]

/-- A call other than the one that makes a step stays as it is. -/
theorem mem_replace_of_ne {γ : Type} {calls : List γ} {index : Nat} {call other : γ}
    (hcall : calls[index]? = some call) (hother : other ∈ calls) (hne : other ≠ call)
    (after : Option γ) : other ∈ replace calls index after := by
  obtain ⟨place, hplace⟩ := List.mem_iff_getElem?.mp hother
  have hapart : place ≠ index := by
    rintro rfl
    exact hne (Option.some.inj (hplace.symm.trans hcall))
  rw [replace, List.mem_append, List.mem_append]
  -- it stands before the call that makes the step, or behind it
  rcases Nat.lt_or_gt_of_ne hapart with hlt | hgt
  · refine .inl (.inl (List.mem_iff_getElem?.mpr ⟨place, ?_⟩))
    rw [List.getElem?_take_of_lt hlt, hplace]
  · refine .inr (List.mem_iff_getElem?.mpr ⟨place - (index + 1), ?_⟩)
    rw [List.getElem?_drop, Nat.add_sub_cancel' hgt, hplace]

/-- A call in progress stands between others, and so does what it goes on with. -/
theorem exists_replace {γ : Type} {calls : List γ} {index : Nat} {call : γ}
    (h : calls[index]? = some call) : ∃ before after, calls = before ++ call :: after ∧
      ∀ next, replace calls index next = before ++ next.toList ++ after := by
  obtain ⟨hlt, hcall⟩ := List.getElem?_eq_some_iff.mp h
  refine ⟨calls.take index, calls.drop (index + 1), ?_, fun next => rfl⟩
  rw [← hcall, ← List.drop_eq_getElem_cons hlt, List.take_append_drop]

/-- A wake from its first step to its last. -/
theorem wake_alone (s : Traffic τ) (hup : s.isUp = true) :
    s.run [.callWake, .wake s.wakes.length, .wake s.wakes.length, .wake s.wakes.length,
        .wake s.wakes.length] =
      { s with header := s.header.wake.1, queue := s.queue ++ s.header.wake.2.toList } := by
  obtain ⟨⟨phase, slot, isTerminating⟩, queue, isUp, runner, wakes, finishes⟩ := s
  obtain rfl : isUp = true := hup
  -- only an idle agent has a task to be queued
  cases phase with
  | idle =>
      cases slot with
      | none => simp [run, next, WakeCall.step, WakeCall.seeing, Header.wake]
      | some task => simp [run, next, WakeCall.step, WakeCall.seeing, Header.wake]
  | _ => simp [run, next, WakeCall.step, WakeCall.seeing, Header.wake]

/-- A worker that has picked a task up begins to run it, or drops it. -/
theorem beginRun_alone (s : Traffic τ) (task : τ) (hrunner : s.runner = .picked task)
    (ending : TurnEnd) :
    s.run [.run ending] = { s with
      header := s.header.beginRun.1
      runner := if s.header.beginRun.2 then .running task else .away } := by
  obtain ⟨⟨phase, slot, isTerminating⟩, queue, isUp, runner, wakes, finishes⟩ := s
  obtain rfl : runner = .picked task := hrunner
  cases phase with
  | _ => simp [run, next, Runner.step, Header.beginRun]

/-- The task of a turn that yielded is about to be queued again, or dropped. -/
theorem reschedule_alone (s : Traffic τ) (task : τ) (hrunner : s.runner = .loading task)
    (ending : TurnEnd) :
    s.run [.run ending, .run ending] = { s with
      header := s.header.reschedule.1
      runner := if s.header.reschedule.2 then .queueing task else .away } := by
  obtain ⟨⟨phase, slot, isTerminating⟩, queue, isUp, runner, wakes, finishes⟩ := s
  obtain rfl : runner = .loading task := hrunner
  cases phase with
  | _ => simp [run, next, Runner.step, Runner.seeing, Header.reschedule]

/-- The task of a turn that ended waiting is parked, about to be queued again, or dropped. -/
theorem suspend_alone (s : Traffic τ) (task : τ) (hrunner : s.runner = .parking task)
    (ending : TurnEnd) :
    ∃ steps, s.run (List.replicate steps (.run ending)) = { s with
      header := (s.header.suspend task).1
      runner := match (s.header.suspend task).2 with
        | .returned task => .queueing task
        | _ => .away } := by
  obtain ⟨⟨phase, slot, isTerminating⟩, queue, isUp, runner, wakes, finishes⟩ := s
  obtain rfl : runner = .parking task := hrunner
  -- put away in two steps; a note that it was woken takes two more
  cases phase with
  | running => exact ⟨2, by simp [List.replicate, run, next, Runner.step, Header.suspend]⟩
  | notified => exact ⟨4, by simp [List.replicate, run, next, Runner.step, Header.suspend]⟩
  | _ => exact ⟨3, by simp [List.replicate, run, next, Runner.step, Header.suspend]⟩

/-- A request to finish from its first step to its last. -/
theorem finish_alone (s : Traffic τ) :
    s.run [.callFinish, .finish s.finishes.length, .finish s.finishes.length] =
      { s with header := s.header.finish.1 } := by
  obtain ⟨⟨phase, slot, isTerminating⟩, queue, isUp, runner, wakes, finishes⟩ := s
  simp [run, next, FinishCall.step, Header.finish]

end Traffic

end Header

end Troupe
