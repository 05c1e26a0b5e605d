import Mathlib.Algebra.BigOperators.Fin
import Troupe.Agent.Turn
import Troupe.Node.Basic
import Troupe.Proofs.Scheduler.Conservation

/-!
# The floor: tasks between queues, hands and slots

The pool queues tasks, the headers of agents keep those of waiting agents, and workers
have one in hand at a time. On the floor all of it is together, and everybody acts in
any order: agents are spawned and woken by anyone, workers take, steal, run and put
away. The pool is asked strictly, so an index beyond its workers ends the run.

The books of an agent say how many of its tasks are due, how many run and how many are
parked. The phase of its header determines them.

* `Kept` — the books balance;
* `Kept.next`, `Kept.run` — every action keeps them, and none goes out of bounds.
-/

namespace Troupe

/-- What a worker has in hand. -/
inductive Hand where
  | empty
  /-- A task that was found and does not run yet. -/
  | picked (task : Task)
  | running (task : Task)

namespace Hand

/-- The task that was found, if one was. -/
def picks : Hand → List Task
  | picked task => [task]
  | _ => []

/-- The task that runs, if one does. -/
def runs : Hand → List Task
  | running task => [task]
  | _ => []

end Hand

/-- The workers of a node and all that has to do with tasks. -/
structure Floor (workers : Nat) where
  pool : Pool Task
  headers : AgentId → Option (Header Task)
  hands : Fin workers → Hand
  /-- The agents whose tasks were submitted. -/
  submitted : List AgentId
  /-- The agents that ended a turn for good. -/
  finished : List AgentId

namespace Floor

variable {workers : Nat}

/-- The floor before anyone is spawned. -/
def opening (settings : SchedulerSettings) (workers : Nat) (batching : Batching Task) :
    Floor workers where
  pool := .ofSettings settings workers batching
  headers _ := none
  hands _ := .empty
  submitted := []
  finished := []

/-- What can happen on the floor. A caller is the worker on whose behalf somebody acts, if
he acts on behalf of one. -/
inductive Action (workers : Nat) where
  | submit (caller : Option (Fin workers)) (agent : AgentId) (destination : Destination)
  | wake (caller : Option (Fin workers)) (agent : AgentId)
  | take (worker : Fin workers)
  | steal (worker : Fin workers) (victims : List Nat)
  /-- A worker begins to run the task that it found. -/
  | start (worker : Fin workers)
  | recordTurn (worker : Fin workers) (alpha elapsed price : Float)
  /-- The turn of a running task ends, after so many restarts of its agent in all. -/
  | endTurn (worker : Fin workers) (ending : TurnEnd) (restarts : Nat)
  | park (worker : Fin workers)
  | unpark (worker : Fin workers)

/-! ## Actions -/

def setHeader (f : Floor workers) (agent : AgentId) (header : Header Task) : Floor workers :=
  { f with headers := Function.update f.headers agent (some header) }

def setHand (f : Floor workers) (worker : Fin workers) (hand : Hand) : Floor workers :=
  { f with hands := Function.update f.hands worker hand }

def onBehalfOf (f : Floor workers) (caller : Option (Fin workers)) : Floor workers :=
  { f with pool := { f.pool with current := caller.map (·.val) } }

/-- Asks the pool for something other than a task. -/
def tell? (f : Floor workers) (request : Pool.Request Task) : Option (Floor workers) :=
  (f.pool.serve? request).map fun (pool, _) => { f with pool }

/-- Queues the task of a new agent. Identities are not used again. -/
def submit? (f : Floor workers) (agent : AgentId) (destination : Destination) :
    Option (Floor workers) :=
  match f.headers agent with
  | some _ => some f
  | none =>
    let f := { f.setHeader agent .fresh with submitted := agent :: f.submitted }
    f.tell? (.submit ⟨agent, 0⟩ destination)

/-- Makes a waiting agent runnable. -/
def wake? (f : Floor workers) (agent : AgentId) : Option (Floor workers) :=
  match f.headers agent with
  | none => some f
  | some header =>
    let (header, task) := header.wake
    match task with
    | some task => (f.setHeader agent header).tell? (.schedule task)
    | none => some (f.setHeader agent header)

/-- A worker with an empty hand asks the pool for a task. -/
def find? (f : Floor workers) (worker : Fin workers) (request : Pool.Request Task) :
    Option (Floor workers) :=
  match f.hands worker with
  | .empty =>
    (f.pool.serve? request).map fun (pool, found) =>
      match found with
      | some task => { f with pool }.setHand worker (.picked task)
      | none => { f with pool }
  | _ => some f

/-- A worker begins to run the task in its hand, or drops it if its agent is done. -/
def start? (f : Floor workers) (worker : Fin workers) : Option (Floor workers) :=
  match f.hands worker with
  | .picked task =>
    match f.headers task.agent with
    | none => some (f.setHand worker .empty)
    | some header =>
      let (header, may) := header.beginRun
      let f := f.setHeader task.agent header
      if may then (f.setHand worker (.running task)).tell? (.setPhase worker .running)
      else some (f.setHand worker .empty)
  | _ => some f

/-- Puts a task away where the end of its turn says. -/
def putAway? (f : Floor workers) (worker : Fin workers) (task : Task) :
    TurnEnd → Option (Floor workers)
  | .yield =>
    match f.headers task.agent with
    | none => some f
    | some header =>
      let (header, again) := header.reschedule
      let f := f.setHeader task.agent header
      if again then f.tell? (.requeue worker task) else some f
  | .wait =>
    match f.headers task.agent with
    | none => some f
    | some header =>
      let (header, suspension) := header.suspend task
      let f := f.setHeader task.agent header
      match suspension with
      | .parked => some f
      | .returned task => f.tell? (.requeue worker task)
      | .dropped _ => some f
  | .done =>
    let f := { f with finished := task.agent :: f.finished }
    match f.headers task.agent with
    | none => some f
    | some header => some (f.setHeader task.agent header.finish.1)

/-- The turn that a worker runs comes to its end. -/
def endTurn? (f : Floor workers) (worker : Fin workers) (ending : TurnEnd) (restarts : Nat) :
    Option (Floor workers) :=
  match f.hands worker with
  | .running task => (f.setHand worker .empty).putAway? worker { task with restarts } ending
  | _ => some f

/-- What an action makes of the floor; nothing, if it went to a worker that is not there. -/
def next? (f : Floor workers) : Action workers → Option (Floor workers)
  | .submit caller agent destination => (f.onBehalfOf caller).submit? agent destination
  | .wake caller agent => (f.onBehalfOf caller).wake? agent
  | .take worker => f.find? worker (.take worker)
  | .steal worker victims => f.find? worker (.steal worker victims)
  | .start worker => f.start? worker
  | .recordTurn worker alpha elapsed price => f.tell? (.recordTurn worker alpha elapsed price)
  | .endTurn worker ending restarts => f.endTurn? worker ending restarts
  | .park worker => f.tell? (.park worker)
  | .unpark worker => f.tell? (.unpark worker)

/-- What actions one after another make of the floor. -/
def run? (f : Floor workers) (actions : List (Action workers)) : Option (Floor workers) :=
  actions.foldlM next? f

/-! ## Accounts -/

/-- Whether a task is an agent's. -/
def isOf (agent : AgentId) (task : Task) : Bool := task.agent = agent

theorem countP_isOf (agent : AgentId) (task : Task) :
    [task].countP (isOf agent) = if task.agent = agent then 1 else 0 := by
  simp [isOf, List.countP_singleton]

/-- How many tasks of an agent are queued or in the hands of a worker about to run them. -/
def due (f : Floor workers) (agent : AgentId) : Nat :=
  f.pool.tasks.countP (isOf agent) + ∑ worker, (f.hands worker).picks.countP (isOf agent)

/-- How many tasks of an agent run. -/
def running (f : Floor workers) (agent : AgentId) : Nat :=
  ∑ worker, (f.hands worker).runs.countP (isOf agent)

/-- What there is to say about an agent. -/
@[ext]
structure Account where
  header : Option (Header Task)
  due : Nat
  running : Nat
  isSubmitted : Bool
  isFinished : Bool

def account (f : Floor workers) (agent : AgentId) : Account :=
  ⟨f.headers agent, f.due agent, f.running agent, f.submitted.contains agent,
    f.finished.contains agent⟩

/-- The account of an agent whose task was just queued. -/
def Account.oneMoreDue (c : Account) : Account := { c with due := c.due + 1 }

/-- The ways an agent can be: its one task is where its phase says. -/
inductive Account.InOrder (agent : AgentId) : Account → Prop where
  | unknown : InOrder agent ⟨none, 0, 0, false, false⟩
  | waiting (restarts : Nat) (ending : Bool) :
      InOrder agent ⟨some ⟨.idle, some ⟨agent, restarts⟩, ending⟩, 0, 0, true, false⟩
  | scheduled (ending : Bool) :
      InOrder agent ⟨some ⟨.scheduled, none, ending⟩, 1, 0, true, false⟩
  | running (ending : Bool) : InOrder agent ⟨some ⟨.running, none, ending⟩, 0, 1, true, false⟩
  | notified (ending : Bool) : InOrder agent ⟨some ⟨.notified, none, ending⟩, 0, 1, true, false⟩
  | done (ending : Bool) : InOrder agent ⟨some ⟨.done, none, ending⟩, 0, 0, true, true⟩

/-- Every agent is in order, and so are the indices in the pool. -/
structure Kept (f : Floor workers) : Prop where
  size : f.pool.size = workers
  bounds : f.pool.InBounds
  inOrder : ∀ agent, (f.account agent).InOrder agent

/-- On a floor that opens no agent is known. -/
theorem kept_opening (settings : SchedulerSettings) (workers : Nat) (batching : Batching Task) :
    (opening settings workers batching).Kept := by
  have hempty : (opening settings workers batching).pool.tasks = [] := by
    simp [opening, Pool.ofSettings, Pool.tasks]
  constructor
  · simp [opening, Pool.ofSettings, Pool.size]
  · constructor
    · intro i hi
      cases hi
    · intro i hi
      cases hi
  · intro agent
    have haccount : (opening settings workers batching).account agent =
        ⟨none, 0, 0, false, false⟩ := by
      simp only [account, due, running, hempty]
      simp [opening, Hand.picks, Hand.runs]
    exact haccount ▸ .unknown

/-! ## What changes an account -/

/-- Changing what belongs to one worker changes the sum over all workers by as much. -/
theorem sum_update {α : Type} (f : Fin workers → α) (worker : Fin workers) (a : α)
    (size : α → Nat) :
    ∑ w, size (Function.update f worker a w) + size (f worker) = ∑ w, size (f w) + size a := by
  have hupdate : ∀ w, size (Function.update f worker a w) =
      Function.update (fun w => size (f w)) worker (size a) w := by
    intro w
    by_cases hw : w = worker
    · rw [hw, Function.update_self, Function.update_self]
    · rw [Function.update_of_ne hw, Function.update_of_ne hw]
  have hsum := Finset.sum_eq_add_sum_sdiff_singleton_of_mem (Finset.mem_univ worker)
    fun w => size (f w)
  rw [Finset.sum_congr rfl fun w _ => hupdate w,
    Finset.sum_update_of_mem (Finset.mem_univ worker), hsum]
  omega

/-- What a hand picks up falls due there. -/
theorem due_setHand (f : Floor workers) (worker : Fin workers) (hand : Hand) (agent : AgentId) :
    (f.setHand worker hand).due agent + (f.hands worker).picks.countP (isOf agent) =
      f.due agent + hand.picks.countP (isOf agent) := by
  have hsum := sum_update f.hands worker hand fun hand => hand.picks.countP (isOf agent)
  simp only [due, setHand]
  omega

/-- What a hand runs is running. -/
theorem running_setHand (f : Floor workers) (worker : Fin workers) (hand : Hand)
    (agent : AgentId) :
    (f.setHand worker hand).running agent + (f.hands worker).runs.countP (isOf agent) =
      f.running agent + hand.runs.countP (isOf agent) :=
  sum_update f.hands worker hand fun hand => hand.runs.countP (isOf agent)

/-- The floor after the pool has served a request. -/
def served (f : Floor workers) (request : Pool.Request Task) : Floor workers :=
  { f with pool := (f.pool.serve request).1 }

/-- A request brings what it brings into the queues, less what it hands out. -/
theorem due_served {f : Floor workers} {request : Pool.Request Task}
    (hr : request.IsBy f.pool.size) (agent : AgentId) :
    (f.pool.serve request).2.toList.countP (isOf agent) + (f.served request).due agent =
      request.brought.toList.countP (isOf agent) + f.due agent := by
  have hcount := Pool.countP_serve (P := isOf agent) hr
  simp only [due, served]
  omega

/-! ## Steps -/

variable {f f' : Floor workers} {agent : AgentId} {worker : Fin workers}

theorem Kept.lt_size (hf : f.Kept) (worker : Fin workers) : worker.val < f.pool.size :=
  hf.size.symm ▸ worker.isLt

theorem tell?_eq (hp : f.pool.InBounds) {request : Pool.Request Task}
    (hr : request.IsBy f.pool.size) : f.tell? request = some (f.served request) := by
  rw [tell?, Pool.serve?_eq hp hr]
  rfl

/-- An action that concerns one agent is judged by what it makes of that agent. -/
theorem Kept.touch (hf : f.Kept) (hsize : f'.pool.size = f.pool.size)
    (hbounds : f'.pool.InBounds) (agent : AgentId)
    (hothers : ∀ other, other ≠ agent → f'.account other = f.account other)
    (hagent : (f'.account agent).InOrder agent) : f'.Kept := by
  refine ⟨hsize.trans hf.size, hbounds, fun other => ?_⟩
  by_cases hother : other = agent
  · subst hother
    exact hagent
  · rw [hothers other hother]
    exact hf.inOrder other

/-- An action that concerns no agent. -/
theorem Kept.untouched (hf : f.Kept) (hsize : f'.pool.size = f.pool.size)
    (hbounds : f'.pool.InBounds) (hsame : ∀ agent, f'.account agent = f.account agent) :
    f'.Kept :=
  ⟨hsize.trans hf.size, hbounds, fun agent => (hsame agent).symm ▸ hf.inOrder agent⟩

/-- Who calls makes no difference to any account. -/
theorem Kept.onBehalfOf (hf : f.Kept) (caller : Option (Fin workers)) :
    (f.onBehalfOf caller).Kept := by
  refine hf.untouched rfl ⟨hf.bounds.parked, fun i hi => ?_⟩ fun _ => rfl
  cases caller with
  | none => exact nomatch hi
  | some worker =>
      obtain rfl : worker.val = i := Option.some.inj hi
      exact hf.lt_size worker

/-- A request that neither brings a task in nor takes one out. -/
theorem Kept.tell (hf : f.Kept) {request : Pool.Request Task} (hr : request.IsBy f.pool.size)
    (hbrought : request.brought = none) (hfound : (f.pool.serve request).2 = none) :
    ∃ f', f.tell? request = some f' ∧ f'.Kept := by
  refine ⟨f.served request, tell?_eq hf.bounds hr, ?_⟩
  refine hf.untouched (Pool.size_serve request) (hf.bounds.serve hr) fun agent => ?_
  have hdue := due_served hr agent
  rw [hbrought, hfound, Option.toList_none, List.countP_nil] at hdue
  have hsame : (f.served request).due agent = f.due agent := by omega
  exact Account.ext rfl hsame rfl rfl rfl

/-- A request that brings in the task of an agent, after a change to that agent. -/
theorem Kept.bring (hf : f.Kept) (request : Pool.Request Task) (task : Task)
    (hpool : f'.pool = f.pool) (hr : request.IsBy f.pool.size) (hbrought : request.brought = some task)
    (hfound : (f.pool.serve request).2 = none)
    (hothers : ∀ other, other ≠ task.agent → f'.account other = f.account other)
    (hagent : (f'.account task.agent).oneMoreDue.InOrder task.agent) :
    ∃ f'', f'.tell? request = some f'' ∧ f''.Kept := by
  -- only the agent whose task is brought has one more due
  have hdue : ∀ agent, (f'.served request).due agent =
      f'.due agent + if task.agent = agent then 1 else 0 := by
    intro agent
    have hcount := due_served (hpool.symm ▸ hr) agent
    rw [hbrought, hpool, hfound, Option.toList_some, Option.toList_none, List.countP_nil,
      countP_isOf] at hcount
    omega
  refine ⟨f'.served request, tell?_eq (hpool.symm ▸ hf.bounds) (hpool.symm ▸ hr), ?_⟩
  have hsize : (f'.served request).pool.size = f.pool.size :=
    (Pool.size_serve request).trans (congrArg Pool.size hpool)
  have hbounds : (f'.served request).pool.InBounds :=
    Pool.InBounds.serve (hpool.symm ▸ hf.bounds) (hpool.symm ▸ hr)
  refine hf.touch hsize hbounds task.agent ?_ ?_
  · intro other hother
    rw [← hothers other hother]
    have hsame := hdue other
    rw [if_neg hother.symm] at hsame
    exact Account.ext rfl hsame rfl rfl rfl
  · have hmore := hdue task.agent
    rw [if_pos rfl] at hmore
    have haccount : (f'.served request).account task.agent =
        (f'.account task.agent).oneMoreDue := Account.ext rfl hmore rfl rfl rfl
    rw [haccount]
    exact hagent

/-- A change of header is seen by its agent only. -/
theorem account_setHeader_ne (f : Floor workers) {agent other : AgentId} (h : other ≠ agent)
    (header : Header Task) : (f.setHeader agent header).account other = f.account other :=
  Account.ext (Function.update_of_ne h _ _) rfl rfl rfl rfl

theorem account_setHeader_self (f : Floor workers) (agent : AgentId) (header : Header Task) :
    (f.setHeader agent header).account agent = { f.account agent with header := some header } :=
  Account.ext (Function.update_self ..) rfl rfl rfl rfl

/-- A new agent's task may be submitted: it is due once, and nothing else is. -/
theorem Kept.submit (hf : f.Kept) (agent : AgentId) (destination : Destination) :
    ∃ f', f.submit? agent destination = some f' ∧ f'.Kept := by
  have horder := hf.inOrder agent
  generalize haccount : f.account agent = account at horder
  unfold submit?
  -- an agent already known is not submitted again
  cases horder with
  | unknown =>
      obtain ⟨hheader, hdue, hrunning, -, hfinished⟩ := Account.mk.inj haccount
      rw [hheader]
      refine hf.bring (.submit ⟨agent, 0⟩ destination) ⟨agent, 0⟩ ?_ trivial rfl rfl ?_ ?_
      · rfl
      · intro other hother
        have hsubmitted : (agent :: f.submitted).contains other = f.submitted.contains other := by
          simp [hother]
        exact Account.ext (Function.update_of_ne hother _ _) rfl rfl hsubmitted rfl
      · have hsubmitted : (agent :: f.submitted).contains agent = true := by simp
        have henrolled : account { f.setHeader agent .fresh with
            submitted := agent :: f.submitted } agent = ⟨some .fresh, 0, 0, true, false⟩ :=
          Account.ext (Function.update_self ..) hdue hrunning hsubmitted hfinished
        exact henrolled ▸ .scheduled false
  | _ =>
      obtain ⟨hheader, -⟩ := Account.mk.inj haccount
      rw [hheader]
      exact ⟨f, rfl, hf⟩

/-- A change of header alone. -/
theorem Kept.rephase (hf : f.Kept) (agent : AgentId) (header : Header Task)
    (hagent : ({ f.account agent with header := some header } : Account).InOrder agent) :
    (f.setHeader agent header).Kept := by
  refine hf.touch rfl hf.bounds agent (fun other hother => account_setHeader_ne f hother _) ?_
  rw [account_setHeader_self]
  exact hagent

/-- A wake schedules a waiting agent, is remembered by a running one and lost on all others. -/
theorem Kept.wake (hf : f.Kept) (agent : AgentId) :
    ∃ f', f.wake? agent = some f' ∧ f'.Kept := by
  have horder := hf.inOrder agent
  generalize haccount : f.account agent = account at horder
  unfold wake?
  -- on the phase: only a waiting header gives its task up
  cases horder with
  | unknown =>
      obtain ⟨hheader, -⟩ := Account.mk.inj haccount
      rw [hheader]
      exact ⟨f, rfl, hf⟩
  | waiting restarts ending =>
      obtain ⟨hheader, -⟩ := Account.mk.inj haccount
      rw [hheader]
      refine hf.bring (.schedule ⟨agent, restarts⟩) ⟨agent, restarts⟩ ?_ trivial rfl rfl ?_ ?_
      · rfl
      · exact fun other hother => account_setHeader_ne f hother _
      · rw [account_setHeader_self, haccount]
        exact .scheduled ending
  | running ending =>
      obtain ⟨hheader, -⟩ := Account.mk.inj haccount
      rw [hheader]
      refine ⟨_, rfl, hf.rephase agent _ ?_⟩
      rw [haccount]
      exact .notified ending
  | scheduled ending | notified ending | done ending =>
      -- the wake is remembered already, or comes too late
      obtain ⟨hheader, -⟩ := Account.mk.inj haccount
      rw [hheader]
      refine ⟨_, rfl, hf.rephase agent _ ?_⟩
      rw [haccount]
      constructor

/-- A worker that looks for a task may find one, which stays due. -/
theorem Kept.find (hf : f.Kept) (worker : Fin workers) (request : Pool.Request Task)
    (hr : request.IsBy f.pool.size) (hbrought : request.brought = none) :
    ∃ f', f.find? worker request = some f' ∧ f'.Kept := by
  unfold find?
  cases hhand : f.hands worker with
  | empty =>
      simp only [Pool.serve?_eq hf.bounds hr, Option.map_some]
      have hsize := (Pool.size_serve (p := f.pool) request)
      have hbounds := hf.bounds.serve hr
      have hdue := fun agent => due_served hr agent
      simp only [hbrought, Option.toList_none, List.countP_nil, Nat.zero_add] at hdue
      -- what is found leaves the queues and is in the hand
      cases hfound : (f.pool.serve request).2 with
      | none =>
          refine ⟨_, rfl, hf.untouched hsize hbounds fun agent => ?_⟩
          have hsame := hdue agent
          rw [hfound, Option.toList_none, List.countP_nil, Nat.zero_add] at hsame
          exact Account.ext rfl hsame rfl rfl rfl
      | some task =>
          refine ⟨_, rfl, hf.untouched hsize hbounds fun agent => ?_⟩
          have hpicked := due_setHand (f.served request) worker (.picked task) agent
          have hrunning := running_setHand (f.served request) worker (.picked task) agent
          have hsame := hdue agent
          rw [hfound, Option.toList_some] at hsame
          have hempty : (f.served request).hands worker = .empty := hhand
          simp only [hempty, Hand.picks, Hand.runs, List.countP_nil] at hpicked hrunning
          refine Account.ext rfl ?_ ?_ rfl rfl
          · exact (show ((f.served request).setHand worker (.picked task)).due agent = f.due agent
              by omega)
          · exact hrunning
  | picked task => exact ⟨f, rfl, hf⟩
  | running task => exact ⟨f, rfl, hf⟩

/-- A task that a worker has found is due. -/
theorem one_le_due {task : Task} (hhand : f.hands worker = .picked task) :
    1 ≤ f.due task.agent := by
  have hdue := due_setHand f worker .empty task.agent
  simp only [hhand, Hand.picks, countP_isOf, if_pos, List.countP_nil] at hdue
  omega

/-- A hand that runs a task has it running. -/
theorem one_le_running {task : Task} (hhand : f.hands worker = .running task) :
    1 ≤ f.running task.agent := by
  have hrunning := running_setHand f worker .empty task.agent
  simp only [hhand, Hand.runs, countP_isOf, if_pos, List.countP_nil] at hrunning
  omega

/-- An agent with a due task is a scheduled one. -/
theorem Kept.account_of_due (hf : f.Kept) (h : 1 ≤ f.due agent) :
    ∃ isTerminating, f.account agent =
      ⟨some ⟨.scheduled, none, isTerminating⟩, 1, 0, true, false⟩ := by
  have horder := hf.inOrder agent
  generalize haccount : f.account agent = account at horder
  cases horder with
  | scheduled isTerminating => exact ⟨isTerminating, rfl⟩
  | _ =>
      obtain ⟨-, hnone, -⟩ := Account.mk.inj haccount
      omega

/-- An agent with a running task is a running one, notified or not. -/
theorem Kept.account_of_running (hf : f.Kept) (h : 1 ≤ f.running agent) :
    ∃ phase isTerminating, (phase = .running ∨ phase = .notified) ∧ f.account agent =
      ⟨some ⟨phase, none, isTerminating⟩, 0, 1, true, false⟩ := by
  have horder := hf.inOrder agent
  generalize haccount : f.account agent = account at horder
  cases horder with
  | running isTerminating => exact ⟨.running, isTerminating, .inl rfl, rfl⟩
  | notified isTerminating => exact ⟨.notified, isTerminating, .inr rfl, rfl⟩
  | _ =>
      obtain ⟨-, -, hnone, -⟩ := Account.mk.inj haccount
      omega

/-- A picked task may be started: its header lets it run. -/
theorem Kept.start (hf : f.Kept) (worker : Fin workers) :
    ∃ f', f.start? worker = some f' ∧ f'.Kept := by
  unfold start?
  cases hhand : f.hands worker with
  | empty => exact ⟨f, rfl, hf⟩
  | running task => exact ⟨f, rfl, hf⟩
  | picked task =>
      obtain ⟨ending, haccount⟩ := hf.account_of_due (one_le_due hhand)
      obtain ⟨hheader, hone, hnone, hsubmitted, hfinished⟩ := Account.mk.inj haccount
      have hdue := fun agent => due_setHand f worker (.running task) agent
      have hrunning := fun agent => running_setHand f worker (.running task) agent
      simp only [hhand, Hand.picks, Hand.runs, countP_isOf, List.countP_nil] at hdue hrunning
      -- from due to running in one step, for that agent alone
      have hbegun : ((f.setHeader task.agent ⟨.running, none, ending⟩).setHand worker
          (.running task)).Kept := by
        refine hf.touch rfl hf.bounds task.agent ?_ ?_
        · intro other hother
          have hsame := hdue other
          have hsame' := hrunning other
          rw [if_neg hother.symm] at hsame hsame'
          exact Account.ext (Function.update_of_ne hother _ _) hsame hsame' rfl rfl
        · have hless := hdue task.agent
          have hmore := hrunning task.agent
          rw [if_pos rfl] at hless hmore
          have haccount' : ((f.setHeader task.agent ⟨.running, none, ending⟩).setHand worker
              (.running task)).account task.agent =
                ⟨some ⟨.running, none, ending⟩, 0, 1, true, false⟩ := by
            refine Account.ext (Function.update_self ..) ?_ ?_ hsubmitted hfinished
            · exact (show (f.setHand worker (.running task)).due task.agent = 0 by omega)
            · exact (show (f.setHand worker (.running task)).running task.agent = 1 by omega)
          exact haccount' ▸ .running ending
      simp only [hheader]
      exact hbegun.tell (hf.lt_size worker) rfl rfl

/-- With the running task taken out of its worker's hand, nothing of its agent runs. -/
theorem account_setHand_empty {task : Task} (hhand : f.hands worker = .running task)
    (agent : AgentId) :
    (f.setHand worker .empty).account agent = { f.account agent with
      running := f.running agent - if task.agent = agent then 1 else 0 } := by
  have hdue := due_setHand f worker .empty agent
  have hrunning := running_setHand f worker .empty agent
  simp only [hhand, Hand.picks, Hand.runs, countP_isOf, List.countP_nil] at hdue hrunning
  exact Account.ext rfl hdue (Nat.eq_sub_of_add_eq hrunning) rfl rfl

/-- A task that ran and is in no hand any more is put away. -/
theorem Kept.putAway (hf : f.Kept) (worker : Fin workers) (task : Task) (ending : TurnEnd)
    {phase : Phase} {isTerminating : Bool} (hphase : phase = .running ∨ phase = .notified)
    (hpool : f'.pool = f.pool)
    (hothers : ∀ other, other ≠ task.agent → f'.account other = f.account other)
    (hagent : f'.account task.agent = ⟨some ⟨phase, none, isTerminating⟩, 0, 0, true, false⟩) :
    ∃ f'', f'.putAway? worker task ending = some f'' ∧ f''.Kept := by
  obtain ⟨hheader, hdue, hrunning, hsubmitted, hfinished⟩ := Account.mk.inj hagent
  have hrephased : ∀ header, (∀ other, other ≠ task.agent →
      (f'.setHeader task.agent header).account other = f.account other) ∧
        (f'.setHeader task.agent header).account task.agent =
          ⟨some header, 0, 0, true, false⟩ := by
    intro header
    constructor
    · intro other hother
      rw [account_setHeader_ne f' hother, hothers other hother]
    · rw [account_setHeader_self, hagent]
  -- back into the worker's inbox
  have hrequeued : ∃ f'', (f'.setHeader task.agent ⟨.scheduled, none, isTerminating⟩).tell?
      (.requeue worker task) = some f'' ∧ f''.Kept := by
    refine hf.bring (.requeue worker task) task hpool (hf.lt_size worker) rfl rfl
      (hrephased _).1 ?_
    rw [(hrephased _).2]
    exact .scheduled isTerminating
  unfold putAway?
  -- back into the inbox, into the slot, or off the floor
  cases ending with
  | yield =>
      simp only [hheader]
      rcases hphase with rfl | rfl
      · exact hrequeued
      · exact hrequeued
  | wait =>
      simp only [hheader]
      rcases hphase with rfl | rfl
      · refine ⟨_, rfl, hf.touch (congrArg Pool.size hpool) (hpool.symm ▸ hf.bounds) task.agent
          (hrephased _).1 ?_⟩
        rw [(hrephased _).2]
        exact .waiting task.restarts isTerminating
      · exact hrequeued
  | done =>
      simp only [hheader]
      refine ⟨_, rfl, hf.touch (congrArg Pool.size hpool) (hpool.symm ▸ hf.bounds) task.agent
        ?_ ?_⟩
      · intro other hother
        have hlog : (task.agent :: f'.finished).contains other = f'.finished.contains other := by
          simp [hother]
        rw [← hothers other hother]
        exact Account.ext (Function.update_of_ne hother _ _) rfl rfl rfl hlog
      · have hlog : (task.agent :: f'.finished).contains task.agent = true := by simp
        have hended : account ({ f' with finished := task.agent :: f'.finished }.setHeader
            task.agent ⟨.done, none, isTerminating⟩) task.agent =
              ⟨some ⟨.done, none, isTerminating⟩, 0, 0, true, true⟩ :=
          Account.ext (Function.update_self ..) hdue hrunning hsubmitted hlog
        exact hended ▸ .done isTerminating

/-- A turn that ends leaves the hand empty and its task where the ending says. -/
theorem Kept.endTurn (hf : f.Kept) (worker : Fin workers) (ending : TurnEnd) (restarts : Nat) :
    ∃ f', f.endTurn? worker ending restarts = some f' ∧ f'.Kept := by
  unfold endTurn?
  cases hhand : f.hands worker with
  | empty => exact ⟨f, rfl, hf⟩
  | picked task => exact ⟨f, rfl, hf⟩
  | running task =>
      have hemptied := account_setHand_empty hhand
      have hothers : ∀ other, other ≠ task.agent →
          (f.setHand worker .empty).account other = f.account other := by
        intro other hother
        rw [hemptied other, if_neg hother.symm]
        rfl
      obtain ⟨phase, isTerminating, hphase, haccount⟩ :=
        hf.account_of_running (one_le_running hhand)
      obtain ⟨-, -, hone, -⟩ := Account.mk.inj haccount
      have hagent := hemptied task.agent
      rw [haccount, if_pos rfl, hone] at hagent
      exact hf.putAway worker { task with restarts } ending hphase rfl hothers hagent

/-! ## Runs -/

/-- Whatever happens on the floor, it stays in order, and nobody goes to a worker that is
not there. -/
theorem Kept.next (hf : f.Kept) (action : Action workers) :
    ∃ f', f.next? action = some f' ∧ f'.Kept := by
  cases action with
  | submit caller agent destination => exact (hf.onBehalfOf caller).submit agent destination
  | wake caller agent => exact (hf.onBehalfOf caller).wake agent
  | take worker => exact hf.find worker (.take worker) (hf.lt_size worker) rfl
  | steal worker victims => exact hf.find worker (.steal worker victims) (hf.lt_size worker) rfl
  | start worker => exact hf.start worker
  | recordTurn worker alpha elapsed price => exact hf.tell (hf.lt_size worker) rfl rfl
  | endTurn worker ending restarts => exact hf.endTurn worker ending restarts
  | park worker => exact hf.tell (hf.lt_size worker) rfl rfl
  | unpark worker => exact hf.tell (hf.lt_size worker) rfl rfl

/-- Every run of the floor succeeds and keeps every account in order. -/
theorem Kept.run (hf : f.Kept) (actions : List (Action workers)) :
    ∃ f', f.run? actions = some f' ∧ f'.Kept := by
  induction actions generalizing f with
  | nil => exact ⟨f, rfl, hf⟩
  | cons action rest ih =>
      obtain ⟨f₁, hnext, hf₁⟩ := hf.next action
      obtain ⟨f₂, hrest, hf₂⟩ := ih hf₁
      refine ⟨f₂, ?_, hf₂⟩
      rw [run?, List.foldlM_cons, hnext]
      exact hrest

end Floor

end Troupe
