import Troupe.Proofs.Agent.Moves
import Troupe.Proofs.Node.Dealings

/-!
# A node with turns in progress

Workers take tasks up and put them down again, and between the steps of one turn other turns
make theirs, and anybody may act. What happens to each agent is written down: when a worker
takes its task up, when one of its callbacks is called, what it answers, and when it leaves
the register.

Nothing is said of who takes which task when: a worker may take up any task at any time, and
the header of the agent alone decides whether it runs. Nobody stops the node.

* `run_errand` — whatever anybody may ask a node for can happen at any time;
* `run_runTask` — a turn without interference is that of `Node.runTask`;
* `run_work` — and a round of a worker is that of `Node.work`.
-/

namespace Troupe

/-- What happens in the life of an agent. -/
inductive Happening where
  /-- A worker has taken its task up, and the header lets it run. -/
  | runs
  | resumes
  | answers (answer : Except String Step)
  /-- It is prepared for being resumed after a failure. -/
  | prepares
  /-- It is given its last word. -/
  | speaks
  /-- Its mailbox is closed, and it is taken off the register. -/
  | leaves
deriving DecidableEq

namespace Happening

variable {σ μ : Type}

def ofEvent? : Event μ → Option Happening
  | .lastWord => some .speaks
  | .left => some .leaves
  | _ => none

/-- What has happened between a point without a history and the next. -/
def between (c c' : Pace σ μ) : List Happening :=
  (match c.point, c'.point with
    | .running _ (.answer answer), _ => [.answers answer]
    | .resuming _, .running _ _ => [.resumes]
    | _, _ => []) ++
  (if c'.restarts = c.restarts then [] else [.prepares]) ++ c'.history.filterMap ofEvent?

end Happening

variable {μ ε : Type}

/-- A turn in progress, apart from the node. -/
structure Stint (μ ε : Type) where
  worker : Nat
  started : Instant
  policy : Policy
  quantum : Nat
  books : TurnBooks
  restarts : Nat
  point : Point (Node μ ε) μ

namespace Stint

def resident (host : Host μ ε) (id : AgentId) (t : Stint μ ε) : Resident (Node μ ε) μ :=
  ⟨host.behavior id, Node.around id, t.policy, id, t.quantum⟩

/-- The turn on its node. -/
def pace (t : Stint μ ε) (n : Node μ ε) : Pace (Node μ ε) μ := ⟨n, t.books, t.restarts, t.point, []⟩

/-- The turn goes on. -/
def goOn (t : Stint μ ε) (c : Pace (Node μ ε) μ) : Stint μ ε :=
  { t with books := c.books, restarts := c.restarts, point := c.point }

end Stint

/-- A node, the turns in progress on it, and what has happened. -/
structure Scene (μ ε : Type) where
  node : Node μ ε
  turns : AgentId → Option (Stint μ ε)
  log : List (AgentId × Happening)

/-- What can happen next. -/
inductive Scene.Action (μ ε : Type) where
  | deal (d : Node.Dealing μ ε)
  | takeUp (worker : Nat) (task : Task)
  /-- An agent in its turn makes a step. -/
  | work (id : AgentId)
  /-- The worker of an agent puts its task where the end of the turn says. -/
  | putDown (id : AgentId)

namespace Scene

/-- A node on which nothing has happened. -/
def opened (n : Node μ ε) : Scene μ ε := ⟨n, fun _ => none, []⟩

/-- What has happened to an agent. -/
def story (s : Scene μ ε) (id : AgentId) : List Happening :=
  (s.log.filter fun entry => entry.1 = id).map (·.2)

/-- How often an agent has left the register, all agents taken together. -/
def departures (s : Scene μ ε) : Nat := (s.log.map (·.2)).count .leaves

/-- A worker takes a task up; a task whose agent may not run is dropped. -/
def takeUp (host : Host μ ε) (s : Scene μ ε) (worker : Nat) (task : Task) : Scene μ ε :=
  match s.node.seat? task.agent with
  | none => { s with node := s.node.dropTask host task }
  | some seat =>
    let (header, may) := seat.header.beginRun
    let n := s.node.alterSeat task.agent fun seat => { seat with header }
    if may then
      let quantum := n.settings.scheduler.quantum
      { node := { n with pool := n.pool.setPhase worker .running }
        turns := Function.update s.turns task.agent (some
          ⟨worker, n.now, n.policy, quantum, .opened quantum, task.restarts, .resuming quantum⟩)
        log := s.log ++ [(task.agent, .runs)] }
    else { s with node := n.dropTask host task }

def work (host : Host μ ε) (s : Scene μ ε) (id : AgentId) (t : Stint μ ε) : Scene μ ε :=
  let c := t.pace s.node
  let c' := (t.resident host id).step c
  { node := c'.world
    turns := Function.update s.turns id (some (t.goOn c'))
    log := s.log ++ (Happening.between c c').map fun happening => (id, happening) }

def putDown (host : Host μ ε) (s : Scene μ ε) (id : AgentId) (t : Stint μ ε) (ending : TurnEnd) :
    Scene μ ε :=
  { s with
    node := (s.node.recordTurn t.worker id t.started ending t.books.received).settleTask host
      t.worker ⟨id, t.restarts⟩ ending
    turns := Function.update s.turns id none }

variable [Transferable μ]

def next (host : Host μ ε) (s : Scene μ ε) : Action μ ε → Scene μ ε
  | .deal d => { s with node := s.node.deal d }
  | .takeUp worker task => s.takeUp host worker task
  | .work id =>
    match s.turns id with
    | none => s
    | some t => s.work host id t
  | .putDown id =>
    match s.turns id with
    | none => s
    | some t =>
      match t.point with
      | .ended ending => s.putDown host id t ending
      | _ => s

/-- What comes of actions one after another. -/
def run (host : Host μ ε) (s : Scene μ ε) (actions : List (Action μ ε)) : Scene μ ε :=
  actions.foldl (next host) s

theorem run_append (host : Host μ ε) (s : Scene μ ε) (first second : List (Action μ ε)) :
    s.run host (first ++ second) = (s.run host first).run host second :=
  List.foldl_append

/-- Dealings, one after another: so anybody may ask an agent to end, or let time pass. -/
theorem run_deals (host : Host μ ε) (s : Scene μ ε) {n : Node μ ε} (h : s.node.Deals n) :
    ∃ actions, s.run host actions = { s with node := n } := by
  induction h with
  | refl => exact ⟨[], rfl⟩
  | tail _ hlast ih =>
      obtain ⟨actions, hrun⟩ := ih
      obtain ⟨d, rfl⟩ := hlast
      refine ⟨actions ++ [.deal d], ?_⟩
      rw [run_append, hrun]
      rfl

/-- What a node is asked for in one go, and nobody acts meanwhile. -/
theorem run_errand (host : Host μ ε) (s : Scene μ ε) (errand : Node.Errand μ ε) :
    ∃ actions, s.run host actions = { s with node := s.node.runErrand errand } :=
  run_deals host s (s.node.deals_errand errand)

end Scene

/-! ## A turn without interference -/

namespace Resident

variable {σ : Type} (a : Resident σ μ)

/-- Nothing in a step depends on what has happened before. -/
theorem step_bare (c : Pace σ μ) :
    ∃ history, a.step { c with history := [] } = { a.step c with history } := by
  obtain ⟨s, t, restarts, point, history⟩ := c
  have hreceive : ∀ next : Option (Envelope μ) → Point σ μ,
      ∃ history', a.receive ⟨s, t, restarts, point, []⟩ next =
        { a.receive ⟨s, t, restarts, point, history⟩ next with history := history' } := by
    intro next
    unfold receive
    dsimp only
    split
    · exact ⟨[], rfl⟩
    · split <;> exact ⟨_, rfl⟩
  -- on the point of the turn: no step reads the history
  cases point with
  | resuming left =>
      cases left with
      | zero => exact ⟨_, rfl⟩
      | succ left =>
          simp only [step_resuming]
          split <;> exact ⟨_, rfl⟩
  | running left rest =>
      cases rest with
      | receive next => exact hreceive fun e => .running left (next e)
      | _ => exact ⟨_, rfl⟩
  | answered left answer =>
      rcases answer with reason | _ | _ | _
      · exact ⟨_, rfl⟩
      · exact ⟨_, rfl⟩
      · simp only [step_wait]
        split <;> exact ⟨_, rfl⟩
      · exact ⟨_, rfl⟩
  | waiting left =>
      simp only [step_waiting]
      split <;> exact ⟨_, rfl⟩
  | enlisting left => exact ⟨_, rfl⟩
  | enlisted left =>
      simp only [step_enlisted]
      split <;> exact ⟨_, rfl⟩
  | stopping rest =>
      cases rest with
      | receive next => exact hreceive fun e => .stopping (next e)
      | _ => exact ⟨_, rfl⟩
  | ended ending => exact ⟨_, rfl⟩

end Resident

namespace Scene

variable [Transferable μ]

/-- A turn in progress that others leave alone comes to where its steps lead. -/
theorem run_leadsTo {host : Host μ ε} {id : AgentId} {t : Stint μ ε}
    (turns : AgentId → Option (Stint μ ε)) (log : List (AgentId × Happening))
    {c c' : Pace (Node μ ε) μ} (hpath : (t.resident host id).LeadsTo c c') :
    ∃ steps log', (⟨c.world, Function.update turns id (some (t.goOn c)), log⟩ : Scene μ ε).run host
      (List.replicate steps (.work id)) =
        ⟨c'.world, Function.update turns id (some (t.goOn c')), log'⟩ := by
  -- on the steps of the turn: each is one `work` of the scene
  induction hpath with
  | refl => exact ⟨0, log, rfl⟩
  | @tail c' c'' _ hlast ih =>
      obtain ⟨steps, log', hrun⟩ := ih
      subst hlast
      -- the history is not kept from step to step, and no step depends on it
      obtain ⟨history, hbare⟩ := (t.resident host id).step_bare c'
      refine ⟨steps + 1, log' ++ (Happening.between ((t.goOn c').pace c'.world)
        { (t.resident host id).step c' with history }).map fun h => (id, h), ?_⟩
      rw [List.replicate_succ', run_append, hrun]
      have hstep : ((t.goOn c').resident host id).step ((t.goOn c').pace c'.world) =
        { (t.resident host id).step c' with history } := hbare
      show next host _ (.work id) = _
      simp only [next, Function.update_self, work, Function.update_idem, hstep]
      rfl

/-- A worker takes a task up and puts it down, and nobody acts meanwhile. -/
theorem run_runTask (host : Host μ ε) (s : Scene μ ε) (worker : Nat) (task : Task)
    (hfree : s.turns task.agent = none) :
    ∃ steps log, s.run host (.takeUp worker task ::
      (List.replicate steps (.work task.agent) ++ [.putDown task.agent])) =
        ⟨s.node.runTask host worker task, s.turns, log⟩ := by
  -- a task whose agent is gone, or whose header refuses, is dropped and the turn is empty
  have hdropped : ∀ n : Node μ ε, s.takeUp host worker task = { s with node := n } →
      ∃ steps log, s.run host (.takeUp worker task ::
        (List.replicate steps (.work task.agent) ++ [.putDown task.agent])) =
          ⟨n, s.turns, log⟩ := by
    intro n hn
    refine ⟨0, s.log, ?_⟩
    simp [run, next, hn, hfree]
  cases hseat : s.node.seat? task.agent with
  | none =>
      have htask : s.node.runTask host worker task = s.node.dropTask host task := by
        simp only [Node.runTask, hseat]
      rw [htask]
      exact hdropped _ (by simp only [takeUp, hseat])
  | some seat =>
      cases hmay : seat.header.beginRun.2 with
      | false =>
          let n := s.node.alterSeat task.agent fun s => { s with header := seat.header.beginRun.1 }
          have htask : s.node.runTask host worker task = n.dropTask host task := by
            simp only [Node.runTask, hseat, hmay]
            rfl
          rw [htask]
          refine hdropped _ ?_
          simp only [takeUp, hseat, hmay]
          rfl
      | true =>
          let n := s.node.alterSeat task.agent fun s => { s with header := seat.header.beginRun.1 }
          let begun := { n with pool := n.pool.setPhase worker .running }
          let quantum := n.settings.scheduler.quantum
          let t : Stint μ ε :=
            ⟨worker, n.now, n.policy, quantum, .opened quantum, task.restarts, .resuming quantum⟩
          have htaken : s.takeUp host worker task = ⟨begun,
              Function.update s.turns task.agent (some t), s.log ++ [(task.agent, .runs)]⟩ := by
            simp only [takeUp, hseat, hmay]
            rfl
          -- the turn as a whole is a sequence of steps, and the scene follows it
          obtain ⟨history, hpath⟩ := Resident.leadsTo_turn (a := t.resident host task.agent) begun
            task.restarts []
          obtain ⟨steps, log, hrun⟩ :=
            run_leadsTo s.turns (s.log ++ [(task.agent, .runs)]) hpath
          refine ⟨steps, log, ?_⟩
          show (s.takeUp host worker task).run host _ = _
          rw [htaken, run_append]
          have hstart : (⟨begun, Function.update s.turns task.agent (some t),
              s.log ++ [(task.agent, .runs)]⟩ : Scene μ ε).run host
                (List.replicate steps (.work task.agent)) = _ := hrun
          rw [hstart]
          show next host _ (.putDown task.agent) = _
          have hback : Function.update s.turns task.agent none = s.turns := by
            rw [← hfree, Function.update_eq_self]
          simp only [next, Function.update_self, Stint.goOn, Resident.ofResult, putDown,
            Function.update_idem, hback]
          simp only [Node.runTask, hseat, hmay]
          rfl

/-- One round of a worker, and nobody acts meanwhile. -/
theorem run_work (host : Host μ ε) (s : Scene μ ε) (index : Nat)
    (hfree : ∀ id, s.turns id = none) :
    ∃ actions log, s.run host actions = ⟨s.node.work host index, s.turns, log⟩ := by
  -- what the round does before it runs a task, and that it says whose acts these were
  let onBehalf (n : Node μ ε) : Node μ ε := { n with pool := { n.pool with current := some index } }
  let restored (n : Node μ ε) : Node μ ε :=
    { n with pool := { n.pool with current := s.node.pool.current } }
  have hruns : ∀ (found : Node μ ε → Node μ ε) (task : Task),
      s.node.beside found = found s.node → s.node.work host index =
        restored ((found s.node).runTask host index task) →
      ∃ actions log, s.run host actions = ⟨s.node.work host index, s.turns, log⟩ := by
    intro found task hfound hwork
    obtain ⟨steps, log, hrun⟩ :=
      run_runTask host { s with node := found s.node } index task (hfree task.agent)
    refine ⟨.deal (.beside found) :: (.takeUp index task ::
      (List.replicate steps (.work task.agent) ++ [.putDown task.agent])) ++
        [.deal (.beside restored)], log, ?_⟩
    rw [run_append, hwork]
    show (run host { s with node := s.node.beside found } _).run host _ = _
    rw [hfound, hrun]
    rfl
  have hidles : ∀ found : Node μ ε → Node μ ε, s.node.beside found = found s.node →
      s.node.work host index = found s.node →
      ∃ actions log, s.run host actions = ⟨s.node.work host index, s.turns, log⟩ := by
    intro found hfound hwork
    refine ⟨[.deal (.beside found)], s.log, ?_⟩
    rw [hwork, ← hfound]
    rfl
  -- a task of its own, a stolen one, or none
  rcases htake : (onBehalf s.node).pool.take index with ⟨pool, _ | task⟩
  · rcases hsteal : pool.steal index ((onBehalf s.node).strategy.victims index pool.loads) with
      ⟨pool', _ | ⟨task, count⟩⟩
    · refine hidles (fun n => restored { onBehalf n with pool := pool'.park index }) rfl ?_
      simp only [Node.work, Node.onBehalfOf]
      simp only [onBehalf] at htake hsteal
      simp only [htake, hsteal]
      rfl
    · refine hruns (fun n => { onBehalf n with
        pool := pool'
        metrics := { n.metrics with
          steals := n.metrics.steals + 1
          stolenTasks := n.metrics.stolenTasks + count } }) task rfl ?_
      simp only [Node.work, Node.onBehalfOf]
      simp only [onBehalf] at htake hsteal
      simp only [htake, hsteal]
      rfl
  · refine hruns (fun n => { onBehalf n with pool }) task rfl ?_
    simp only [Node.work, Node.onBehalfOf]
    simp only [onBehalf] at htake
    simp only [htake]
    rfl

end Scene

end Troupe
