import Troupe.Proofs.Node.Seat
import Troupe.Proofs.Scheduler.Floor

/-!
# Nodes and the floor

Seen from the floor, a node is its pool and the headers of its seats. What the node does
with tasks is what happens on the floor, whatever its workers have in hand.

* `floor_wake`, `floor_enroll` — waking and spawning;
* `floor_settleTask` — the end of a turn, up to the dropping of a behaviour.
-/

namespace Troupe

/-- A task that was to be put away is parked, handed back or dropped. -/
theorem Header.suspend_cases {τ : Type} (h : Header τ) (task : τ) :
    (h.suspend task).2 = .parked ∨ (h.suspend task).2 = .returned task ∨
      (h.suspend task).2 = .dropped task := by
  unfold suspend
  split
  · exact .inl rfl
  · exact .inr (.inl rfl)
  · exact .inr (.inr rfl)

namespace Node

variable {μ ε : Type} {workers : Nat}

/-- What the floor sees of a node whose workers have these things in hand. -/
def floor (n : Node μ ε) (hands : Fin workers → Hand) (submitted finished : List AgentId) :
    Floor workers where
  pool := n.pool
  headers id := (n.seat? id).map (·.header)
  hands := hands
  submitted := submitted
  finished := finished

variable {n : Node μ ε} {hands : Fin workers → Hand} {submitted finished : List AgentId}
  {id : AgentId}

/-- The headers on the floor are those of the seats. -/
theorem headers_floor (n : Node μ ε) (hands : Fin workers → Hand)
    (submitted finished : List AgentId) (id : AgentId) :
    (n.floor hands submitted finished).headers id = (n.seat? id).map (·.header) := rfl

/-- A change to the header in a seat is a change of header on the floor. -/
theorem floor_alterSeat (hands : Fin workers → Hand) (submitted finished : List AgentId)
    {seat : Seat μ ε} (hseat : n.seat? id = some seat) (header : Header Task) :
    (n.alterSeat id fun seat => { seat with header }).floor hands submitted finished =
      (n.floor hands submitted finished).setHeader id header := by
  have hheaders : (fun other => ((n.alterSeat id fun seat => { seat with header }).seat? other).map
      (·.header)) = Function.update (fun other => (n.seat? other).map (·.header)) id
        (some header) := by
    funext other
    rw [seat?_alterSeat]
    by_cases hother : other = id
    · rw [if_pos hother, hother, Function.update_self, hseat]
      rfl
    · rw [if_neg hother, Function.update_of_ne hother]
  simp only [floor, Floor.setHeader, hheaders]
  rfl

/-- Asking the pool of a node is telling the floor. -/
theorem floor_tell (n : Node μ ε) (request : Pool.Request Task) (hp : n.pool.InBounds)
    (hr : request.IsBy n.pool.size) :
    (n.floor hands submitted finished).tell? request =
      some ({ n with pool := (n.pool.serve request).1 }.floor hands submitted finished) :=
  Floor.tell?_eq hp hr

/-- Waking an agent. -/
theorem floor_wake (hp : n.pool.InBounds) (id : AgentId) :
    (n.floor hands submitted finished).wake? id =
      some ((n.wake id).floor hands submitted finished) := by
  unfold Floor.wake? Node.wake
  rw [headers_floor]
  cases hseat : n.seat? id with
  | none => rfl
  | some seat =>
      dsimp only [Option.map_some]
      rw [← floor_alterSeat hands submitted finished hseat]
      cases seat.header.wake.2 with
      | none => rfl
      | some task => exact floor_tell (n.alterSeat id _) (.schedule task) hp trivial

/-- Spawning an agent. -/
theorem floor_enroll (hp : n.pool.InBounds) (hnew : n.seat? n.nextId = none)
    (mailbox : Mailbox Waker μ) (capability : Capability) (options : SpawnOptions ε) :
    (n.floor hands submitted finished).submit? n.nextId
        (n.strategy.destination n.pool.current n.pool.loads (n.hint options)) =
      some ((n.enroll mailbox capability options).1.floor hands (n.nextId :: submitted)
        finished) := by
  have hheaders : (fun other => ((n.seats.insert n.nextId
      ⟨.fresh, mailbox, capability, true, options.observer⟩).get? other).map (·.header)) =
        Function.update (fun other => (n.seat? other).map (·.header)) n.nextId (some .fresh) := by
    funext other
    rw [Table.get?_insert]
    by_cases hother : other = n.nextId
    · rw [if_pos hother, hother, Function.update_self]
      rfl
    · rw [if_neg hother, Function.update_of_ne hother]
      rfl
  -- the node with the new seat, before the task is queued
  let seated : Node μ ε := { n with
    nextId := n.nextId.next
    seats := n.seats.insert n.nextId ⟨.fresh, mailbox, capability, true, options.observer⟩
    metrics := { n.metrics with spawned := n.metrics.spawned + 1 } }
  have hseated : { (n.floor hands submitted finished).setHeader n.nextId .fresh with
      submitted := n.nextId :: submitted } =
        seated.floor hands (n.nextId :: submitted) finished := by
    simp only [Floor.setHeader, floor, seated, seat?] at hheaders ⊢
    rw [hheaders]
  have htold : (seated.floor hands (n.nextId :: submitted) finished).tell? (.submit ⟨n.nextId, 0⟩
      (n.strategy.destination n.pool.current n.pool.loads (n.hint options))) =
        some ((n.enroll mailbox capability options).1.floor hands (n.nextId :: submitted)
          finished) := floor_tell seated _ hp trivial
  unfold Floor.submit?
  rw [headers_floor, hnew, ← htold]
  exact congrArg (Floor.tell? · _) hseated

/-- The end of a turn, up to the dropping of a behaviour that ends with it. -/
theorem floor_settleTask (hp : n.pool.InBounds) (host : Host μ ε) (worker : Fin workers)
    (hworker : worker.val < n.pool.size) (task : Task) {seat : Seat μ ε}
    (hseat : n.seat? task.agent = some seat) (ending : TurnEnd) :
    ∃ settled finished', (n.floor hands submitted finished).putAway? worker task ending =
        some (settled.floor hands submitted finished') ∧
      (n.settleTask host worker task ending = settled ∨
        n.settleTask host worker task ending = settled.dropTask host task) := by
  have halter := fun header =>
    floor_alterSeat hands submitted finished hseat header
  unfold Floor.putAway? settleTask
  rw [headers_floor, hseat]
  dsimp only [Option.map_some]
  -- each ending settles the header first and then tells the pool, or drops the task
  cases ending with
  | yield =>
      dsimp only
      rw [← halter]
      cases seat.header.reschedule.2 with
      | true => exact ⟨_, finished, floor_tell (n.alterSeat _ _) (.requeue worker task) hp hworker, .inl rfl⟩
      | false => exact ⟨_, finished, rfl, .inr rfl⟩
  | wait =>
      dsimp only
      rw [← halter]
      rcases seat.header.suspend_cases task with hsuspend | hsuspend | hsuspend
      · rw [hsuspend]
        exact ⟨_, finished, rfl, .inl rfl⟩
      · rw [hsuspend]
        exact ⟨_, finished, floor_tell (n.alterSeat _ _) (.requeue worker task) hp hworker, .inl rfl⟩
      · rw [hsuspend]
        exact ⟨_, finished, rfl, .inr rfl⟩
  | done =>
      let ended : Node μ ε :=
        { n.alterSeat task.agent fun s => { s with header := seat.header.finish.1 } with
          profiles := n.profiles.erase task.agent }
      refine ⟨ended, task.agent :: finished, ?_, .inr rfl⟩
      have hended := floor_alterSeat hands submitted (task.agent :: finished) hseat
        seat.header.finish.1
      dsimp only
      rw [headers_floor, hseat]
      exact congrArg some hended.symm

end Node

end Troupe
