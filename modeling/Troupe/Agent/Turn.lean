import Troupe.Agent.Policy
import Troupe.Agent.Program

/-!
# Turns

A worker runs an agent for a turn: the agent is resumed up to a quantum of times, may
receive up to a quantum of messages, and ends in one of three ways. What a turn needs
from the world around it is a `Surroundings`; what others do between two steps of the
turn is `meanwhile`.

* `received_run` — running a program spends the budget message by message;
* `messages_turn_le` — a turn hands out no more messages than its quantum.
-/

namespace Troupe

/-- How a turn ends. -/
inductive TurnEnd where
  /-- Queue the task again. -/
  | yield
  /-- Put the task away until the agent is woken. -/
  | wait
  /-- Drop the task. -/
  | done
deriving DecidableEq, Repr

/-- The books of one turn. -/
structure TurnBooks where
  /-- Messages that may still be received. -/
  budget : Nat
  received : Nat
  /-- A receive of the current resume found nothing. -/
  drained : Bool
  /-- A receive was refused for lack of budget. -/
  exhausted : Bool
deriving DecidableEq, Repr

/-- The books at the start of a turn. -/
def TurnBooks.opened (quantum : Nat) : TurnBooks := ⟨quantum, 0, false, false⟩

/-- What a turn finds around it, for one agent in a world `σ`. -/
structure Surroundings (σ μ : Type) where
  /-- Whether the agent was asked to end. -/
  isTerminating : σ → Bool
  /-- Whether the agent's mailbox is empty. -/
  isEmpty : σ → Bool
  dequeue : σ → σ × Option (Envelope μ)
  /-- Has the agent woken by the next arrival. -/
  register : σ → σ
  /-- What others do between two steps of the turn. -/
  meanwhile : σ → σ
  /-- Counts a failure. -/
  countFailure : σ → σ
  /-- Keeps the report of a failure that stopped the agent. -/
  keepReport : FailureReport → σ → σ
  /-- Closes the mailbox and takes the agent off the register. -/
  complete : σ → σ

namespace Program

variable {σ μ α : Type}

/-- Runs a program within the budget of a turn. -/
def run (around : Surroundings σ μ) : Program σ μ α → σ → TurnBooks → σ × TurnBooks × α
  | answer a, s, t => (s, t, a)
  | change f next, s, t =>
    let s := f s
    run around (next s) s t
  | receive next, s, t =>
    if t.budget = 0 then run around (next none) s { t with exhausted := true }
    else
      match around.dequeue s with
      | (s, some e) =>
        run around (next (some e)) s { t with budget := t.budget - 1, received := t.received + 1 }
      | (s, none) => run around (next none) s { t with drained := true }

end Program

/-- The result of a turn: the world, the books, the restarts granted so far and the end. -/
structure TurnResult (σ : Type) where
  world : σ
  books : TurnBooks
  restarts : Nat
  ending : TurnEnd

namespace Behavior

variable {σ μ : Type}

/-- Lets the agent say its last word and completes it. A failure there changes nothing. -/
def stop (b : Behavior σ μ) (around : Surroundings σ μ) (s : σ) (t : TurnBooks) (restarts : Nat) :
    TurnResult σ :=
  let (s, t, _) := b.onStop.run around s t
  ⟨around.complete s, t, restarts, .done⟩

/-- Meets a failure: the agent is started again, or stopped with a report of the failure.
An agent that was asked to end is not started again. -/
def fail (b : Behavior σ μ) (around : Surroundings σ μ) (policy : Policy) (agent : AgentId)
    (reason : String) (s : σ) (t : TurnBooks) (restarts : Nat) : TurnResult σ :=
  let s := around.countFailure s
  let report : FailureReport := ⟨agent, reason, restarts⟩
  let action := if around.isTerminating s then .stop else policy.action report
  match action with
  | .stop => ⟨around.complete (around.keepReport report s), t, restarts, .done⟩
  | .restart =>
    match b.onRestart s with
    | (s, .ok _) => ⟨s, t, restarts + 1, .yield⟩
    | (s, .error _) => ⟨around.complete (around.keepReport report s), t, restarts + 1, .done⟩

/-- Resumes the agent up to `resumes` times more. -/
def resumes (b : Behavior σ μ) (around : Surroundings σ μ) (policy : Policy) (agent : AgentId) :
    (resumes : Nat) → σ → TurnBooks → (restarts : Nat) → TurnResult σ
  | 0, s, t, restarts => ⟨s, t, restarts, .yield⟩
  | left + 1, s, t, restarts =>
    let s := around.meanwhile s
    -- asked to end, and nothing left to read
    if around.isTerminating s && around.isEmpty s then b.stop around s t restarts
    else
      let (s, t, answer) := b.resume.run around s { t with drained := false }
      let s := around.meanwhile s
      match answer with
      | .ok .yield => ⟨s, t, restarts, .yield⟩
      | .ok .done => ⟨around.complete s, t, restarts, .done⟩
      | .error reason => b.fail around policy agent reason s t restarts
      | .ok .wait =>
        -- an agent that was asked to end does not wait, even with messages left
        if around.isTerminating s then b.stop around s t restarts
        -- out of budget, not out of messages
        else if t.exhausted && !around.isEmpty s then ⟨s, t, restarts, .yield⟩
        else
          -- what arrived since the receive that found nothing woke nobody
          let s := around.meanwhile (around.register s)
          if t.drained && !around.isEmpty s then resumes b around policy agent left s t restarts
          else ⟨s, t, restarts, .wait⟩

/-- One turn of an agent. -/
def turn (b : Behavior σ μ) (around : Surroundings σ μ) (policy : Policy) (agent : AgentId)
    (quantum : Nat) (s : σ) (restarts : Nat) : TurnResult σ :=
  b.resumes around policy agent quantum s (.opened quantum) restarts

end Behavior

/-! ## The books -/

namespace Program

variable {σ μ α : Type}

/-- What is received is taken from the budget. -/
theorem received_run (around : Surroundings σ μ) (p : Program σ μ α) (s : σ) (t : TurnBooks) :
    (p.run around s t).2.1.received + (p.run around s t).2.1.budget = t.received + t.budget := by
  induction p generalizing s t with
  | answer a => rfl
  | change f next ih => exact ih _ _ _
  | receive next ih =>
      unfold run
      split
      · rw [ih]
      · next hb =>
          split
          · rw [ih]
            simp only
            omega
          · rw [ih]

end Program

namespace Behavior

variable {σ μ : Type}

theorem received_stop (b : Behavior σ μ) (around : Surroundings σ μ) (s : σ) (t : TurnBooks)
    (restarts : Nat) :
    (b.stop around s t restarts).books.received + (b.stop around s t restarts).books.budget =
      t.received + t.budget :=
  b.onStop.received_run around s t

theorem books_fail (b : Behavior σ μ) (around : Surroundings σ μ) (policy : Policy)
    (agent : AgentId) (reason : String) (s : σ) (t : TurnBooks) (restarts : Nat) :
    (b.fail around policy agent reason s t restarts).books = t := by
  unfold fail
  dsimp only
  split
  · rfl
  · split <;> rfl

theorem received_resumes (b : Behavior σ μ) (around : Surroundings σ μ) (policy : Policy)
    (agent : AgentId) (left : Nat) (s : σ) (t : TurnBooks) (restarts : Nat) :
    let r := b.resumes around policy agent left s t restarts
    r.books.received + r.books.budget = t.received + t.budget := by
  induction left generalizing s t restarts with
  | zero => rfl
  | succ left ih =>
      have hrun := fun s => b.resume.received_run around s { t with drained := false }
      simp only [resumes]
      split
      · exact received_stop ..
      · split
        · exact hrun _ -- yields
        · exact hrun _ -- is done
        · rw [books_fail] -- fails
          exact hrun _
        · split -- waits
          · rw [received_stop]
            exact hrun _
          · split
            · exact hrun _
            · split
              · exact (ih ..).trans (hrun _)
              · exact hrun _

/-- A turn hands out no more messages than its quantum. -/
theorem messages_turn_le (b : Behavior σ μ) (around : Surroundings σ μ) (policy : Policy)
    (agent : AgentId) (quantum : Nat) (s : σ) (restarts : Nat) :
    (b.turn around policy agent quantum s restarts).books.received ≤ quantum := by
  have h := b.received_resumes around policy agent quantum s (.opened quantum) restarts
  unfold turn
  simp only [TurnBooks.opened, Nat.zero_add] at h ⊢
  omega

end Behavior

end Troupe
