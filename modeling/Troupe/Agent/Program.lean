import Troupe.Envelope

/-!
# Programs of agents

What an agent does when it is resumed is a program: it changes the world it lives in,
looks at it, receives messages, and comes to an answer. Programs are finite trees, so
every resume comes to its end; how many messages a turn may receive is not the
program's business but its runner's.

* `bind_assoc` — sequencing is associative.
-/

namespace Troupe

/-- What an agent wants after it was resumed. -/
inductive Step where
  /-- There is more to do; others may go first. -/
  | yield
  /-- There is nothing to do until someone wakes the agent. -/
  | wait
  /-- The agent is finished. -/
  | done
deriving DecidableEq, Repr

/-- A program over a world `σ` that receives messages `μ` and answers with an `α`. -/
inductive Program (σ μ α : Type) where
  | answer (a : α)
  /-- Changes the world and goes on with what it then sees. -/
  | change (f : σ → σ) (next : σ → Program σ μ α)
  /-- Receives a message, if one is there and may be received. -/
  | receive (next : Option (Envelope μ) → Program σ μ α)

namespace Program

variable {σ μ α β γ : Type}

/-- Runs one program after another. -/
def bind : Program σ μ α → (α → Program σ μ β) → Program σ μ β
  | answer a, k => k a
  | change f next, k => change f fun s => bind (next s) k
  | receive next, k => receive fun e => bind (next e) k

/-- Looks at the world. -/
def look (next : σ → Program σ μ α) : Program σ μ α := change id next

/-- Changes the world. -/
def alter (f : σ → σ) (next : Program σ μ α) : Program σ μ α := change f fun _ => next

/-- Changes the world and goes on with the answer that the change gives. Nobody acts
between the look at the world and the change. -/
def ask (f : σ → σ × β) (next : β → Program σ μ α) : Program σ μ α :=
  look fun s => alter (fun _ => (f s).1) (next (f s).2)

theorem bind_assoc (p : Program σ μ α) (f : α → Program σ μ β) (g : β → Program σ μ γ) :
    (p.bind f).bind g = p.bind fun a => (f a).bind g := by
  induction p with
  | answer a => rfl
  | change h next ih => simp only [bind, ih]
  | receive next ih => simp only [bind, ih]

end Program

/-- An agent's own part of its life. A failure is a reason in words. -/
structure Behavior (σ μ : Type) where
  /-- Goes on with the agent's work. -/
  resume : Program σ μ (Except String Step)
  /-- The last word after a request to end. -/
  onStop : Program σ μ (Except String Unit)
  /-- Prepares the agent for being resumed after a failure. -/
  onRestart : σ → σ × Except String Unit

end Troupe
