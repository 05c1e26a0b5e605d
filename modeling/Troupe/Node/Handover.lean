import Troupe.Node.Basic
import Troupe.Ownership

/-!
# Handing a value over

The value of a cell is moved into the mailbox of an agent. It leaves the cell before anybody knows
whether the mailbox has room for it; a mailbox that refuses it hands it back, and what comes back
goes into the cell again.

* `handOver_consumed` — an emptied cell has nothing to hand over, and the node is left alone.
-/

namespace Troupe

/-- A value that travels alone: whoever sends it loses it. -/
structure Isolated (α : Type) where
  value : α
deriving DecidableEq, Repr

instance {α : Type} : Transferable (Isolated α) := ⟨fun _ => .isolated⟩

/-- How values are carried in messages of some kind, each alone in its message. -/
structure Carriage (α μ : Type) [Transferable μ] where
  load : α → μ
  /-- The value that a message carries, if it carries one. -/
  unload? : μ → Option α
  unload?_load : ∀ a, unload? (load a) = some a
  capability_load : ∀ a, Transferable.capability (load a) = .isolated

namespace Carriage

variable {α μ : Type} [Transferable μ]

/-- Messages that are nothing but the value. -/
def alone : Carriage α (Isolated α) where
  load := .mk
  unload? message := some message.value
  unload?_load _ := rfl
  capability_load _ := rfl

/-- Puts what a message carries into a cell. -/
def putBack (way : Carriage α μ) (message : μ) (c : Cell α) : Cell α :=
  match way.unload? message with
  | some a => c.restore a
  | none => c

end Carriage

namespace Node

variable {α μ ε : Type} [Transferable μ]

/-- Moves the value of a cell into the mailbox of an agent, or puts it back and says why. -/
def handOver (n : Node μ ε) (way : Carriage α μ) (c : Cell α) (target : AgentId) :
    Node μ ε × Cell α × Except Fault Status :=
  match c.take with
  | .error why => (n, c, .error why)
  | .ok (value, empty) =>
    let (n, answer) := n.send target (way.load value) none
    match answer with
    | .ok status => (n, empty, .ok status)
    | .error refusal => (n, way.putBack refusal.message empty, .error refusal.fault)

theorem handOver_consumed (n : Node μ ε) (way : Carriage α μ) (target : AgentId) :
    n.handOver way ⟨none⟩ target = (n, ⟨none⟩, .error .consumed) := rfl

end Node

end Troupe
