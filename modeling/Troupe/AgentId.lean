/-!
# Identities of agents

An `AgentId` names an agent and grants nothing. Identities are minted in
ascending order and never used twice.
-/

namespace Troupe

/-- A number that names one agent for as long as the process lives. -/
structure AgentId where
  raw : Nat
deriving DecidableEq, Repr, Inhabited

namespace AgentId

/-- The name under which an agent appears in messages for people. -/
def text (id : AgentId) : String := "agent-" ++ toString id.raw

/-- The identity minted after `id`. -/
def next (id : AgentId) : AgentId := ⟨id.raw + 1⟩

instance : LT AgentId := ⟨fun a b => a.raw < b.raw⟩
instance (a b : AgentId) : Decidable (a < b) := inferInstanceAs (Decidable (a.raw < b.raw))

theorem lt_next (id : AgentId) : id < id.next := Nat.lt_succ_self id.raw

end AgentId

end Troupe
