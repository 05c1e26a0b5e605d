/-!
# Capabilities

A capability says which rights travel with a value. Only one of the four forbids
travelling, and only one takes the value away from its sender.
-/

namespace Troupe

/-- The rights that go with a value. -/
inductive Capability where
  /-- Held once: the sender loses it by sending it. -/
  | isolated
  /-- Read by any number of holders, written by none. -/
  | immutableShared
  /-- Owned by one agent and never sent. -/
  | mutableLocal
  /-- Addresses an agent and grants no access to data. -/
  | identityOnly
deriving DecidableEq, Repr, Inhabited

namespace Capability

/-- Whether a value with this capability may stand in a message. -/
def isTransferable : Capability → Bool
  | .mutableLocal => false
  | _ => true

/-- Whether sending the value takes it from the sender. -/
def invalidatesSender : Capability → Bool
  | .isolated => true
  | _ => false

/-- The capability in words. -/
def text : Capability → String
  | .isolated => "isolated"
  | .immutableShared => "immutable-shared"
  | .mutableLocal => "mutable-local"
  | .identityOnly => "identity-only"

/-- All capabilities, in order of declaration. -/
def all : List Capability := [.isolated, .immutableShared, .mutableLocal, .identityOnly]

theorem isTransferable_eq_false_iff {c : Capability} :
    c.isTransferable = false ↔ c = .mutableLocal := by
  cases c <;> simp [isTransferable]

end Capability

/-- Values that know their capability. -/
class Transferable (μ : Type) where
  /-- The capability that a message carrying the value would have. -/
  capability : μ → Capability

end Troupe
