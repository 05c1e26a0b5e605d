import Troupe.Fault

/-!
# Envelopes

A message is sealed into an envelope before any mailbox sees it. Sealing reads the
capability of the message once, and refuses a message that must stay where it is.

* `trySeal_eq_ok_iff` — what is sealed, and how the envelope looks;
* `isTransferable_of_trySeal` — no envelope carries a message bound to its agent.
-/

namespace Troupe

/-- A message on its way: what it is, what rights go with it, who sent it, and the
number its mailbox gave it (zero until then). -/
structure Envelope (μ : Type) where
  payload : μ
  capability : Capability
  sender : Option AgentId
  seq : Nat
deriving DecidableEq, Repr

namespace Envelope

variable {μ : Type}

/-- Seals a message, or hands it back. -/
def trySeal [Transferable μ] (message : μ) (sender : Option AgentId) : Except μ (Envelope μ) :=
  let capability := Transferable.capability message
  if capability.isTransferable then .ok ⟨message, capability, sender, 0⟩ else .error message

/-- Seals a message, or says why not. -/
def ofMessage [Transferable μ] (message : μ) (sender : Option AgentId) : Except Fault (Envelope μ) :=
  match trySeal message sender with
  | .ok envelope => .ok envelope
  | .error m => .error (.violation (.cannotLeave (Transferable.capability m)))

/-- The same envelope under a number. -/
def stamp (e : Envelope μ) (seq : Nat) : Envelope μ := { e with seq := seq }

variable [Transferable μ]

theorem trySeal_eq_ok_iff (message : μ) (sender : Option AgentId) (e : Envelope μ) :
    trySeal message sender = .ok e ↔
      (Transferable.capability message).isTransferable = true ∧
        e = ⟨message, Transferable.capability message, sender, 0⟩ := by
  unfold trySeal
  by_cases h : (Transferable.capability message).isTransferable = true
  · simp [h, eq_comm]
  · simp [h]

theorem isTransferable_of_trySeal {message : μ} {sender : Option AgentId} {e : Envelope μ}
    (h : trySeal message sender = .ok e) : e.capability.isTransferable = true := by
  obtain ⟨ht, rfl⟩ := (trySeal_eq_ok_iff message sender e).mp h
  exact ht

end Envelope

end Troupe
