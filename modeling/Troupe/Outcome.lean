/-!
# Outcomes of operations

An operation on a shared object answers its caller, leaves the object in a new state
and may have effects on others: a waker fires, or a watermark is crossed. Effects
are data; whoever calls the operation carries them out, in the order given.
-/

namespace Troupe

/-- A watermark crossed, with the length that crossed it. -/
inductive PressureEvent where
  /-- The length rose to the high watermark. -/
  | engaged (length : Nat)
  /-- The length fell to the low watermark while backpressure was engaged. -/
  | cleared (length : Nat)
deriving DecidableEq, Repr

/-- What an operation does to others; `ω` names those who can be woken. -/
inductive Effect (ω : Type) where
  | pressure (event : PressureEvent)
  | wake (waker : ω)
deriving DecidableEq, Repr

/-- The state after an operation, its effects in order, and its answer. -/
structure Outcome (ω σ α : Type) where
  state : σ
  effects : List (Effect ω)
  answer : α
deriving Repr

/-- What a poll answers: a value, or that the caller will be woken. -/
inductive Poll (α : Type) where
  | ready (value : α)
  | pending
deriving DecidableEq, Repr

namespace Effect

variable {ω : Type}

/-- The wake of a waker that may be missing. -/
def wakes : Option ω → List (Effect ω)
  | some w => [.wake w]
  | none => []

/-- The report of an event that may not have happened. -/
def pressures : Option PressureEvent → List (Effect ω)
  | some e => [.pressure e]
  | none => []

end Effect

end Troupe
