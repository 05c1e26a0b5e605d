import Troupe.Fault
import Troupe.Timer

/-!
# Promises

A promise is a slot that is resolved once and emptied once. Any number of resolvers
may try; one awaiting side polls. Waiting with a limit keeps the deadline that its
first poll fixed and asks the timer once.

* `resolve_pending`, `resolve_settled` — the first resolution is the only one;
* `pollTake_taken` — a value already handed out is an error from then on.
-/

namespace Troupe

/-- What a slot holds over its life. -/
inductive Slot (α : Type) where
  | pending
  | ready (value : α)
  | taken
deriving DecidableEq, Repr

/-- A slot, who is woken by its resolution, and the limit of a timed wait. -/
structure Promise (ω α : Type) where
  slot : Slot α := .pending
  waker : Option ω := none
  deadline : Option Instant := none
  armed : Bool := false
deriving Repr

namespace Promise

variable {ω α : Type}

instance : Inhabited (Promise ω α) := ⟨{}⟩

/-- Resolves a pending slot and wakes its waker; answers whether it did. -/
def resolve (p : Promise ω α) (value : α) : Outcome ω (Promise ω α) Bool :=
  match p.slot with
  | .pending => ⟨{ p with slot := .ready value, waker := none }, Effect.wakes p.waker, true⟩
  | _ => ⟨p, [], false⟩

/-- Whether a resolution has happened, as resolvers see it. -/
def isResolved (p : Promise ω α) : Bool :=
  match p.slot with
  | .pending => false
  | _ => true

/-- Whether a value is there to be taken, as the awaiting side sees it. -/
def isReady (p : Promise ω α) : Bool :=
  match p.slot with
  | .ready _ => true
  | _ => false

/-- Takes the value, if it is there. -/
def tryTake (p : Promise ω α) : Promise ω α × Option α :=
  match p.slot with
  | .ready value => ({ p with slot := .taken }, some value)
  | _ => (p, none)

/-- Takes the value, or answers that it is gone, or has `w` woken by its arrival. -/
def pollTake (p : Promise ω α) (w : ω) : Promise ω α × Poll (Except Fault α) :=
  match p.slot with
  | .ready value => ({ p with slot := .taken }, .ready (.ok value))
  | .taken => (p, .ready (.error .consumed))
  | .pending => ({ p with waker := some w }, .pending)

/-- Polls with a limit of `allowed` after the first such poll. The readings are those
taken to fix the deadline, to compare with it, and to register with the timer. -/
def pollTimeout (p : Promise ω α) (w : ω) (allowed : Span) (started compared registered : Instant)
    (timer : Timer ω) : Outcome ω (Promise ω α × Timer ω) (Poll (Except Fault α)) :=
  -- the first such poll fixes the deadline for all that follow
  let deadline := p.deadline.getD (deadlineAfter started allowed)
  let (polled, answer) := { p with deadline := some deadline }.pollTake w
  match answer with
  | .ready result => ⟨(polled, timer), [], .ready result⟩
  | .pending =>
    -- a value that is there counts even after the deadline
    if deadline ≤ compared then ⟨(polled, timer), [], .ready (.error (.awaitTimeout allowed))⟩
    else if polled.armed then ⟨(polled, timer), [], .pending⟩
    else
      let o := timer.register registered deadline w
      ⟨({ polled with armed := true }, o.state), o.effects, .pending⟩

/-- The answer of a wait of `allowed` during which nobody else acts: the promise is
looked at once. `w` stays to be woken. -/
def waitAlone (p : Promise ω α) (w : ω) (allowed : Span) : Promise ω α × Except Fault α :=
  let (polled, answer) := p.pollTake w
  (polled, match answer with
    | .ready result => result
    | .pending => .error (.awaitTimeout allowed))

theorem resolve_pending (p : Promise ω α) (value : α) (h : p.slot = .pending) :
    (p.resolve value).answer = true ∧ (p.resolve value).state.slot = .ready value := by
  simp [resolve, h]

theorem resolve_settled (p : Promise ω α) (value : α) (h : p.isResolved = true) :
    p.resolve value = ⟨p, [], false⟩ := by
  cases hs : p.slot <;> simp_all [resolve, isResolved]

theorem pollTake_taken (p : Promise ω α) (w : ω) (h : p.slot = .taken) :
    p.pollTake w = (p, .ready (.error .consumed)) := by
  simp [pollTake, h]

end Promise

end Troupe
