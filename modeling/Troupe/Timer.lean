import Troupe.Outcome
import Troupe.Time.Clock

/-!
# Timers

A timer holds deadlines, each with a waker to fire when it has passed. Whoever
registers a deadline that is over already is woken at once, and so is everyone who
registers after the timer was shut down; a shut-down timer fires all it holds.

* `pass_keeps` — a pass removes exactly what it fires.
-/

namespace Troupe

/-- A waker to fire at a deadline; `seq` numbers the registrations. -/
structure Alarm (ω : Type) where
  deadline : Instant
  seq : Nat
  waker : ω
deriving DecidableEq, Repr

/-- Whether `a` fires no later than `b`: by deadline, then by registration. -/
def Alarm.before {ω : Type} (a b : Alarm ω) : Bool :=
  decide (a.deadline < b.deadline) || (a.deadline == b.deadline && decide (a.seq ≤ b.seq))

/-- Deadlines and their wakers, in order of registration. -/
structure Timer (ω : Type) where
  alarms : List (Alarm ω) := []
  seq : Nat := 0
  isShut : Bool := false
deriving Repr, Inhabited

namespace Timer

variable {ω : Type}

/-- The alarm that fires first. -/
def head? (t : Timer ω) : Option (Alarm ω) :=
  t.alarms.foldl (fun best a =>
    match best with
    | none => some a
    | some b => some (if b.before a then b else a)) none

/-- Has `w` woken at `deadline`; `now` is the reading taken before. The answer says
whether the timer has to be told of a new earliest deadline. -/
def register (t : Timer ω) (now deadline : Instant) (w : ω) : Outcome ω (Timer ω) Bool :=
  if deadline ≤ now then ⟨t, [.wake w], false⟩
  -- nobody would fire it later
  else if t.isShut then ⟨t, [.wake w], false⟩
  else
    let earliest := match t.head? with
      | none => true
      | some first => decide (deadline < first.deadline)
    ⟨{ t with seq := t.seq + 1, alarms := t.alarms ++ [⟨deadline, t.seq + 1, w⟩] }, [], earliest⟩

/-- Whether an alarm fires in a pass at `now`. -/
def isDue (t : Timer ω) (now : Instant) (a : Alarm ω) : Bool :=
  t.isShut || decide (a.deadline ≤ now)

/-- Fires what is due at `now`, by deadline and then by registration. -/
def pass (t : Timer ω) (now : Instant) : Outcome ω (Timer ω) Unit :=
  let due := (t.alarms.filter (t.isDue now)).mergeSort Alarm.before
  ⟨{ t with alarms := t.alarms.filter fun a => !t.isDue now a },
    due.map fun a => .wake a.waker, ()⟩

/-- Tells the timer to hold nothing back any more. -/
def shut (t : Timer ω) : Timer ω := { t with isShut := true }

theorem pass_keeps (t : Timer ω) (now : Instant) (a : Alarm ω) :
    a ∈ (t.pass now).state.alarms ↔ a ∈ t.alarms ∧ t.isDue now a = false := by
  simp [pass]

end Timer

end Troupe
