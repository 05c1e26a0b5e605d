import Troupe.Time.Span

/-!
# Instants, deadlines and clocks

An `Instant` is a point on a monotonic time line that ends: adding a span may
leave it. Every deadline goes through `deadlineAfter`, which falls back to a far
horizon, so that no span of waiting is refused.

Clocks are read by `Clock.read`, which answers the reading and the clock after it.
A hand-driven clock stands still unless it is told to move, or unless it carries a
step that it takes after each reading; a running clock moves while its reader sleeps.
-/

namespace Troupe

/-- A point in time, in nanoseconds since the time line began. -/
structure Instant where
  nanos : Nat
deriving DecidableEq, Repr, Inhabited

namespace Instant

/-- The last point of the time line. -/
def last : Instant := ⟨Word.half * Span.perSecond - 1⟩

instance : LE Instant := ⟨fun a b => a.nanos ≤ b.nanos⟩
instance : LT Instant := ⟨fun a b => a.nanos < b.nanos⟩
instance (a b : Instant) : Decidable (a ≤ b) := inferInstanceAs (Decidable (a.nanos ≤ b.nanos))
instance (a b : Instant) : Decidable (a < b) := inferInstanceAs (Decidable (a.nanos < b.nanos))

/-- The instant `t` later, unless the time line has ended by then. -/
def add? (now : Instant) (t : Span) : Option Instant :=
  if now.nanos + t.nanos ≤ last.nanos then some ⟨now.nanos + t.nanos⟩ else none

/-- The time from `earlier` to `later`, zero when they stand the other way round. -/
def since (later earlier : Instant) : Span := ⟨later.nanos - earlier.nanos⟩

end Instant

/-- The horizon that stands in for a span too long to be added: thirty years. -/
def farFuture : Span := Span.ofParts (60 * 60 * 24 * 365 * 30) 0

/-- `t` after `now`; the far horizon when that instant does not exist; `now` itself
when even the horizon does not. -/
def deadlineAfter (now : Instant) (t : Span) : Instant :=
  match now.add? t with
  | some at' => at'
  -- near its end the time line has no far horizon either
  | none => (now.add? farFuture).getD now

/-- A clock moved by hand: it shows its base, `offset` later. -/
structure ManualClock where
  base : Instant
  offset : Span := Span.zero
deriving DecidableEq, Repr

namespace ManualClock

/-- What the clock shows. -/
def now (c : ManualClock) : Instant := deadlineAfter c.base c.offset

/-- Moves the clock forward. -/
def advance (c : ManualClock) (by' : Span) : ManualClock :=
  { c with offset := c.offset.saturatingAdd by' }

end ManualClock

/-- The time sources a reader may be given. -/
inductive Clock where
  /-- A hand-driven clock that takes a step after each reading. -/
  | manual (hands : ManualClock) (step : Span)
  /-- A clock that runs by itself; time passes for its reader by sleeping. -/
  | running (now : Instant)
deriving Repr

namespace Clock

/-- What the clock would show next. -/
def now : Clock → Instant
  | .manual hands _ => hands.now
  | .running now => now

/-- A reading, and the clock after it. -/
def read : Clock → Instant × Clock
  | .manual hands step => (hands.now, .manual (hands.advance step) step)
  | .running now => (now, .running now)

/-- The clock after its reader has slept: sleeping moves no hand. -/
def sleep (t : Span) : Clock → Clock
  | .manual hands step => .manual hands step
  | .running now => .running (deadlineAfter now t)

/-- Moves the hands of a hand-driven clock. -/
def advance (t : Span) : Clock → Clock
  | .manual hands step => .manual (hands.advance t) step
  | .running now => .running now

end Clock

end Troupe
