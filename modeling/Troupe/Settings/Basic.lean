import Troupe.Lease.Basic
import Troupe.Strategy.Basic
import Troupe.Watermarks

/-!
# Settings

Everything about a node that can be set, with the values used where nothing is set,
and what makes a setting unacceptable.

* `standard_valid` — the values used where nothing is set are accepted.
-/

namespace Troupe

/-- The workers and their queues. -/
structure SchedulerSettings where
  /-- How many workers; zero leaves the number to the machine. -/
  workers : Nat := 0
  localCapacity : Nat := 256
  /-- Rounds of stealing that may fail before a worker parks. -/
  stealAttempts : Nat := 4
  /-- Resumes of an agent in one turn. -/
  quantum : Nat := 32
  parkMillis : Nat := 10
  drainMillis : Nat := 5000
deriving Repr

/-- The strategies that settings can name. -/
inductive StrategyKind where
  | plain
  | predictive
deriving DecidableEq, Repr

def StrategyKind.name : StrategyKind → String
  | .plain => "default"
  | .predictive => "predictive"

/-- The strategy and its numbers. -/
structure StrategySettings where
  kind : StrategyKind := .plain
  alpha : Float := 0.2
  imbalance : Float := 1.5
deriving Repr

/-- The terms of leases. -/
structure LeaseSettings where
  ttlMillis : Nat := 30000
  retryMillis : Nat := 5
deriving Repr

/-- The settings of a node. -/
structure Settings where
  scheduler : SchedulerSettings := {}
  mailbox : Watermarks := Watermarks.standard
  strategy : StrategySettings := {}
  lease : LeaseSettings := {}
deriving Repr

namespace SchedulerSettings

def park (s : SchedulerSettings) : Span := Span.ofMillis s.parkMillis

def drain (s : SchedulerSettings) : Span := Span.ofMillis s.drainMillis

/-- How many workers may search for work at the same time, out of so many. -/
def searchers (workers : Nat) : Nat := max (workers / 2) 1

/-- What is wrong with the settings, if anything. -/
def check (s : SchedulerSettings) : Option BadSetting :=
  if s.localCapacity = 0 then some .zeroLocalQueue
  else if s.quantum = 0 then some .zeroQuantum
  else none

end SchedulerSettings

namespace StrategySettings

/-- What is wrong with the settings, if anything. -/
def check (s : StrategySettings) : Option BadSetting :=
  if !(decide (0.0 < s.alpha) && decide (s.alpha ≤ 1.0)) then some (.smoothing s.alpha.toBits)
  else if s.imbalance < 1.0 then some (.imbalance s.imbalance.toBits)
  else none

/-- The strategy that is set. -/
def strategy (s : StrategySettings) : Strategy :=
  match s.kind with
  | .plain => .plain
  | .predictive => .predictive (.averages standardTurn) s.imbalance

end StrategySettings

namespace LeaseSettings

def ttl (s : LeaseSettings) : Span := Span.ofMillis s.ttlMillis

/-- The pause between attempts, at least a millisecond. -/
def retry (s : LeaseSettings) : Span := Span.ofMillis (max s.retryMillis 1)

/-- The terms under which leases are granted. -/
def terms (s : LeaseSettings) : LeaseTerms := ⟨s.ttl, s.retry⟩

end LeaseSettings

/-- Accepts settings with which nothing is wrong. -/
def accepted : Option BadSetting → Except Fault Unit
  | none => .ok ()
  | some why => .error (.badSetting why)

namespace Settings

/-- The settings used where nothing is set. -/
def standard : Settings := {}

/-- Accepts settings: the workers are looked at first, then mailboxes, then the
strategy. -/
def validate (s : Settings) : Except Fault Unit := do
  accepted s.scheduler.check
  s.mailbox.validate
  accepted s.strategy.check

end Settings

theorem SchedulerSettings.standard_valid : SchedulerSettings.check {} = none := rfl

end Troupe
