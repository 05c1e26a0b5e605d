import Troupe.AgentId
import Troupe.Decimal.Nearest
import Troupe.Table
import Troupe.Time.Clock

/-!
# Profiles of agents

A profile follows an agent's recent turns by moving averages: how long a turn takes,
how many messages a second it consumes, and which share of its turns used up their
quantum. The first sample sets the averages, every further one is blended in with a
fixed weight.

* `turns_record` — a profile counts its samples.
-/

namespace Troupe

/-- The averages over an agent's turns. -/
structure Profile where
  /-- Time of a turn, in nanoseconds. -/
  run : Float
  /-- Messages consumed per second. -/
  rate : Float
  /-- Share of turns that used up their quantum. -/
  cpu : Float
  turns : Nat
  last : Option Instant
deriving Repr

/-- The measurements of one turn. -/
structure TurnSample where
  elapsed : Span
  messages : Nat
  exhausted : Bool
  at' : Instant
deriving Repr

/-- A number kept between bounds; what compares with neither stays as it is. -/
def clamped (low high x : Float) : Float :=
  let x := if x < low then low else x
  if high < x then high else x

/-- A sample blended into an average with weight `alpha`. -/
def blended (alpha current sample : Float) : Float := alpha * sample + (1.0 - alpha) * current

/-- A span in nanoseconds. -/
def Span.toNanos (s : Span) : Float := Decimal.ofNat s.nanos

/-- A span in seconds. -/
def Span.toSecs (s : Span) : Float :=
  Decimal.ofNat s.secs + Decimal.ofNat s.subsecNanos / Decimal.ofNat Span.perSecond

namespace Profile

/-- The profile of an agent that has not run. -/
def fresh : Profile := ⟨0.0, 0.0, 0.0, 0, none⟩

/-- A profile made from expectations: it counts as one turn. -/
def estimated (run : Span) (cpu : Float) : Profile :=
  ⟨run.toNanos, 0.0, clamped 0.0 1.0 cpu, 1, none⟩

/-- Messages per second since the previous turn; zero without a previous turn or when
no time has passed. -/
def rateOf (p : Profile) (s : TurnSample) : Float :=
  match p.last with
  | none => 0.0
  | some previous =>
    let secs := (s.at'.since previous).toSecs
    if 0.0 < secs then Decimal.ofNat s.messages / secs else 0.0

/-- The profile after one more turn. -/
def record (p : Profile) (alpha : Float) (s : TurnSample) : Profile :=
  let run := s.elapsed.toNanos
  let cpu := if s.exhausted then 1.0 else 0.0
  let rate := p.rateOf s
  if p.turns = 0 then ⟨run, rate, cpu, 1, some s.at'⟩
  else
    ⟨blended alpha p.run run, blended alpha p.rate rate, blended alpha p.cpu cpu, p.turns + 1,
      some s.at'⟩

theorem turns_record (p : Profile) (alpha : Float) (s : TurnSample) :
    (p.record alpha s).turns = p.turns + 1 := by
  unfold record
  by_cases h : p.turns = 0 <;> simp [h]

end Profile

/-- The profiles of all agents that have run, and the weight of a sample. -/
structure ProfileStore where
  alpha : Float
  profiles : Table AgentId Profile := Table.empty
deriving Repr

namespace ProfileStore

/-- The smallest weight: the distance from one to the next double. -/
def leastAlpha : Float := Float.ofBits 0x3cb0000000000000

/-- An empty store; the weight is kept above zero and up to one. -/
def ofAlpha (alpha : Float) : ProfileStore := { alpha := clamped leastAlpha 1.0 alpha }

/-- Blends a sample into an agent's profile, and answers the profile. -/
def record (t : ProfileStore) (agent : AgentId) (s : TurnSample) : ProfileStore × Profile :=
  let profile := (t.profiles.getD agent Profile.fresh).record t.alpha s
  ({ t with profiles := t.profiles.insert agent profile }, profile)

def get? (t : ProfileStore) (agent : AgentId) : Option Profile := t.profiles.get? agent

/-- Forgets an agent. -/
def erase (t : ProfileStore) (agent : AgentId) : ProfileStore :=
  { t with profiles := t.profiles.erase agent }

end ProfileStore

end Troupe
