import Troupe.Strategy.Profile

/-!
# Loads and forecasts

What a strategy knows of a worker, and how it turns that into numbers. A forecaster
prices the work queued on a worker and one turn of an agent, in a number type of its
own; the one in use extrapolates the averages as they are.

* `backlog_predicted` — a measured cost of the worker's agents comes first.
-/

namespace Troupe

/-- What a worker is doing. -/
inductive WorkerPhase where
  | idle
  | running
  | stealing
deriving DecidableEq, Repr

def WorkerPhase.text : WorkerPhase → String
  | .idle => "idle"
  | .running => "running"
  | .stealing => "stealing"

/-- The load of one worker at one moment. -/
structure Load where
  index : Nat
  /-- Tasks in the worker's own queue. -/
  queued : Nat
  /-- Average time of a turn on this worker, in nanoseconds; zero until measured. -/
  mean : Float
  /-- Average price of the agents that ran on this worker; zero until measured. -/
  predicted : Float
  phase : WorkerPhase
deriving Repr

/-- Prices in numbers of type `R`. -/
structure Forecaster (R : Type) where
  /-- The work queued on a worker. -/
  backlog : Load → R
  /-- One turn of an agent, of which a profile may be known. -/
  turnCost : Option Profile → R

/-- The price of a turn nothing is known about, in nanoseconds. -/
def standardTurn : Float := 10000.0

/-- Prices by the averages as they are, and unknown turns at `unknown`. -/
def Forecaster.averages (unknown : Float) : Forecaster Float where
  backlog := fun load =>
    let perTurn :=
      if 0.0 < load.predicted then load.predicted
      else if 0.0 < load.mean then load.mean
      else unknown
    Decimal.ofNat load.queued * perTurn
  turnCost := fun profile =>
    match profile with
    | some p => if 0 < p.turns then p.run * (1.0 + p.cpu) else unknown
    | none => unknown

theorem backlog_predicted (unknown : Float) (load : Load) (h : 0.0 < load.predicted) :
    (Forecaster.averages unknown).backlog load = Decimal.ofNat load.queued * load.predicted := by
  simp [Forecaster.averages, h]

end Troupe
