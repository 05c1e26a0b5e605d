import Troupe.Strategy.Load

/-!
# Strategies

A strategy answers two questions: from whom an idle worker steals, best first, and
where a new agent is queued. The plain strategy picks victims at random and leaves
new agents where they were spawned. The predictive one robs the worker with most work
first, and moves a new agent away from its spawner when that worker is predicted to be
overloaded.

The arithmetic is over any ordered number type; random choices enter as a shuffle.

* `plainVictims_ne` — nobody robs himself;
* `destination_nil` — without workers an agent goes to the shared queue.
-/

namespace Troupe

/-- Where a new agent is queued. -/
inductive Destination where
  | worker (index : Nat)
  | shared
deriving DecidableEq, Repr

/-- Everyone but the thief, in the order a shuffle gives. -/
def plainVictims (shuffle : List Nat → List Nat) (thief : Nat) (loads : List Load) : List Nat :=
  shuffle ((List.range loads.length).filter (· ≠ thief))

/-- The worker on which the agent is spawned, if it is spawned on one. -/
def plainDestination (spawner : Option Nat) : Destination :=
  match spawner with
  | some index => .worker index
  | none => .shared

namespace Forecaster

variable {R : Type} [LT R] [DecidableLT R]

/-- The workers with their backlogs. -/
def priced (f : Forecaster R) (loads : List Load) : List (Nat × R) :=
  loads.map fun load => (load.index, f.backlog load)

/-- Everyone but the thief, by falling backlog; a shuffle orders equal backlogs. -/
def victims (f : Forecaster R) (shuffle : List (Nat × R) → List (Nat × R)) (thief : Nat)
    (loads : List Load) : List Nat :=
  -- sorting is stable, so the shuffle decides between equals and nothing else
  let ranked := shuffle ((f.priced loads).filter fun w => w.1 ≠ thief)
  (ranked.mergeSort fun a b => !decide (a.2 < b.2)).map (·.1)

/-- The lighter of two workers, the first when neither is lighter. -/
def lighter (a b : Nat × R) : Nat × R := if b.2 < a.2 then b else a

/-- The first worker with the least backlog. -/
def lightest? (f : Forecaster R) (loads : List Load) : Option (Nat × R) :=
  match f.priced loads with
  | [] => none
  | first :: rest => some (rest.foldl lighter first)

/-- A ratio of at least one. -/
def ratioOf [OfNat R 1] (ratio : R) : R := if 1 < ratio then ratio else 1

variable [Add R] [Mul R] [OfNat R 0] [OfNat R 1]

/-- Leaves an agent with its spawner unless the spawner's backlog, with the agent's
cost, would exceed `ratio` times that of the lightest worker. -/
def destination (f : Forecaster R) (ratio : R) (spawner : Option Nat) (loads : List Load)
    (profile : Option Profile) : Destination :=
  match f.lightest? loads with
  | none => .shared
  | some (light, least) =>
    match spawner with
    | none => .worker light
    | some index =>
      -- a spawner that is no worker has nothing queued
      let own := match loads[index]? with
        | some load => f.backlog load
        | none => 0
      let cost := f.turnCost profile
      if ratioOf ratio * (least + cost) < own + cost then .worker light else .worker index

end Forecaster

/-- The strategies that settings can name. -/
inductive Strategy where
  | plain
  | predictive (forecaster : Forecaster Float) (ratio : Float)

namespace Strategy

/-- The name of a strategy. -/
def name : Strategy → String
  | plain => "default"
  | predictive _ _ => "predictive"

/-- From whom `thief` steals, best first, when no two choices are shuffled. -/
def victims (s : Strategy) (thief : Nat) (loads : List Load) : List Nat :=
  match s with
  | plain => plainVictims id thief loads
  | predictive f _ => f.victims id thief loads

/-- Where an agent spawned by `spawner` is queued. -/
def destination (s : Strategy) (spawner : Option Nat) (loads : List Load)
    (profile : Option Profile) : Destination :=
  match s with
  | plain => plainDestination spawner
  | predictive f ratio => f.destination ratio spawner loads profile

/-- The price of a turn that is folded into the load of the worker that ran it. -/
def turnCost (s : Strategy) (profile : Profile) : Float :=
  match s with
  | plain => profile.run
  | predictive f _ => f.turnCost (some profile)

end Strategy

theorem plainVictims_ne (thief : Nat) (loads : List Load) :
    thief ∉ plainVictims id thief loads := by
  simp [plainVictims]

theorem destination_nil {R : Type} [LT R] [DecidableLT R] [Add R] [Mul R] [OfNat R 0] [OfNat R 1]
    (f : Forecaster R) (ratio : R) (spawner : Option Nat) (profile : Option Profile) :
    f.destination ratio spawner [] profile = .shared := rfl

end Troupe
