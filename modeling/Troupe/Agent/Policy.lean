import Troupe.AgentId
import Troupe.Text.Shown

/-!
# Failures and policies

When an agent fails, a policy decides between stopping it and starting it again, on
the strength of a report of the failure.

* `grants_iff` — a limited policy restarts while restarts are left.
-/

namespace Troupe

/-- A failure of an agent's behaviour. -/
structure FailureReport where
  agent : AgentId
  reason : String
  /-- Restarts granted before this failure. -/
  restarts : Nat
deriving DecidableEq, Repr

/-- The failure in words. -/
def FailureReport.text (r : FailureReport) : String :=
  r.agent.text ++ " failed after " ++ toString r.restarts ++ " restarts: " ++ r.reason

/-- What happens to an agent that failed. -/
inductive FailureAction where
  | stop
  | restart
deriving DecidableEq, Repr

/-- How failures are met. -/
inductive Policy where
  /-- Every failure stops the agent. -/
  | stopOnFailure
  /-- So many restarts are granted, then the agent is stopped. -/
  | limited (restarts : Nat)
deriving DecidableEq, Repr

namespace Policy

/-- The decision on a failure. -/
def action : Policy → FailureReport → FailureAction
  | stopOnFailure, _ => .stop
  | limited most, report => if report.restarts < most then .restart else .stop

/-- The policy in words. -/
def text : Policy → String
  | stopOnFailure => "StopOnFailure"
  | limited most => Text.record "RestartPolicy" [("max_restarts", toString most)]

theorem grants_iff (most : Nat) (report : FailureReport) :
    (limited most).action report = .restart ↔ report.restarts < most := by
  unfold action
  split <;> simp_all

end Policy

end Troupe
