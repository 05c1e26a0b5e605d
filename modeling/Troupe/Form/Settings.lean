import Troupe.Agent.Policy
import Troupe.Form.Fault
import Troupe.Metrics
import Troupe.Settings.Basic

/-!
# Settings, profiles and counters as documents

Settings in one flat table, read over those that hold where nothing is set; profiles
and loads of workers with their doubles as bit patterns; the counters of a node.

* `strategyKind_name` — the kinds of strategy read back.
-/

namespace Troupe.Form

open Document (table text truth)

/-- A kind of strategy; what is not known is the plain one. -/
def strategyKind (name : String) : StrategyKind :=
  if name = StrategyKind.predictive.name then .predictive else .plain

/-- Settings with the given fields in place of those that hold where nothing is set. -/
def settingsOf (d : Document) : Settings :=
  let s := Settings.standard
  { scheduler :=
      { workers := natD d "workers" s.scheduler.workers
        localCapacity := natD d "local_queue_capacity" s.scheduler.localCapacity
        stealAttempts := natD d "steal_attempts" s.scheduler.stealAttempts
        quantum := natD d "quantum" s.scheduler.quantum
        parkMillis := natD d "park_timeout_ms" s.scheduler.parkMillis
        drainMillis := natD d "drain_timeout_ms" s.scheduler.drainMillis }
    mailbox :=
      ⟨natD d "capacity" s.mailbox.capacity, natD d "high_watermark" s.mailbox.high,
        natD d "low_watermark" s.mailbox.low⟩
    strategy :=
      { kind := strategyKind (string d "kind")
        alpha := realD d "ewma_alpha" s.strategy.alpha
        imbalance := realD d "imbalance_ratio" s.strategy.imbalance }
    lease :=
      { ttlMillis := natD d "default_ttl_ms" s.lease.ttlMillis
        retryMillis := natD d "retry_interval_ms" s.lease.retryMillis } }

/-- All settings with the spans they stand for; the number of workers only where it does
not depend on the machine. -/
def ofSettings (s : Settings) : Document :=
  table ([("workers", nat s.scheduler.workers),
    ("local_queue_capacity", nat s.scheduler.localCapacity),
    ("steal_attempts", nat s.scheduler.stealAttempts), ("quantum", nat s.scheduler.quantum),
    ("park_timeout_ms", nat s.scheduler.parkMillis),
    ("drain_timeout_ms", nat s.scheduler.drainMillis), ("capacity", nat s.mailbox.capacity),
    ("high_watermark", nat s.mailbox.high), ("low_watermark", nat s.mailbox.low),
    ("kind", text s.strategy.kind.name), ("ewma_alpha", ofReal s.strategy.alpha),
    ("imbalance_ratio", ofReal s.strategy.imbalance),
    ("default_ttl_ms", nat s.lease.ttlMillis), ("retry_interval_ms", nat s.lease.retryMillis),
    ("park", ofSpan s.scheduler.park), ("drain", ofSpan s.scheduler.drain),
    ("ttl", ofSpan s.lease.ttl), ("retry", ofSpan s.lease.retry)] ++
    if s.scheduler.workers = 0 then []
    else [("worker_count", nat s.scheduler.workers),
      ("max_stealers", nat (SchedulerSettings.searchers s.scheduler.workers))])

/-- A profile made from expectations, with some of its averages given. -/
def profileOf (d : Document) : Profile :=
  let p := Profile.estimated (span d "run_time") (realD d "cpu" 0.0)
  { p with turns := natD d "turns" p.turns, run := realD d "avg" p.run }

def ofProfile (p : Profile) : Document :=
  table [("run", ofReal p.run), ("rate", ofReal p.rate), ("cpu", ofReal p.cpu),
    ("turns", nat p.turns)]

def workerPhase : String → WorkerPhase
  | "running" => .running
  | "stealing" => .stealing
  | _ => .idle

def loadOf (d : Document) : Load :=
  ⟨nat0 d "index", nat0 d "queued", realD d "mean" 0.0, realD d "predicted" 0.0,
    workerPhase (string d "phase")⟩

/-- A policy: so many restarts, or none where no number is given. -/
def policyOf (d : Document) : Policy :=
  match nat? d "max_restarts" with
  | some n => .limited n
  | none => .stopOnFailure

/-- All counters of a node. -/
def ofCounters (m : Metrics) : Document :=
  table [("spawned", nat m.spawned), ("terminated", nat m.terminated), ("failed", nat m.failed),
    ("messages_sent", nat m.sent), ("messages_received", nat m.received),
    ("rejected_sends", nat m.rejected), ("steals", nat m.steals),
    ("stolen_tasks", nat m.stolenTasks), ("high_watermark_events", nat m.engaged),
    ("cleared_events", nat m.cleared), ("worker_turns", listOf nat m.turns)]

theorem strategyKind_name (k : StrategyKind) : strategyKind k.name = k := by
  cases k <;> decide

end Troupe.Form
