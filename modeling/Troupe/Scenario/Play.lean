import Troupe.Scenario.Acting

/-!
# Playing a scenario

A scenario is played beat by beat on a node of its own. After each beat the workers work
until all of them are parked, and what was noted meanwhile is reported. In the end the
agents are asked to end, one after another, and the node stops.

Time stands still while agents act; it passes while somebody waits and while a worker
is kept busy.

A play comes to nothing when its settings are unacceptable, or when somebody outside
breaks down; agents that break down are part of the play.

* `play_rejected` — under unacceptable settings nothing is played.
-/

namespace Troupe.Scenario

open Document (table text truth)
open Form

/-- A play: the node it needs, the agents' parts, and the beats. -/
structure Play where
  settings : Settings
  policy : Policy := .stopOnFailure
  templates : Table String Template := Table.empty
  beats : List Beat := []

/-- What is reported of a beat. -/
structure Moment where
  answer : Document
  log : List Document

/-- What is reported of a play. -/
structure Account where
  moments : List Moment
  /-- What was noted while the play came to its end. -/
  log : List Document
  /-- The stage after the end. -/
  stage : Stage

/-- Why a play comes to nothing. -/
inductive Mishap where
  /-- The settings are unacceptable. -/
  | rejected (why : Fault)
  /-- Somebody outside broke down, for a reason. -/
  | brokeDown (reason : String)

/-- The identity of the first agent of a play. Identities are unique in the whole
process, so a play cannot know them; the numbers below stand for agents elsewhere. -/
def firstAgent : AgentId := ⟨0x100000000⟩

/-- Where time stands when a play begins: the clocks have run for a day. -/
def dawn : Instant := ⟨(Span.ofMillis (24 * 60 * 60 * 1000)).nanos⟩

/-- More rounds than it takes workers to settle. -/
def manyRounds : Nat := 1000000

/-- How many rounds a node that stops gives its agents. -/
def drainRounds : Nat := 20000

/-- How long a play waits for the log to grow. -/
def longestWait : Span := Span.ofMillis 2000

namespace Play

/-- The stage on which a play begins. -/
def stage (p : Play) : Stage :=
  let workers := max p.settings.scheduler.workers 1
  let world : World :=
    { templates := p.templates
      ordered := decide (workers = 1)
      clock := ⟨dawn, Span.zero⟩
      leases := { terms := p.settings.lease.terms } }
  { Node.ofSettings p.settings p.policy workers dawn world with nextId := firstAgent }

end Play

/-- Lets the workers work until all of them are parked. -/
def settle (n : Stage) : Stage := n.settle host manyRounds

/-- Whoever acts from outside: the workers work while he waits. -/
def outsider : Doer := ⟨none, settle⟩

/-- Whether so many entries are in the log. -/
def pollLog (entries : Nat) (n : Stage) : Stage × Poll Unit :=
  (n, if entries ≤ n.app.log.length then .ready () else .pending)

/-- Does what a cue says. -/
def follow? (n : Stage) : Cue → Except String (Stage × Document)
  | .start =>
    let (n, answer) := n.start
    .ok (n, resultIn n.app (fun _ => ok) answer)
  | .stop => .ok (n.stop host drainRounds, ok)
  | .awaitLog entries =>
    .ok ((n.await settle (pollLog entries) (deadlineAfter n.now longestWait) patience).1, ok)
  | .deed d => perform outsider n d

/-- Whether a cue is the one that stops the node. -/
def Cue.isStop : Cue → Bool
  | stop => true
  | _ => false

/-- Takes the log, oldest entry first, or sorted. -/
def takeLog (n : Stage) (sorted : Bool) : Stage × List Document :=
  let entries := n.app.log.reverse.map ofEntry
  (n.alterApp fun w => { w with log := [] }, if sorted then sortedByText entries else entries)

/-- Plays one beat. -/
def playBeat (n : Stage) (b : Beat) : Except String (Stage × Moment) :=
  (follow? n b.cue).map fun (n, answer) =>
    let n := if b.unsettled then n else settle n
    if b.held then (n, ⟨answer, []⟩)
    else
      let (n, log) := takeLog n (!n.app.ordered || b.sorted || b.cue.isStop)
      (n, ⟨answer, log⟩)

/-- Plays beats one after another. -/
def playBeats : Stage → List Beat → Except String (Stage × List Moment)
  | n, [] => .ok (n, [])
  | n, b :: rest => do
    let (n, moment) ← playBeat n b
    let (n, moments) ← playBeats n rest
    return (n, moment :: moments)

/-- The agents that follow a script, in the order in which they were spawned. -/
def scripted (w : World) : List AgentId :=
  (w.cast.rows.filter fun row => row.2.part.isScript).map (·.1)

/-- Brings a play to its end. -/
def conclude (n : Stage) : Stage :=
  let n :=
    if n.isRunning then
      (scripted n.app).foldl (fun n id => settle (n.terminate id).1) n
    else n
  n.stop host drainRounds

/-- Plays a scenario. -/
def play (p : Play) : Except Mishap Account :=
  match p.settings.validate with
  | .error why => .error (.rejected why)
  | .ok _ =>
    match playBeats p.stage p.beats with
    | .error reason => .error (.brokeDown reason)
    | .ok (n, moments) =>
      let (n, log) := takeLog (conclude n) (!n.app.ordered)
      .ok ⟨moments, log, n⟩

/-! ## The account of a play -/

/-- The failures that stopped agents, by name. -/
def ofFailures (n : Stage) : Document :=
  let name (r : FailureReport) : String := (n.app.nameOf? r.agent).getD ""
  listOf (ofReport n.app) (n.failures.values.mergeSort fun a b => !decide (name b < name a))

/-- Which of the named agents are over. -/
def ofDead (n : Stage) : Document :=
  table (n.app.names.rows.map fun (name, id) =>
    (name, truth (((n.seat? id).map isOver).getD false)))

def ofMoment (m : Moment) : Document := table [("r", m.answer), ("log", .list m.log)]

def ofAccount (a : Account) : Document :=
  let n := a.stage
  table [("steps", listOf ofMoment a.moments),
    ("end", table [("log", .list a.log), ("metrics", ofMetrics n.app.ordered n.metrics),
      ("failures", ofFailures n), ("agents", nat n.agentCount), ("running", truth n.isRunning)]),
    ("dead", ofDead n)]

/-- A mishap as it is answered: of a breakdown the reason stays unsaid. -/
def ofMishap : Mishap → Document
  | .rejected why => ofFault why
  | .brokeDown _ => cause "Panic"

theorem play_rejected (p : Play) (why : Fault) (h : p.settings.validate = .error why) :
    play p = .error (.rejected why) := by
  simp [play, h]

end Troupe.Scenario
