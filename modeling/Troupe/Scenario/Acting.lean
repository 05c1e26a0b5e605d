import Troupe.Scenario.Deed

/-!
# Acting

The behaviours of the cast as programs. A scripted agent goes through the lists of its
template, one list for each resume; an act that has to wait ends the resume, and the
next one goes on with that act. A sink takes numbers in.

* `doActs_nil` — a list that comes to its end waits.
-/

namespace Troupe.Scenario

open Document (table text truth)
open Form

/-- A piece of an agent's work. -/
abbrev Doing (α : Type) := Program Stage Message α

/-- What becomes of an act. -/
inductive Progress where
  /-- The next act follows. -/
  | next
  | ends (step : Step)
  | fails (reason : String)
  /-- The act has to be tried again when the agent is woken. -/
  | waits

namespace Doing

/-- Changes the stage and goes on. -/
def so (f : Stage → Stage) : Doing Progress := .alter f (.answer .next)

/-- Notes what the stage shows and goes on. -/
def noting (who what : String) (f : Stage → Document) : Doing Progress :=
  so fun n => Stage.note n who what (f n)

/-- Tries something that may have to wait, and notes its answer. -/
def trying (who what : String) (f : Stage → Stage × Option Document) : Doing Progress :=
  .ask f fun answer =>
    match answer with
    | none => .answer .waits
    | some value => so fun n => Stage.note n who what value

end Doing

/-! ## Receiving -/

/-- A message as it is reported; a gossiped one says whether it is new to the agent. -/
def ofMessage (w : World) (fresh : Bool) : Message → Document
  | .words _ words => text words
  | .handle agent => table [("handle", ofAgentIn w agent)]
  | .ballot _ payload => table [("ballot", text payload)]
  | .gossip g =>
    table [("gossip", text g.payload.value), ("hops", nat g.hops), ("fresh", truth fresh)]
  | .numbers value => listOf nat value

/-- Keeps what an agent keeps of a message; answers whether it was new to it. -/
def keep (a : Actor) : Message → Actor × Bool
  | .ballot round _ => ({ a with ballots := a.ballots ++ [round] }, true)
  | .gossip g =>
    let (memory, fresh) := a.memory.observe g.id
    ({ a with memory }, fresh)
  | _ => (a, true)

/-- Takes a message in: keeps what is kept of it and notes it. -/
def takeIn (id : AgentId) (e : Envelope Message) (n : Stage) : Stage :=
  match n.app.cast.get? id with
  | none => n
  | some actor =>
    let (kept, fresh) := keep actor e.payload
    let w := n.app.alterActor id fun _ => kept
    let value := table [("msg", ofMessage w fresh e.payload), ("seq", nat e.seq),
      ("from", optional (ofAgentIn w) e.sender), ("tag", ofCapability e.capability)]
    { n with app := w.note actor.name "recv" value }

/-- Receives up to so many messages; `dry` is done when none comes. -/
def receiveUpTo (id : AgentId) (dry : Doing Progress) : (most : Nat) → Doing Progress
  | 0 => .answer .next
  | most + 1 => .receive fun e =>
    match e with
    | none => dry
    | some e => .alter (takeIn id e) (receiveUpTo id dry most)

/-- Receives while more than `left` messages are there, up to so many. -/
def receiveDownTo (id : AgentId) (left : Nat) : (most : Nat) → Doing Progress
  | 0 => .answer .next
  | most + 1 => .look fun n =>
    if left < n.pending id then
      .receive fun e =>
        match e with
        | none => .answer .next
        | some e => .alter (takeIn id e) (receiveDownTo id left most)
    else .answer .next

/-- More messages than a turn can receive. -/
def plenty (n : Stage) : Nat := n.settings.scheduler.quantum + 1

/-! ## Polling -/

/-- What is reported of an object there is not. -/
def missing : Document := text "missing"

/-- Polls a promise with a limit, on behalf of an agent. -/
def pollFuture (id : AgentId) (name : String) (allowed : Span) (n : Stage) :
    Stage × Option Document :=
  match (n.app.futures.get? name).filter (·.awaited) with
  | none => (n, some missing)
  | some f =>
    let o := f.promise.pollTimeout (.agent id) allowed n.now n.now n.now n.timer
    let (promise, timer) := o.state
    let n := Stage.storeFuture { n with timer } name { f with promise }
    let n := n.fireAll o.effects
    match o.answer with
    | .pending => (n, none)
    | .ready answer => (n, some (resultIn n.app nat answer))

/-- Polls a round with a limit, on behalf of an agent; a decided round loses its name. -/
def pollQuorum (id : AgentId) (name : String) (allowed : Span) (n : Stage) :
    Stage × Option Document :=
  match n.app.roundNames.get? name with
  | none => (n, some missing)
  | some number =>
    match n.app.rounds.get? number with
    | none => (n, some missing)
    | some r =>
      let o := r.pollTimeout (.agent id) allowed n.now n.now n.now n.timer
      let (r, timer) := o.state
      let n := (Stage.storeRound { n with timer } number r).fireAll o.effects
      match o.answer with
      | .pending => (n, none)
      | .ready answer =>
        (n.alterApp fun w => { w with roundNames := w.roundNames.erase name },
          some (resultIn n.app (ofVerdict n.app) answer))

/-- Polls a channel on behalf of an agent. -/
def pollChannel (id : AgentId) (name : String) (n : Stage) : Stage × Option Document :=
  if Stage.canReceive n name then
    match Stage.pollChannel name (.agent id) n with
    | (n, .pending) => (n, none)
    | (n, .ready none) => (n, some (text "end"))
    | (n, .ready (some e)) =>
      (n, some (table [("msg", text e.payload.text), ("seq", nat e.seq),
        ("from", optional (ofAgentIn n.app) e.sender)]))
  else (n, some missing)

/-- Answers the oldest ballot that an agent keeps. -/
def castVote (id : AgentId) (name : String) (how : Vote) (n : Stage) : Stage :=
  match (n.app.cast.get? id).map (·.ballots) with
  | some (round :: rest) =>
    let n := n.alterApp (·.alterActor id fun a => { a with ballots := rest })
    let answer := match how with
      | .affirm value => some value
      | _ => none
    Stage.recordVote n round id answer
  | _ => Stage.note n name "vote" (text "none held")

/-! ## Acts -/

/-- The reason of a failure that is told from the outside in. -/
def reasonOf (chain : List String) : String := Text.joined ": " chain

/-- The reason of a breakdown. -/
def panicReason : Option String → String
  | some reason => "panicked: " ++ reason
  | none => "panicked"

/-- Does something on which the agent may break down, and notes its answer. -/
def Doing.daring (who what : String) (f : Stage → Except String (Stage × Document)) :
    Doing Progress :=
  .ask (fun n => tried n (f n)) fun answer =>
    match answer with
    | .ok value => Doing.noting who what fun _ => value
    | .error why => .answer (.fails (panicReason (some why)))
where
  tried (n : Stage) : Except String (Stage × Document) → Stage × Except String Document
    | .ok (n, value) => (n, .ok value)
    | .error why => (n, .error why)

/-- Does an act of an agent. -/
def doAct (id : AgentId) (name : String) : Act → Doing Progress
  | .yield => .answer (.ends .yield)
  | .wait => .answer (.ends .wait)
  | .done => .answer (.ends .done)
  | .fail chain => .answer (.fails (reasonOf chain))
  | .panic reason => .answer (.fails (panicReason reason))
  | .goto index => .so fun n => n.alterApp (·.alterActor id fun a => { a with index })
  | .log value => .noting name "log" fun _ => value
  | .pending => .noting name "pending" fun n => nat (n.pending id)
  | .terminating => .noting name "terminating" fun n => truth (n.isTerminating id)
  | .receive most => receiveUpTo id (.noting name "none" fun n => nat (n.pending id)) most
  | .receiveAll => .look fun n => receiveUpTo id (.answer .next) (plenty n)
  | .receiveUntil left => .look fun n => receiveDownTo id left (plenty n)
  | .awaitMessage => receiveUpTo id (.answer .waits) 1
  | .saveWaker waker =>
    .so fun n => n.alterApp fun w => { w with wakers := w.wakers.insert waker id }
  | .wakePast => .so fun n => n.wakeAt id n.now
  | .wakeAfter delay => .so fun n => n.wakeAt id (deadlineAfter n.now delay)
  | .spin time => .so fun n => n.advanceTo (deadlineAfter n.now time)
  | .selfSignal saying => .daring name "self_signal" fun n => Stage.signal n id saying none
  | .pollFuture future allowed => .trying name "poll_await" (pollFuture id future allowed)
  | .pollQuorum round allowed => .trying name "poll_quorum" (pollQuorum id round allowed)
  | .pollChannel channel => .trying name "poll_recv" (pollChannel id channel)
  | .vote how => .so (castVote id name how)
  | .deed d => .daring name d.name fun n => perform ⟨some id, fun n => n⟩ n d

/-- Does acts one after another; `skipped` acts before them are over. An act that waits
is tried again at the next resume. -/
def doActs (id : AgentId) (name : String) (index : Nat) :
    (skipped : Nat) → List Act → Doing (Except String Step)
  | _, [] => .answer (.ok .wait)
  | skipped, act :: rest => (doAct id name act).bind fun progress =>
    match progress with
    | .next => doActs id name index (skipped + 1) rest
    | .ends step => .answer (.ok step)
    | .fails reason => .answer (.error reason)
    | .waits =>
      .alter (fun n => n.alterApp (·.alterActor id fun a => { a with index, skipped }))
        (.answer (.ok .wait))

/-- Enters a list of acts: takes the agent's name again, notes the resume and chooses
the list for the next one. -/
def enter (id : AgentId) (name : String) (quiet : Bool) (index : Nat) (n : Stage) : Stage :=
  n.alterApp fun w =>
    let w := { w with names := w.names.insert name id }
    let w := if w.ordered && !quiet then w.note name "resume" (nat index) else w
    w.alterActor id fun a => { a with index := index + 1, skipped := 0 }

/-- Goes on with the lists of a template; the last one is repeated, and a template
without lists does nothing at each resume. -/
def follow (id : AgentId) (actor : Actor) (t : Template) : Doing (Except String Step) :=
  let index := min actor.index (t.resumes.length - 1)
  let acts := t.resumes.getD index []
  .alter (enter id actor.name t.quiet index)
    (doActs id actor.name index actor.skipped (acts.drop actor.skipped))

/-- Takes numbers in, up to so many times. -/
def receiveNumbers (name : String) : (most : Nat) → Doing (Except String Step)
  | 0 => .answer (.ok .wait)
  | most + 1 => .receive fun e =>
    match e with
    | none => .answer (.ok .wait)
    | some e =>
      .alter (fun n => Stage.note n name "recv" (ofMessage n.app true e.payload))
        (receiveNumbers name most)

/-- The acts of a template that prepare a restart: only a choice of a list and a
breakdown count. -/
def prepare (id : AgentId) : List Act → Stage → Stage × Except String Unit
  | [], n => (n, .ok ())
  | .goto index :: rest, n =>
    prepare id rest (n.alterApp (·.alterActor id fun a => { a with index }))
  | .panic reason :: _, n => (n, .error (panicReason reason))
  | _ :: rest, n => prepare id rest n

/-- The behaviour of an agent of the cast. -/
def behavior (id : AgentId) : Behavior Stage Message where
  resume := .look fun n =>
    match n.app.cast.get? id with
    | none => .answer (.ok .wait)
    | some actor =>
      match actor.part with
      | .script t => follow id actor t
      | .sink receives => receiveNumbers actor.name (if receives then plenty n else 0)
  onStop := .look fun n =>
    match n.app.cast.get? id with
    | none => .answer (.ok ())
    | some actor =>
      match actor.part with
      | .sink _ => .answer (.ok ())
      | .script t =>
        .alter (fun n => Stage.note n actor.name "on_stop" (nat (n.pending id)))
          ((doActs id actor.name actor.index 0 t.onStop).bind fun _ => .answer (.ok ()))
  onRestart n :=
    match n.app.cast.get? id with
    | none => (n, .ok ())
    | some actor =>
      match actor.part with
      | .sink _ => (n, .ok ())
      | .script t => prepare id t.onRestart (Stage.note n actor.name "on_restart" (nat actor.index))

/-- The agents' side of the node of a scenario. -/
def host : Host Message World := ⟨behavior, Stage.dropBallots⟩

theorem doActs_nil (id : AgentId) (name : String) (index skipped : Nat) :
    doActs id name index skipped [] = .answer (.ok .wait) := rfl

end Troupe.Scenario
