import Troupe.Gossip.Broadcast
import Troupe.Scenario.Showing
import Troupe.Shard.Basic

/-!
# Doing deeds

What each deed does on a stage, and the document it is answered with. A deed is done by
an agent or from outside; whoever has to wait lets `others` act meanwhile. Who asks
agents to take part that nobody knows by name, or for a mailbox whose sizing cannot be
derived, breaks down before anything is done.

* `perform_running` — asking whether the node runs changes nothing;
* `bearers?_unknown` — one unknown name among several is enough for a breakdown;
* `perform_channel_broken` — and so is one sizing.
-/

namespace Troupe.Scenario

open Document (table text truth)
open Form

/-- Who does a deed, and what the rest of the node does when he waits. -/
structure Doer where
  who : Option AgentId
  others : Stage → Stage

/-- How many alarms may pass before a wait is given up. -/
def patience : Nat := 100000

namespace Stage

/-! ## Agents -/

/-- Spawns an agent of the cast. -/
def enlist (n : Stage) (name : String) (part : Part) (t : Traits) (mailbox : Option Watermarks) :
    Stage × Except Fault AgentId :=
  let options : Node.SpawnOptions World :=
    { mailbox := mailbox
      observer := fun event w => if t.observed then w.note name "pressure" (ofEvent event) else w
      capability := t.capability
      profile := t.profile
      profileOf := t.profileOf.bind n.app.names.get? }
  match n.spawn options with
  | (n, .error why) => (n, .error why)
  | (n, .ok id) => (n.alterApp fun w => { w with cast := w.cast.insert id { name, part } }, .ok id)

/-- Spawns an agent that follows a template, under a name. -/
def spawnActor (n : Stage) (name : String) (t : Template) (mailbox : Option Watermarks) :
    Stage × Document :=
  match enlist n name (.script t) t.traits mailbox with
  | (n, .error why) => (n, ofFaultIn n.app why)
  | (n, .ok id) => (n.alterApp fun w => { w with names := w.names.insert name id }, ok)

/-- Spawns a sink under a name. -/
def spawnSink (n : Stage) (name : String) (receives : Bool) (t : Traits)
    (mailbox : Option Watermarks) : Stage × Document :=
  match enlist n name (.sink receives) t mailbox with
  | (n, .error why) => (n, ofFaultIn n.app why)
  | (n, .ok id) => (n.alterApp fun w => { w with sinks := w.sinks.insert name id }, ok)

/-- The reason of a breakdown over a name that no agent bears. -/
def unknownName : String := "no entry found for key"

/-- The reason of a breakdown over a product that is no word. -/
def overflow : String := "attempt to multiply with overflow"

/-- The agents of some names, if all of them are borne. -/
def bearers? (n : Stage) : List String → Option (List AgentId)
  | [] => some []
  | name :: rest =>
    match n.app.names.get? name, bearers? n rest with
    | some id, some ids => some (id :: ids)
    | _, _ => none

theorem bearers?_unknown (n : Stage) (names : List String) (name : String)
    (h : name ∈ names) (unknown : n.app.names.get? name = none) : bearers? n names = none := by
  induction names with
  | nil => simp at h
  | cons x xs ih =>
      rcases List.mem_cons.mp h with rfl | h
      · simp [bearers?, unknown]
      · simp [bearers?, ih h]

/-- Does something with what is needed for it, or breaks down when it is not there. -/
def needing {α β : Type} (reason : String) (found : Option α) (f : α → β) : Except String β :=
  match found with
  | some a => .ok (f a)
  | none => .error reason

/-- The message that a saying stands for, if there is such an agent. -/
def message? (n : Stage) : Saying → Option Message
  | .words label words => some (.words label words)
  | .handle name => (n.app.names.get? name).map .handle

/-- What a deed is answered when it concerns an agent there is not. -/
def noAgent : Document := text "no such agent"

/-- Sends a saying to an agent. -/
def signal (n : Stage) (target : AgentId) (saying : Saying) (sender : Option AgentId) :
    Except String (Stage × Document) :=
  needing unknownName (message? n saying) fun m =>
    let (n, answer) := n.send target m sender
    (n, sentIn n.app answer)

/-- Asks an agent to end. -/
def finish (n : Stage) (id : AgentId) : Stage × Document :=
  let (n, answer) := n.terminate id
  (n, resultIn n.app (fun _ => ok) answer)

/-- The identity that no agent bears. -/
def nobody : AgentId := ⟨Word.last⟩

/-- Shows something about the agent of a name, or nothing when there is none. -/
def about (n : Stage) (who : String) (f : AgentId → Option Document) : Document :=
  (n.app.names.get? who).bind f |>.getD .null

/-! ## Promises and rounds -/

/-- Puts a future back. -/
def storeFuture (n : Stage) (name : String) (f : Future) : Stage :=
  n.alterApp fun w => { w with futures := w.futures.insert name f }

def resolve (n : Stage) (name : String) (value : Nat) : Stage × Document :=
  match n.app.futures.get? name with
  | none => (n, .null)
  | some f =>
    let o := f.promise.resolve value
    ((storeFuture n name { f with promise := o.state }).fireAll o.effects, truth o.answer)

/-- Polls a promise by name, from outside. -/
def pollPromise (name : String) (n : Stage) : Stage × Poll (Except Fault Nat) :=
  match n.app.futures.get? name with
  | none => (n, .pending)
  | some f =>
    let (promise, answer) := f.promise.pollTake .outsider
    (storeFuture n name { f with promise }, answer)

/-- Waits for a promise; the awaiting side is gone afterwards. -/
def waitFuture (d : Doer) (n : Stage) (name : String) (allowed : Span) : Stage × Document :=
  match n.app.futures.get? name with
  | none => (n, .null)
  | some f =>
    if f.awaited then
      let n := storeFuture n name { f with awaited := false }
      let (n, answer) := n.await d.others (pollPromise name) (deadlineAfter n.now allowed) patience
      (n, resultIn n.app nat (answer.getD (.error (.awaitTimeout allowed))))
    else (n, .null)

def storeRound (n : Stage) (number : Nat) (r : Round Waker Nat) : Stage :=
  n.alterApp fun w => { w with rounds := w.rounds.insert number r }

/-- Hands a ballot to an agent. -/
def deliverBallot (number : Nat) (payload : String) (n : Stage) (id : AgentId) :
    Stage × BallotFate Nat :=
  match n.send id (.ballot number payload) none with
  | (n, .ok _) => (n, .held)
  | (n, .error refusal) => (n, .lost refusal.fault)

/-- Opens a round among some agents. -/
def startRound (n : Stage) (voters : List AgentId) (threshold : Nat) (payload : String) :
    Stage × Except Fault Nat :=
  match Round.open? voters.length threshold with
  | .error why => (n, .error why)
  | .ok round =>
    let (w, number) := n.app.mint
    let n : Stage := { n with app := w }
    let o := Round.deliverAll id (deliverBallot number payload) voters n round
    let (n, round) := o.state
    ((storeRound n number round).fireAll o.effects, .ok number)

/-- Polls a round by number, from outside. -/
def pollRound (number : Nat) (n : Stage) : Stage × Poll (Except Fault (Verdict Nat)) :=
  match n.app.rounds.get? number with
  | none => (n, .pending)
  | some r =>
    let (r, answer) := r.poll .outsider
    (storeRound n number r, answer)

/-- Gives up on a round. -/
def giveUp (n : Stage) (number : Nat) : Stage × Except Fault (Verdict Nat) :=
  match n.app.rounds.get? number with
  | none => (n, .error .consumed)
  | some r =>
    let (r, answer) := r.giveUp
    (storeRound n number r, answer)

/-- Waits for a round to be decided. -/
def waitRound (d : Doer) (n : Stage) (number : Nat) (allowed : Span) :
    Stage × Except Fault (Verdict Nat) :=
  match n.await d.others (pollRound number) (deadlineAfter n.now allowed) patience with
  | (n, some answer) => (n, answer)
  | (n, none) => giveUp n number

/-- A verdict whose responses come by value, where their order is not determined. -/
def arranged (ordered : Bool) (v : Verdict Nat) : Verdict Nat :=
  if ordered then v else { v with responses := v.responses.mergeSort fun a b => decide (a.2 ≤ b.2) }

/-- Texts in ascending order. -/
def ascending (ss : List String) : Document :=
  listOf text (ss.mergeSort fun a b => !decide (b < a))

/-- Gossips to some agents. -/
def broadcast (n : Stage) (peers : List AgentId) (payload : String) (fanout : Nat) :
    Stage × Document :=
  let (w, number) := n.app.mint
  let n : Stage := { n with app := w }
  let deliver (n : Stage) (id : AgentId) (g : Gossip String) : Stage × Except Fault Unit :=
    match n.send id (.gossip g) none with
    | (n, .ok _) => (n, .ok ())
    | (n, .error refusal) => (n, .error refusal.fault)
  let g := Gossip.first ⟨number⟩ ⟨number, payload⟩
  let (n, answer) := g.broadcast id deliver peers fanout (Gossip.leading peers fanout) n
  let shown (id : AgentId) := Json.write (ofAgentIn n.app id)
  (n, resultIn n.app (fun (r : Receipt) =>
    table [("targets", ascending (r.targets.map shown)),
      ("failures", ascending (r.failures.map fun f => shown f.1 ++ " " ++ kindOf f.2))]) answer)

/-! ## Channels -/

def noChannel : Document := text "no channel"

/-- Carries out an operation on a channel by name. -/
def settleChannel {α : Type} (n : Stage) (name : String)
    (o : Outcome Waker (Channel Unit Waker Message) α) : Stage :=
  (n.alterApp fun w => { w with channels := w.channels.insert name o.state }).fireAll o.effects

/-- Wakes whoever waits at a channel that goes away. -/
def discard (n : Stage) (c : Channel Unit Waker Message) : Stage := n.fireAll c.mailbox.close.effects

/-- Opens a channel under a name; one that bore the name goes away. -/
def openChannel (d : Doer) (n : Stage) (name : String) (marks : Watermarks) : Stage × Document :=
  match Channel.open? (ω := Waker) (μ := Message) marks () with
  | .error why => (n, ofFaultIn n.app why)
  | .ok c =>
    let c := (d.who.bind (c.onBehalfOf? ())).getD c
    let old := n.app.channels.get? name
    let n := n.alterApp fun w => { w with channels := w.channels.insert name c }
    ((old.map (discard n)).getD n, ok)

def sendOn (n : Stage) (name words : String) : Stage × Document :=
  match (n.app.channels.get? name).bind (·.send? () (.words .isolated words)) with
  | none => (n, noChannel)
  | some o =>
    let n := settleChannel n name o
    (n, sentIn n.app o.answer)

/-- Drops an end of a channel; answers whether it was there. -/
def dropEnd (n : Stage) (name : String)
    (f : Channel Unit Waker Message → Option (Outcome Waker (Channel Unit Waker Message) Unit)) :
    Stage × Document :=
  match (n.app.channels.get? name).bind f with
  | none => (n, truth false)
  | some o => (settleChannel n name o, truth true)

/-- Polls a channel by name. -/
def pollChannel (name : String) (waker : Waker) (n : Stage) :
    Stage × Poll (Option (Envelope Message)) :=
  match n.app.channels.get? name with
  | none => (n, .pending)
  | some c =>
    let o := c.poll waker
    (settleChannel n name o, o.answer)

/-- Whether a channel has its receiving end. -/
def canReceive (n : Stage) (name : String) : Bool :=
  ((n.app.channels.get? name).map (·.receiving)).getD false

def receiveWithin (d : Doer) (n : Stage) (name : String) (allowed : Span) : Stage × Document :=
  if canReceive n name then
    let (n, answer) :=
      n.await d.others (pollChannel name .outsider) (deadlineAfter n.now allowed) patience
    let polled := match answer with
      | some a => .ready a
      | none => .pending
    (n, resultIn n.app (fun e => text e.payload.text) (Channel.received allowed polled))
  else (n, noChannel)

/-! ## Leases and cells -/

/-- The holder on whose behalf leases are taken. -/
def holder (d : Doer) : AgentId := d.who.getD ⟨0⟩

def lease (d : Doer) (n : Stage) (key : String) (ttl : Span) : Stage × Document :=
  match n.app.leases.acquire n.app.clock.now key (holder d) ttl with
  | (_, .error why) => (n, ofFaultIn n.app why)
  | (leases, .ok l) =>
    (n.alterApp fun w => { w with leases, granted := w.granted.insert key l },
      table [("holder", ofAgentIn n.app l.holder), ("token", nat l.token)])

def renew (n : Stage) (key : String) (ttl : Span) : Stage × Document :=
  match n.app.granted.get? key with
  | none => (n, .null)
  | some l =>
    match n.app.leases.renew n.app.clock.now l ttl with
    | (_, .error why) => (n, ofFaultIn n.app why)
    | (leases, .ok l) =>
      (n.alterApp fun w => { w with leases, granted := w.granted.insert key l }, nat l.token)

def release (d : Doer) (n : Stage) (key : String) : Stage × Document :=
  let (leases, answer) := n.app.leases.release n.app.clock.now key (holder d)
  (n.alterApp fun w => { w with leases }, resultIn n.app truth answer)

/-- Moves the value of a cell to a sink; a value that is refused goes back. -/
def sendCell (n : Stage) (name sink : String) : Stage × Document :=
  match n.app.cells.get? name, n.app.sinks.get? sink with
  | some c, some target =>
    let (n, c, answer) := n.handOver Message.ofNumbers c target
    (n.alterApp fun w => { w with cells := w.cells.insert name c },
      table [("sent", resultIn n.app ofStatus answer),
        ("left", resultIn n.app (listOf nat) c.get)])
  | _, _ => (n, .null)

/-! ## Quorums -/

/-- Starts a round that goes by a name. -/
def startQuorum (n : Stage) (name : String) (voters : List AgentId) (threshold : Nat)
    (payload : String) : Stage × Document :=
  match startRound n voters threshold payload with
  | (n, .error why) => (n, ofFaultIn n.app why)
  | (n, .ok number) =>
    (n.alterApp fun w => { w with roundNames := w.roundNames.insert name number }, ok)

/-- Waits for the round of a name, which loses it. -/
def waitQuorum (d : Doer) (n : Stage) (name : String) (allowed : Span) : Stage × Document :=
  match n.app.roundNames.get? name with
  | none => (n, .null)
  | some number =>
    let n := n.alterApp fun w => { w with roundNames := w.roundNames.erase name }
    let (n, answer) := waitRound d n number allowed
    (n, resultIn n.app (ofVerdict n.app) answer)

/-- Holds a round and waits for it. -/
def holdQuorum (d : Doer) (n : Stage) (voters : List AgentId) (threshold : Nat)
    (payload : String) (allowed : Span) : Stage × Document :=
  match startRound n voters threshold payload with
  | (n, .error why) => (n, ofFaultIn n.app why)
  | (n, .ok number) =>
    let (n, answer) := waitRound d n number allowed
    (n, resultIn n.app (fun v => ofVerdict n.app (arranged n.app.ordered v)) answer)

end Stage

open Stage

/-- Does a deed; answers the stage after it and what it is answered with, or the reason
of a breakdown. -/
def perform (d : Doer) (n : Stage) : Deed → Except String (Stage × Document)
  | .spawn template name =>
    let t := n.app.templates.getD template {}
    needing overflow t.traits.mailbox? fun mailbox => spawnActor n name t mailbox
  | .signal target saying anonymous sender =>
    match n.app.names.get? target with
    | none => .ok (n, noAgent)
    | some id => Stage.signal n id saying (sender.or (if anonymous then none else d.who))
  | .terminate who => .ok (finish n (n.app.names.getD who nobody))
  | .handle who => .ok (n, about n who fun id => (n.seat? id).map ofSeat)
  | .mailbox who =>
    .ok (n, about n who fun id => (n.seat? id).map fun seat => ofStats seat.mailbox.stats)
  | .info who => .ok (n, about n who fun id => (n.info? id).map (ofInfo n.app))
  | .failure who => .ok (n, about n who fun id => (n.failures.get? id).map (ofReport n.app))
  | .agents => .ok (n, nat n.agentCount)
  | .running => .ok (n, truth n.isRunning)
  | .stats => .ok (n, ofNode n)
  | .metrics => .ok (n, ofMetrics n.app.ordered n.metrics)
  | .wake waker =>
    match n.app.wakers.get? waker with
    | none => .ok (n, text "no waker")
    | some id => .ok (n.wake id, ok)
  | .newFuture name => .ok (storeFuture n name {}, ok)
  | .resolve future value => .ok (Stage.resolve n future value)
  | .waitFuture future allowed => .ok (Stage.waitFuture d n future allowed)
  | .startQuorum name voters threshold payload =>
    needing unknownName (bearers? n voters) fun voters => Stage.startQuorum n name voters threshold payload
  | .waitQuorum round allowed => .ok (Stage.waitQuorum d n round allowed)
  | .quorum voters threshold payload allowed =>
    needing unknownName (bearers? n voters) fun voters => holdQuorum d n voters threshold payload allowed
  | .broadcast peers payload fanout =>
    needing unknownName (bearers? n peers) fun peers => Stage.broadcast n peers payload fanout
  | .channel name sizing => needing overflow sizing fun marks => openChannel d n name marks
  | .send channel words => .ok (sendOn n channel words)
  | .dropSender channel => .ok (dropEnd n channel (·.dropSender? ()))
  | .dropReceiver channel => .ok (dropEnd n channel Channel.dropReceiver?)
  | .receiveWithin channel allowed => .ok (Stage.receiveWithin d n channel allowed)
  | .lease key ttl => .ok (Stage.lease d n key ttl)
  | .renew key ttl => .ok (Stage.renew n key ttl)
  | .release key => .ok (Stage.release d n key)
  | .advance by' => .ok (n.alterApp fun w => { w with clock := w.clock.advance by' }, ok)
  | .shard key shards =>
    let chosen := shard .digest key.toUTF8.toList (shards.map fun s => s.toUTF8.toList)
    .ok (n, resultIn n.app (fun index => text (shards.getD index "")) chosen)
  | .sink name receives traits =>
    needing overflow traits.mailbox? fun mailbox => spawnSink n name receives traits mailbox
  | .endSink who =>
    match n.app.sinks.get? who with
    | none => .ok (n, .null)
    | some id => .ok (finish n id)
  | .cell name value =>
    .ok (n.alterApp fun w => { w with cells := w.cells.insert name (.ofValue value) }, ok)
  | .cellSend cell target => .ok (sendCell n cell target)

theorem perform_channel_broken (d : Doer) (n : Stage) (name : String) :
    perform d n (.channel name none) = .error overflow := rfl

theorem perform_running (d : Doer) (n : Stage) :
    perform d n .running = .ok (n, truth n.isRunning) := rfl

end Troupe.Scenario
