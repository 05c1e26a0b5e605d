import Troupe.Promise

/-!
# Quorum rounds

A round asks a number of participants and succeeds once a threshold of them affirm.
It is decided once: by the vote that reaches the threshold, by the vote that puts it
out of reach, or by the deadline. A ballot that is dropped, or that cannot be
delivered, is a rejection.

* `record_settled` — a decided round ignores further votes;
* `expire_settled` — and the deadline too.
-/

namespace Troupe

/-- The result of a round that reached its threshold: the affirmations in order of
arrival, and how many rejected by then. -/
structure Verdict (α : Type) where
  responses : List (AgentId × α)
  rejected : Nat
  participants : Nat
deriving DecidableEq, Repr

/-- A round of voting, with the promise that its result resolves. -/
structure Round (ω α : Type) where
  participants : Nat
  threshold : Nat
  responses : List (AgentId × α) := []
  rejected : Nat := 0
  isSettled : Bool := false
  promise : Promise ω (Except Fault (Verdict α)) := {}
deriving Repr

namespace Round

variable {ω α : Type}

/-- Opens a round; the threshold must be positive and within reach. -/
def open? (participants threshold : Nat) : Except Fault (Round ω α) :=
  if threshold = 0 then .error (.misuse .zeroThreshold)
  else if participants < threshold then .error (.quorumFailure 0 threshold)
  else .ok { participants, threshold }

/-- The decision that the votes recorded so far make, if they make one. -/
def decision (r : Round ω α) : Option (Except Fault (Verdict α)) :=
  if r.threshold ≤ r.responses.length then
    some (.ok ⟨r.responses, r.rejected, r.participants⟩)
  -- those who may still affirm are too few
  else if r.participants - r.rejected < r.threshold then
    some (.error (.quorumFailure r.responses.length r.threshold))
  else none

/-- Counts a vote that has not been counted. -/
def tally (r : Round ω α) (voter : AgentId) : Option α → Round ω α
  | some response => { r with responses := r.responses ++ [(voter, response)] }
  | none => { r with rejected := r.rejected + 1 }

/-- Takes a vote, an affirmation with a response or a rejection, and decides the round
if that settles it. -/
def record (r : Round ω α) (voter : AgentId) (vote : Option α) : Outcome ω (Round ω α) Unit :=
  if r.isSettled then ⟨r, [], ()⟩
  else
    let counted := r.tally voter vote
    match counted.decision with
    | none => ⟨counted, [], ()⟩
    | some result =>
      let o := counted.promise.resolve result
      ⟨{ counted with isSettled := true, promise := o.state }, o.effects, ()⟩

/-- Decides the round by its deadline, unless it is decided. -/
def expire (r : Round ω α) : Round ω α × Option Fault :=
  if r.isSettled then (r, none)
  else ({ r with isSettled := true }, some (.quorumFailure r.responses.length r.threshold))

/-- The result for someone whose time is up: a round decided in the meantime keeps its
result. -/
def giveUp (r : Round ω α) : Round ω α × Except Fault (Verdict α) :=
  match r.expire with
  | (expired, some fault) => (expired, .error fault)
  | (settled, none) =>
    -- decided after the time was up, but before anyone looked
    let (taken, result) := settled.promise.tryTake
    ({ settled with promise := taken }, result.getD (.error (.quorumFailure 0 r.threshold)))

/-- Takes the result, or has `w` woken by it. -/
def poll (r : Round ω α) (w : ω) : Round ω α × Poll (Except Fault (Verdict α)) :=
  let (polled, answer) := r.promise.pollTake w
  ({ r with promise := polled }, match answer with
    | .ready (.ok result) => .ready result
    | .ready (.error fault) => .ready (.error fault)
    | .pending => .pending)

/-- Takes the result, or gives up once `allowed` has passed since the first such poll,
or has `w` woken by whichever comes first. -/
def pollTimeout (r : Round ω α) (w : ω) (allowed : Span) (started compared registered : Instant)
    (timer : Timer ω) :
    Outcome ω (Round ω α × Timer ω) (Poll (Except Fault (Verdict α))) :=
  let o := r.promise.pollTimeout w allowed started compared registered timer
  let polled := { r with promise := o.state.1 }
  match o.answer with
  | .ready (.ok result) => ⟨(polled, o.state.2), o.effects, .ready result⟩
  | .ready (.error (.awaitTimeout _)) =>
    let (ended, result) := polled.giveUp
    ⟨(ended, o.state.2), o.effects, .ready result⟩
  | .ready (.error fault) => ⟨(polled, o.state.2), o.effects, .ready (.error fault)⟩
  | .pending => ⟨(polled, o.state.2), o.effects, .pending⟩

/-- The result for someone who waits while nobody else acts: a round that is not decided
ends. -/
def waitAlone (r : Round ω α) (w : ω) : Round ω α × Except Fault (Verdict α) :=
  match r.poll w with
  | (polled, .ready result) => (polled, result)
  | (polled, .pending) => polled.giveUp

theorem record_settled (r : Round ω α) (voter : AgentId) (vote : Option α)
    (h : r.isSettled = true) : r.record voter vote = ⟨r, [], ()⟩ := by
  simp [record, h]

theorem expire_settled (r : Round ω α) (h : r.isSettled = true) : r.expire = (r, none) := by
  simp [expire, h]

end Round

/-- What became of a ballot when it was delivered. -/
inductive BallotFate (α : Type) where
  /-- The participant holds it and may vote later. -/
  | held
  /-- It was answered on the spot; `none` rejects. -/
  | answered (vote : Option α)
  /-- It could not be delivered. -/
  | lost (why : Fault)
deriving Repr

namespace BallotFate

/-- The vote that a ballot brings at once, if any. -/
def vote {α : Type} : BallotFate α → Option (Option α)
  | .held => none
  | .answered v => some v
  | .lost _ => some none

end BallotFate

/-- Delivers a ballot to each participant in turn and records the votes that come back
at once. `deliver` changes the world of the participants. -/
def Round.deliverAll {ω α σ π : Type} (voter : π → AgentId)
    (deliver : σ → π → σ × BallotFate α) :
    List π → σ → Round ω α → Outcome ω (σ × Round ω α) Unit
  | [], s, r => ⟨(s, r), [], ()⟩
  | p :: rest, s, r =>
    let (s, fate) := deliver s p
    let voted := match fate.vote with
      | some v => r.record (voter p) v
      | none => ⟨r, [], ()⟩
    let later := Round.deliverAll voter deliver rest s voted.state
    ⟨later.state, voted.effects ++ later.effects, ()⟩

end Troupe
