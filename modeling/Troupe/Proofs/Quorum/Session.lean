import Troupe.Proofs.Quorum.Decision

/-!
# Sessions of a vote

A round in the hands of everyone who takes part: the ballots on their way to the
participants, the participants who answer or drop them, and one party that waits for the
result until its time is over. Each does one thing at a time, and anybody may act
between two of them; nobody has to.

* `Standing` — how the round and the waiting party agree with what has happened;
* `Kept` — and every ballot is answered once at most;
* `Kept.next`, `Kept.run` — whatever happens keeps this.
-/

namespace Troupe

namespace Quorum

variable {ω α : Type}

/-- One participant's right to vote. -/
structure Ballot where
  voter : AgentId
  /-- Neither answered nor dropped so far. -/
  isOpen : Bool

/-- The party that waits for the result. -/
inductive Waiter (α : Type) where
  | waiting
  /-- Its time is over, and it is about to settle the round. -/
  | late
  /-- It has found the round settled, and is about to take the result. -/
  | overtaken
  | done (result : Except Fault (Verdict α))

/-- A round and everyone who takes part. -/
structure Session (ω α : Type) where
  round : Round ω α
  /-- Those whose ballots have not been delivered so far. -/
  unasked : List AgentId
  ballots : List Ballot := []
  waiter : Waiter α := .waiting
  history : List (Occurrence α) := []

/-- What anybody can do next. -/
inductive Event (ω α : Type) where
  /-- The next ballot is delivered, answered on delivery or lost on its way. -/
  | deliver (fate : BallotFate α)
  | affirm (ballot : Nat) (response : α)
  | reject (ballot : Nat)
  /-- A ballot goes away unanswered. -/
  | drop (ballot : Nat)
  /-- The waiting party looks for the result, and has `w` woken by it. -/
  | look (w : ω)
  /-- The waiting party runs out of time. -/
  | runOut
  | expire
  | take

namespace Session

/-- Opens a round among some voters, none of whom has been asked so far. -/
def open? (voters : List AgentId) (threshold : Nat) : Except Fault (Session ω α) :=
  match Round.open? voters.length threshold with
  | .ok round => .ok ⟨round, voters, [], .waiting, []⟩
  | .error why => .error why

/-- A vote on a ballot is recorded. -/
def vote (s : Session ω α) (ballot : Nat) (voter : AgentId) (answer : Option α) : Session ω α :=
  { s with
    round := (s.round.record voter answer).state
    history := s.history ++ [.vote ballot voter answer] }

/-- The next ballot leaves for its participant. -/
def deliver (s : Session ω α) (fate : BallotFate α) : Session ω α :=
  match s.unasked with
  | [] => s
  | voter :: rest =>
    let handed := fun isOpen => { s with unasked := rest, ballots := s.ballots ++ [⟨voter, isOpen⟩] }
    match fate.vote with
    | none => handed true
    | some answer => (handed false).vote s.ballots.length voter answer

/-- A ballot is answered or dropped. One that was answered before does nothing. -/
def answer (s : Session ω α) (ballot : Nat) (answer : Option α) : Session ω α :=
  match s.ballots[ballot]? with
  | some ⟨voter, true⟩ =>
    { s with ballots := s.ballots.set ballot ⟨voter, false⟩ }.vote ballot voter answer
  | _ => s

/-- The waiting party takes the result if it is there. -/
def look (s : Session ω α) (w : ω) : Session ω α :=
  match s.waiter with
  | .waiting =>
    match s.round.poll w with
    | (round, .ready result) => { s with round, waiter := .done result }
    | (round, .pending) => { s with round }
  | _ => s

/-- The waiting party runs out of time. -/
def runOut (s : Session ω α) : Session ω α :=
  match s.waiter with
  | .waiting => { s with waiter := .late }
  | _ => s

/-- The waiting party whose time is over settles the round, unless it is settled. -/
def expire (s : Session ω α) : Session ω α :=
  match s.waiter with
  | .late =>
    let (waiter, round) : Waiter α × Round ω α := match s.round.expire with
      | (round, some fault) => (.done (.error fault), round)
      | (round, none) => (.overtaken, round)
    { s with round, waiter, history := s.history ++ [.expired] }
  | _ => s

/-- The waiting party that found the round settled takes the result. -/
def take (s : Session ω α) : Session ω α :=
  match s.waiter with
  | .overtaken =>
    let (promise, result) := s.round.promise.tryTake
    { s with
      round := { s.round with promise }
      waiter := .done (result.getD (.error (.quorumFailure 0 s.round.threshold))) }
  | _ => s

/-- Lets one thing happen. What cannot happen changes nothing. -/
def next (s : Session ω α) : Event ω α → Session ω α
  | .deliver fate => s.deliver fate
  | .affirm ballot response => s.answer ballot (some response)
  | .reject ballot => s.answer ballot none
  | .drop ballot => s.answer ballot none
  | .look w => s.look w
  | .runOut => s.runOut
  | .expire => s.expire
  | .take => s.take

/-- Lets one thing happen after the other. -/
def run (s : Session ω α) (events : List (Event ω α)) : Session ω α := events.foldl next s

/-! ## What is kept -/

/-- An open round that agrees with what has happened. -/
structure InStep (participants threshold : Nat) (r : Round ω α) (h : List (Occurrence α)) :
    Prop where
  participants_eq : r.participants = participants
  threshold_eq : r.threshold = threshold
  undecided : Undecided participants threshold h
  settled_eq : r.isSettled = false
  slot_eq : r.promise.slot = .pending
  responses_eq : r.responses = affirmed h
  rejected_eq : r.rejected = rejected h

/-- How the round and the waiting party stand, given what has happened. -/
inductive Standing (participants threshold : Nat) (r : Round ω α) (h : List (Occurrence α))
    (waiter : Waiter α) : Prop where
  | undecided (hstep : InStep participants threshold r h)
      (hwaiter : waiter = .waiting ∨ waiter = .late)
  /-- The votes have decided, and the result is in the slot. -/
  | voted (result : Except Fault (Verdict α)) (hdecided : Decided participants threshold h result)
      (hsettled : r.isSettled = true) (hslot : r.promise.slot = .ready result)
      (hwaiter : waiter = .waiting ∨ waiter = .late ∨ waiter = .overtaken)
  /-- The waiting party has the result: from the slot, or from the deadline itself. -/
  | ended (result : Except Fault (Verdict α)) (hdecided : Decided participants threshold h result)
      (hsettled : r.isSettled = true) (hwaiter : waiter = .done result)

/-- What everything that happens among some voters keeps. -/
structure Kept (voters : List AgentId) (threshold : Nat) (s : Session ω α) : Prop where
  /-- The subtraction in the round's decision does not go below zero. -/
  rejected_le : s.round.rejected ≤ s.round.participants
  voters_eq : s.ballots.map (·.voter) ++ s.unasked = voters
  /-- The ballots that are no longer open are those that were answered. -/
  answered_iff : ∀ i, i ∈ answered s.history ↔ ∃ voter, s.ballots[i]? = some ⟨voter, false⟩
  /-- No ballot is counted twice. -/
  answered_once : (answered s.history).Nodup
  /-- A vote is counted for the participant whose ballot it came on. -/
  voter_eq : ∀ i voter answer, .vote i voter answer ∈ s.history → voters[i]? = some voter
  standing : Standing voters.length threshold s.round s.history s.waiter

/-! ## Votes -/

variable {participants threshold : Nat} {r : Round ω α} {h : List (Occurrence α)}

/-- A vote that decides, by the count, decides the history. -/
theorem InStep.decides (hr : InStep participants threshold r h) (ballot : Nat) {voter : AgentId}
    {answer : Option α} {result : Except Fault (Verdict α)}
    (hresult : (r.tally voter answer).decision = some result) :
    Decides participants threshold h (.vote ballot voter answer) result := by
  have hlt := hr.undecided.affirmed_lt
  have hle := hr.undecided.rejected_le
  -- an affirmation can only carry the round, a rejection only defeat it
  cases answer with
  | some response =>
      simp only [Round.decision, Round.tally, hr.responses_eq, hr.rejected_eq, hr.participants_eq,
        hr.threshold_eq, List.length_append, List.length_singleton] at hresult
      split at hresult
      · obtain rfl := Option.some.inj hresult
        exact .carried ballot voter response (by omega)
      · split at hresult
        · omega
        · exact nomatch hresult
  | none =>
      simp only [Round.decision, Round.tally, hr.responses_eq, hr.rejected_eq, hr.participants_eq,
        hr.threshold_eq] at hresult
      split at hresult
      · omega
      · split at hresult
        · obtain rfl := Option.some.inj hresult
          exact .defeated ballot voter (by omega)
        · exact nomatch hresult

/-- A vote that does not decide, by the count, leaves the history open. -/
theorem InStep.undecided_snoc (hr : InStep participants threshold r h) (ballot : Nat)
    {voter : AgentId} {answer : Option α} (hresult : (r.tally voter answer).decision = none) :
    Undecided participants threshold (h ++ [.vote ballot voter answer]) := by
  have hlt := hr.undecided.affirmed_lt
  have hle := hr.undecided.rejected_le
  simp only [Round.decision] at hresult
  split at hresult
  · exact nomatch hresult
  next hshort =>
  split at hresult
  · exact nomatch hresult
  next hbearable =>
  -- both bounds still leave room, whichever of them the vote has moved
  refine ⟨?_, ?_, by simpa using hr.undecided.unexpired⟩
  · cases answer with
    | some response =>
        simp only [Round.tally, hr.responses_eq, hr.threshold_eq, List.length_append,
          List.length_singleton] at hshort
        simp only [affirmed_snoc_affirmation, List.length_append, List.length_singleton]
        omega
    | none => simpa using hlt
  · cases answer with
    | some response => simpa using hle
    | none =>
        simp only [Round.tally, hr.rejected_eq, hr.threshold_eq, hr.participants_eq] at hbearable
        simp only [rejected_snoc_rejection]
        omega

theorem tally_responses (hr : InStep participants threshold r h) (ballot : Nat) (voter : AgentId)
    (answer : Option α) :
    (r.tally voter answer).responses = affirmed (h ++ [.vote ballot voter answer]) := by
  cases answer <;> simp [Round.tally, hr.responses_eq]

theorem tally_rejected (hr : InStep participants threshold r h) (ballot : Nat) (voter : AgentId)
    (answer : Option α) :
    (r.tally voter answer).rejected = rejected (h ++ [.vote ballot voter answer]) := by
  cases answer <;> simp [Round.tally, hr.rejected_eq]

/-- Recording a vote brings the round where the history is. -/
theorem Standing.record {waiter : Waiter α} (hs : Standing participants threshold r h waiter)
    (ballot : Nat) (voter : AgentId) (answer : Option α) :
    Standing participants threshold (r.record voter answer).state
      (h ++ [.vote ballot voter answer]) waiter := by
  -- an open round counts the vote and may be settled by it; a settled one ignores it
  cases hs with
  | undecided hstep hwaiter =>
      cases hdecision : (r.tally voter answer).decision with
      | none =>
          have hr' : (r.record voter answer).state = r.tally voter answer := by
            simp [Round.record, hstep.settled_eq, hdecision]
          rw [hr']
          refine .undecided ⟨?_, ?_, hstep.undecided_snoc ballot hdecision, ?_, ?_,
            tally_responses hstep ballot voter answer, tally_rejected hstep ballot voter answer⟩
            hwaiter
          · cases answer <;> exact hstep.participants_eq
          · cases answer <;> exact hstep.threshold_eq
          · cases answer <;> exact hstep.settled_eq
          · cases answer <;> exact hstep.slot_eq
      | some result =>
          have hslot : (r.tally voter answer).promise.slot = .pending := by
            cases answer <;> exact hstep.slot_eq
          have hr' : (r.record voter answer).state = { r.tally voter answer with
              isSettled := true
              promise := ((r.tally voter answer).promise.resolve result).state } := by
            simp [Round.record, hstep.settled_eq, hdecision]
          rw [hr']
          refine .voted result (hstep.undecided.decided_snoc (hstep.decides ballot hdecision))
            rfl (Promise.resolve_pending _ _ hslot).2 ?_
          exact hwaiter.imp_right Or.inl
  | voted result hdecided hsettled hslot hwaiter =>
      rw [Round.record_settled r voter answer hsettled]
      exact .voted result (hdecided.append _) hsettled hslot hwaiter
  | ended result hdecided hsettled hwaiter =>
      rw [Round.record_settled r voter answer hsettled]
      exact .ended result (hdecided.append _) hsettled hwaiter

/-- A vote does not count more rejections than there are participants. -/
theorem Standing.rejected_record_le {waiter : Waiter α}
    (hs : Standing participants threshold r h waiter) (hle : r.rejected ≤ r.participants)
    (voter : AgentId) (answer : Option α) :
    (r.record voter answer).state.rejected ≤ (r.record voter answer).state.participants := by
  by_cases hsettled : r.isSettled = true
  · rw [Round.record_settled r voter answer hsettled]
    exact hle
  · cases hs with
    | undecided hstep hwaiter =>
        have hlt := hstep.undecided.affirmed_lt
        have hroom := hstep.undecided.rejected_le
        have htally : (r.tally voter answer).rejected ≤ (r.tally voter answer).participants := by
          have hsame : (r.tally voter answer).participants = participants := by
            cases answer <;> exact hstep.participants_eq
          rw [tally_rejected hstep 0, hsame]
          cases answer <;> simp <;> omega
        rw [Bool.not_eq_true] at hsettled
        simp only [Round.record, hsettled]
        cases (r.tally voter answer).decision <;> exact htally
    | voted result hdecided hyes hslot hwaiter => exact absurd hyes hsettled
    | ended result hdecided hyes hwaiter => exact absurd hyes hsettled

/-! ## Ballots -/

variable {voters : List AgentId} {s : Session ω α}

/-- A ballot that is not among those answered before is answered now, whoever else was
handed one meanwhile. -/
theorem Kept.vote (hs : s.Kept voters threshold) {ballots : List Ballot} {unasked : List AgentId}
    {ballot : Nat} {voter : AgentId} (answer : Option α)
    (hvoters : ballots.map (·.voter) ++ unasked = voters)
    (hfresh : ballot ∉ answered s.history) (hspent : ballots[ballot]? = some ⟨voter, false⟩)
    (hothers : ∀ i, i ≠ ballot → ∀ b, b.isOpen = false →
      (ballots[i]? = some b ↔ s.ballots[i]? = some b)) :
    ({ s with ballots, unasked }.vote ballot voter answer).Kept voters threshold where
  rejected_le := hs.standing.rejected_record_le hs.rejected_le voter answer
  voters_eq := hvoters
  answered_iff := by
    intro i
    show i ∈ answered (s.history ++ [.vote ballot voter answer]) ↔ _
    rw [answered_snoc_vote, List.mem_append, List.mem_singleton, hs.answered_iff]
    by_cases hi : i = ballot
    · subst hi
      exact ⟨fun _ => ⟨voter, hspent⟩, fun _ => Or.inr rfl⟩
    · simp only [hi, or_false]
      exact exists_congr fun v => (hothers i hi _ rfl).symm
  answered_once := by
    show (answered (s.history ++ [.vote ballot voter answer])).Nodup
    rw [answered_snoc_vote]
    refine List.nodup_append.mpr ⟨hs.answered_once, List.pairwise_singleton _ _, ?_⟩
    rintro i hi j hj rfl
    exact hfresh (List.mem_singleton.mp hj ▸ hi)
  voter_eq := by
    intro i v a hvote
    rcases List.mem_append.mp hvote with hold | hnew
    · exact hs.voter_eq i v a hold
    · obtain ⟨rfl, rfl, rfl⟩ := Occurrence.vote.inj (List.mem_singleton.mp hnew)
      rw [← hvoters, List.getElem?_append_left, List.getElem?_map, hspent]
      · rfl
      · simpa using (List.getElem?_eq_some_iff.mp hspent).1
  standing := hs.standing.record ballot voter answer

/-- An answer to an open ballot is a vote; to a closed one it is nothing. -/
theorem Kept.answer (hs : s.Kept voters threshold) (ballot : Nat) (answer : Option α) :
    (s.answer ballot answer).Kept voters threshold := by
  unfold Session.answer
  split
  · next voter hopen =>
      have hfresh : ballot ∉ answered s.history := by
        intro hspent
        obtain ⟨v, hclosed⟩ := (hs.answered_iff ballot).mp hspent
        rw [hopen] at hclosed
        exact nomatch hclosed
      have hlength := (List.getElem?_eq_some_iff.mp hopen).1
      refine hs.vote answer ?_ hfresh (List.getElem?_set_self hlength) ?_
      · have hname : (s.ballots.map (·.voter))[ballot]? = some voter := by
          rw [List.getElem?_map, hopen]
          rfl
        obtain ⟨hlt, hvoter⟩ := List.getElem?_eq_some_iff.mp hname
        rw [← hs.voters_eq, List.map_set, ← hvoter, List.set_getElem_self]
      · intro i hi b hb
        rw [List.getElem?_set_ne (Ne.symm hi)]
  · exact hs

/-- A delivery opens a ballot, or votes at once for a participant that cannot be reached. -/
theorem Kept.deliver (hs : s.Kept voters threshold) (fate : BallotFate α) :
    (s.deliver fate).Kept voters threshold := by
  unfold Session.deliver
  split
  · exact hs
  next voter rest hunasked =>
  -- either way the participant moves from the unasked to the ballots
  have hvoters : ∀ isOpen : Bool,
      (s.ballots ++ [Ballot.mk voter isOpen]).map Ballot.voter ++ rest = voters := by
    intro isOpen
    rw [← hs.voters_eq, hunasked]
    simp
  have hothers : ∀ isOpen i, i ≠ s.ballots.length → ∀ b,
      ((s.ballots ++ [Ballot.mk voter isOpen])[i]? = some b ↔ s.ballots[i]? = some b) := by
    intro isOpen i hi b
    rw [List.getElem?_append]
    split
    · rfl
    · next hlt =>
        rw [List.getElem?_eq_none (by simp; omega), List.getElem?_eq_none (by omega)]
  dsimp only
  split
  · refine ⟨hs.rejected_le, hvoters true, ?_, hs.answered_once, hs.voter_eq, hs.standing⟩
    intro i
    rw [hs.answered_iff]
    refine exists_congr fun v => ?_
    by_cases hi : i = s.ballots.length
    · subst hi
      simp
    · exact (hothers true i hi _).symm
  · next answer _ =>
      refine hs.vote answer (hvoters false) ?_ (by simp) fun i hi b _ => hothers false i hi b
      intro hspent
      obtain ⟨v, hclosed⟩ := (hs.answered_iff _).mp hspent
      simp at hclosed

/-! ## The waiting party -/

/-- The waiting party moves, and no ballot is answered. -/
theorem Kept.moveOn (hs : s.Kept voters threshold) (more : List (Occurrence α))
    (hmore : ∀ x ∈ more, x = .expired) {round : Round ω α} {waiter : Waiter α}
    (hrejected : round.rejected ≤ round.participants)
    (hstanding : Standing voters.length threshold round (s.history ++ more) waiter) :
    ({ s with round, waiter, history := s.history ++ more } : Session ω α).Kept
      voters threshold := by
  have hanswered : answered (s.history ++ more) = answered s.history := by
    have hnone : answered more = [] := by
      refine List.filterMap_eq_nil_iff.mpr fun x hx => ?_
      rw [hmore x hx]
      rfl
    rw [answered, List.filterMap_append]
    exact (congrArg _ hnone).trans (List.append_nil _)
  refine ⟨hrejected, hs.voters_eq, ?_, ?_, ?_, hstanding⟩
  · exact fun i => hanswered ▸ hs.answered_iff i
  · exact hanswered ▸ hs.answered_once
  · intro i voter answer hvote
    rcases List.mem_append.mp hvote with hold | hnew
    · exact hs.voter_eq i voter answer hold
    · cases hmore _ hnew

/-- The waiting party moves, and nothing goes down in history. -/
theorem Kept.move (hs : s.Kept voters threshold) {round : Round ω α} {waiter : Waiter α}
    (hrejected : round.rejected ≤ round.participants)
    (hstanding : Standing voters.length threshold round s.history waiter) :
    ({ s with round, waiter } : Session ω α).Kept voters threshold := by
  simpa using hs.moveOn [] nofun hrejected (by simpa using hstanding)

theorem poll_pending (hslot : r.promise.slot = .pending) (w : ω) :
    r.poll w = ({ r with promise := { r.promise with waker := some w } }, .pending) := by
  simp [Round.poll, Promise.pollTake, hslot]

theorem poll_ready {result : Except Fault (Verdict α)} (hslot : r.promise.slot = .ready result)
    (w : ω) :
    r.poll w = ({ r with promise := { r.promise with slot := .taken } }, .ready result) := by
  cases result <;> simp [Round.poll, Promise.pollTake, hslot]

theorem tryTake_ready {result : Except Fault (Verdict α)} (hslot : r.promise.slot = .ready result) :
    r.promise.tryTake = ({ r.promise with slot := .taken }, some result) := by
  simp [Promise.tryTake, hslot]

/-- A look takes the result if there is one. -/
theorem Kept.look (hs : s.Kept voters threshold) (w : ω) : (s.look w).Kept voters threshold := by
  unfold Session.look
  split
  · next hwaiting =>
      cases hs.standing with
      | undecided hstep hwaiter =>
          rw [poll_pending hstep.slot_eq]
          obtain ⟨hn, ht, hopen, hsettled, hslot, hresponses, hrejected⟩ := hstep
          exact hs.move hs.rejected_le (.undecided ⟨hn, ht, hopen, hsettled, hslot, hresponses, hrejected⟩
            hwaiter)
      | voted result hdecided hsettled hslot hwaiter =>
          rw [poll_ready hslot]
          exact hs.move hs.rejected_le (.ended result hdecided hsettled rfl)
      | ended result hdecided hsettled hwaiter => exact nomatch hwaiting.symm.trans hwaiter
  · exact hs

/-- The waiter's time may run out. -/
theorem Kept.runOut (hs : s.Kept voters threshold) : s.runOut.Kept voters threshold := by
  unfold Session.runOut
  split
  · next hwaiting =>
      refine hs.move hs.rejected_le ?_
      cases hs.standing with
      | undecided hstep hwaiter => exact .undecided hstep (Or.inr rfl)
      | voted result hdecided hsettled hslot hwaiter =>
          exact .voted result hdecided hsettled hslot (Or.inr (Or.inl rfl))
      | ended result hdecided hsettled hwaiter => exact nomatch hwaiting.symm.trans hwaiter
  · exact hs

/-- The deadline decides a round that is open, and no other. -/
theorem Kept.expire (hs : s.Kept voters threshold) : s.expire.Kept voters threshold := by
  have hexpired : ∀ x ∈ [(.expired : Occurrence α)], x = .expired := by simp
  unfold Session.expire
  split
  · next hlate =>
      cases hs.standing with
      | undecided hstep hwaiter =>
          -- the deadline decides before the votes do
          have hdecides : Decides voters.length threshold s.history .expired _ := .lapsed
          have hexpire : s.round.expire = ({ s.round with isSettled := true },
              some (.quorumFailure (affirmed s.history).length threshold)) := by
            simp [Round.expire, hstep.settled_eq, hstep.responses_eq, hstep.threshold_eq]
          rw [hexpire]
          exact hs.moveOn [.expired] hexpired hs.rejected_le
            (.ended _ (hstep.undecided.decided_snoc hdecides) rfl rfl)
      | voted result hdecided hsettled hslot hwaiter =>
          rw [Round.expire_settled s.round hsettled]
          exact hs.moveOn [.expired] hexpired hs.rejected_le
            (.voted result (hdecided.append _) hsettled hslot (Or.inr (Or.inr rfl)))
      | ended result hdecided hsettled hwaiter => cases hlate.symm.trans hwaiter
  · exact hs

/-- After its time is over the waiter takes what there is. -/
theorem Kept.take (hs : s.Kept voters threshold) : s.take.Kept voters threshold := by
  unfold Session.take
  split
  · next hovertaken =>
      cases hs.standing with
      | undecided hstep hwaiter =>
          rcases hwaiter with hwaiter | hwaiter <;> exact nomatch hovertaken.symm.trans hwaiter
      | voted result hdecided hsettled hslot hwaiter =>
          rw [tryTake_ready hslot]
          exact hs.move hs.rejected_le (.ended result hdecided hsettled rfl)
      | ended result hdecided hsettled hwaiter => exact nomatch hovertaken.symm.trans hwaiter
  · exact hs

/-! ## Runs -/

/-- Nothing that can happen breaks what is kept. -/
theorem Kept.next (hs : s.Kept voters threshold) (event : Event ω α) :
    (s.next event).Kept voters threshold := by
  cases event with
  | deliver fate => exact hs.deliver fate
  | affirm ballot response => exact hs.answer ballot (some response)
  | reject ballot => exact hs.answer ballot none
  | drop ballot => exact hs.answer ballot none
  | look w => exact hs.look w
  | runOut => exact hs.runOut
  | expire => exact hs.expire
  | take => exact hs.take

/-- A run keeps the session in step with its history. -/
theorem Kept.run (hs : s.Kept voters threshold) (events : List (Event ω α)) :
    (s.run events).Kept voters threshold := by
  unfold Session.run
  induction events generalizing s with
  | nil => exact hs
  | cons event rest ih => exact ih (hs.next event)

/-- A round that has only just been opened, with all its ballots still to be delivered. -/
def opened (voters : List AgentId) (threshold : Nat) : Session ω α :=
  ⟨{ participants := voters.length, threshold }, voters, [], .waiting, []⟩

/-- A threshold within bounds opens the session. -/
theorem open?_eq_opened (hpos : 1 ≤ threshold) (hle : threshold ≤ voters.length) :
    open? voters threshold = .ok (opened voters threshold : Session ω α) := by
  have hzero : ¬ threshold = 0 := by omega
  have hfew : ¬ voters.length < threshold := by omega
  simp [open?, opened, Round.open?, hzero, hfew]

/-- A session that has just opened is in step. -/
theorem kept_opened (hpos : 1 ≤ threshold) (hle : threshold ≤ voters.length) :
    (opened voters threshold : Session ω α).Kept voters threshold := by
  refine ⟨Nat.zero_le _, rfl, ?_, List.nodup_nil, ?_, ?_⟩
  · intro i
    simp [opened, answered]
  · intro i voter answer hvote
    cases hvote
  · exact .undecided ⟨rfl, rfl, undecided_nil hpos hle, rfl, rfl, rfl, rfl⟩ (Or.inl rfl)

end Session

end Quorum

end Troupe
