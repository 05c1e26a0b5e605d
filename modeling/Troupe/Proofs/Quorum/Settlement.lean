import Mathlib.Data.List.Perm.Subperm
import Mathlib.Data.List.Range
import Troupe.Proofs.Quorum.Session

/-!
# How a round is settled

Whoever takes part does what he can in any order. The round is settled at the moment at
which its history is decided, with that result, and the waiting party gets this result
whether it finds it or runs out of time first.

* `Kept.settled_of_answered` — a round whose ballots are all gone is settled;
* `deliverAll_eq_run`, `waitAlone_eq_run` — what is done in a row is a run of events;
* `run_isLawful` — every run of every session follows the rules.
-/

namespace Troupe

namespace Quorum

namespace Session

variable {ω α : Type} {voters : List AgentId} {threshold : Nat} {s : Session ω α}

/-! ## What is done in a row -/

/-- What becomes of the ballots when they are delivered one after the other. -/
def fates {σ π : Type} (deliver : σ → π → σ × BallotFate α) : List π → σ → List (BallotFate α)
  | [], _ => []
  | p :: rest, world => (deliver world p).2 :: fates deliver rest (deliver world p).1

/-- Delivering all ballots in a row is a run of deliveries. -/
theorem deliverAll_eq_run {σ π : Type} (voter : π → AgentId) (deliver : σ → π → σ × BallotFate α)
    (participants : List π) (world : σ) (h : s.unasked = participants.map voter) :
    (Round.deliverAll voter deliver participants world s.round).state.2 =
      (s.run ((fates deliver participants world).map .deliver)).round := by
  -- on the participants: each is one delivery of the session
  induction participants generalizing s world with
  | nil => rfl
  | cons p rest ih =>
      have hunasked : (s.deliver (deliver world p).2).unasked = rest.map voter := by
        unfold Session.deliver
        rw [h, List.map_cons]
        cases (deliver world p).2.vote <;> rfl
      have hrest := ih (deliver world p).1 hunasked
      refine Eq.trans ?_ hrest
      -- the round goes on to the next participant as the vote, if any, has left it
      unfold Session.deliver
      simp only [Round.deliverAll]
      rw [h, List.map_cons]
      cases (deliver world p).2.vote <;> rfl

/-- A wait during which nobody else acts is a run of the waiting party alone. -/
theorem waitAlone_eq_run (w : ω) (h : s.waiter = .waiting) :
    let alone := s.run [.look w, .runOut, .expire, .take]
    alone.waiter = .done (s.round.waitAlone w).2 ∧ alone.round = (s.round.waitAlone w).1 := by
  obtain ⟨round, unasked, ballots, waiter, history⟩ := s
  obtain rfl : waiter = .waiting := h
  simp only [Session.run, List.foldl_cons, List.foldl_nil, next, Session.look, Round.waitAlone]
  rcases round.poll w with ⟨polled, result | _⟩
  · exact ⟨rfl, rfl⟩
  · simp only [runOut, Session.expire, Round.giveUp, Round.expire]
    by_cases hsettled : polled.isSettled = true
    · simp [hsettled, Session.take]
    · simp [hsettled, Session.take]

/-! ## The rules -/

/-- The rules that a round among some voters follows, given what has happened. -/
structure IsLawful (voters : List AgentId) (threshold : Nat) (s : Session ω α) : Prop where
  /-- The round is settled as soon as its history is decided, and not before. -/
  settled_iff : s.round.isSettled = true ↔
    ∃ result, Decided voters.length threshold s.history result
  /-- What was decided lies ready until the waiting party has it. -/
  ready : ∀ result, Decided voters.length threshold s.history result →
    (∀ given, s.waiter ≠ .done given) → s.round.promise.slot = .ready result
  /-- What the waiting party was given is what was decided. -/
  given : ∀ result, s.waiter = .done result → Decided voters.length threshold s.history result
  /-- A waiting party whose time is over gets what was decided by then. -/
  giveUp : (∀ given, s.waiter ≠ .done given) →
    Decided voters.length threshold (s.history ++ [.expired]) s.round.giveUp.2
  /-- The number of those who may still affirm never falls below zero. -/
  rejected_le : s.round.rejected ≤ s.round.participants
  /-- No ballot is counted twice. -/
  answered_once : (answered s.history).Nodup
  /-- A vote is counted for the participant whose ballot it came on. -/
  voter_eq : ∀ i voter answer, .vote i voter answer ∈ s.history → voters[i]? = some voter
  /-- Once all ballots are answered, dropped or lost, the round is settled. -/
  settled_of_answered : s.unasked = [] → (∀ b ∈ s.ballots, b.isOpen = false) →
    s.round.isSettled = true

/-- A round whose ballots are all gone is settled. -/
theorem Kept.settled_of_answered (hs : s.Kept voters threshold) (hasked : s.unasked = [])
    (hclosed : ∀ b ∈ s.ballots, b.isOpen = false) : s.round.isSettled = true := by
  cases hs.standing with
  | undecided hstep hwaiter =>
      have hcount : s.ballots.length = voters.length := by
        rw [← hs.voters_eq, hasked]
        simp
      -- every ballot there is was answered
      have hall : List.range s.ballots.length ⊆ answered s.history := by
        intro i hi
        have hlt := List.mem_range.mp hi
        refine (hs.answered_iff i).mpr ⟨s.ballots[i].voter, ?_⟩
        rw [List.getElem?_eq_getElem hlt, ← hclosed _ (List.getElem_mem hlt)]
      have hmany := (List.nodup_range.subperm hall).length_le
      have hvotes := length_answered s.history
      have hlt := hstep.undecided.affirmed_lt
      have hle := hstep.undecided.rejected_le
      rw [List.length_range] at hmany
      omega
  | voted result hdecided hsettled hslot hwaiter => exact hsettled
  | ended result hdecided hsettled hwaiter => exact hsettled

/-- Whoever gives up gets what was decided by then. -/
theorem Kept.decided_giveUp (hs : s.Kept voters threshold)
    (hwaits : ∀ given, s.waiter ≠ .done given) :
    Decided voters.length threshold (s.history ++ [.expired]) s.round.giveUp.2 := by
  cases hs.standing with
  | undecided hstep hwaiter =>
      have hgiveUp : s.round.giveUp.2 =
          .error (.quorumFailure (affirmed s.history).length threshold) := by
        simp [Round.giveUp, Round.expire, hstep.settled_eq, hstep.responses_eq, hstep.threshold_eq]
      rw [hgiveUp]
      exact hstep.undecided.decided_snoc .lapsed
  | voted result hdecided hsettled hslot hwaiter =>
      have hgiveUp : s.round.giveUp.2 = result := by
        simp [Round.giveUp, Round.expire_settled s.round hsettled, tryTake_ready hslot]
      rw [hgiveUp]
      exact hdecided.append _
  | ended result hdecided hsettled hwaiter => exact absurd hwaiter (hwaits result)

/-- A session in step with its history is lawful. -/
theorem Kept.isLawful (hs : s.Kept voters threshold) : s.IsLawful voters threshold where
  settled_iff := by
    -- on where the round stands, here and in the other points
    cases hs.standing with
    | undecided hstep hwaiter =>
        refine ⟨fun hsettled => ?_, fun ⟨result, hdecided⟩ => ?_⟩
        · rw [hstep.settled_eq] at hsettled
          exact nomatch hsettled
        · exact absurd hstep.undecided hdecided.not_undecided
    | voted result hdecided hsettled hslot hwaiter =>
        exact ⟨fun _ => ⟨result, hdecided⟩, fun _ => hsettled⟩
    | ended result hdecided hsettled hwaiter =>
        exact ⟨fun _ => ⟨result, hdecided⟩, fun _ => hsettled⟩
  ready := by
    intro result hdecided hwaits
    cases hs.standing with
    | undecided hstep hwaiter => exact absurd hstep.undecided hdecided.not_undecided
    | voted result' hdecided' hsettled hslot hwaiter => exact hdecided.unique hdecided' ▸ hslot
    | ended result' hdecided' hsettled hwaiter => exact absurd hwaiter (hwaits result')
  given := by
    intro result hgiven
    cases hs.standing with
    | undecided hstep hwaiter =>
        rcases hwaiter with hwaiter | hwaiter <;> exact nomatch hwaiter.symm.trans hgiven
    | voted result' hdecided' hsettled hslot hwaiter =>
        rcases hwaiter with hwaiter | hwaiter | hwaiter <;>
          exact nomatch hwaiter.symm.trans hgiven
    | ended result' hdecided hsettled hwaiter =>
        exact Waiter.done.inj (hwaiter.symm.trans hgiven) ▸ hdecided
  giveUp := hs.decided_giveUp
  rejected_le := hs.rejected_le
  answered_once := hs.answered_once
  voter_eq := hs.voter_eq
  settled_of_answered := hs.settled_of_answered

/-- What happens is added to the history. -/
theorem history_next (s : Session ω α) (event : Event ω α) :
    ∃ later, (s.next event).history = s.history ++ later := by
  have hanswer : ∀ ballot answer, ∃ later, (s.answer ballot answer).history = s.history ++ later := by
    intro ballot answer
    unfold Session.answer
    split
    · exact ⟨_, rfl⟩
    · exact ⟨[], (List.append_nil _).symm⟩
  have hsame : ∃ later, s.history = s.history ++ later := ⟨[], (List.append_nil _).symm⟩
  -- votes and the deadline are written down, nothing is ever struck out
  cases event with
  | deliver fate =>
      simp only [next, Session.deliver]
      split
      · exact hsame
      · split
        · exact hsame
        · exact ⟨_, rfl⟩
  | affirm ballot response => exact hanswer ballot (some response)
  | reject ballot => exact hanswer ballot none
  | drop ballot => exact hanswer ballot none
  | look w =>
      simp only [next, Session.look]
      split
      · split <;> exact hsame
      · exact hsame
  | runOut =>
      simp only [next, Session.runOut]
      split <;> exact hsame
  | expire =>
      simp only [next, Session.expire]
      split
      · exact ⟨_, rfl⟩
      · exact hsame
  | take =>
      simp only [next, Session.take]
      split <;> exact hsame

/-- The history of a run only grows. -/
theorem history_run (s : Session ω α) (events : List (Event ω α)) :
    ∃ later, (s.run events).history = s.history ++ later := by
  unfold Session.run
  induction events generalizing s with
  | nil => exact ⟨[], (List.append_nil _).symm⟩
  | cons event rest ih =>
      obtain ⟨now, hnow⟩ := history_next s event
      obtain ⟨later, hlater⟩ := ih (s.next event)
      exact ⟨now ++ later, by rw [List.foldl_cons, hlater, hnow, List.append_assoc]⟩

/-- A round that is settled stays settled, with the same result. -/
theorem decided_run_iff {result : Except Fault (Verdict α)}
    (hdecided : Decided voters.length threshold s.history result) (more : List (Event ω α))
    (result' : Except Fault (Verdict α)) :
    Decided voters.length threshold (s.run more).history result' ↔ result' = result := by
  obtain ⟨later, hlater⟩ := history_run s more
  have hstill : Decided voters.length threshold (s.run more).history result :=
    hlater ▸ hdecided.append later
  exact ⟨fun h => h.unique hstill, fun h => h ▸ hstill⟩

/-- A round with a positive threshold within reach opens, and whatever its voters and the
waiting party do, it is settled once: by what decides its history first. -/
theorem run_isLawful {voters : List AgentId} {threshold : Nat} (hpos : 1 ≤ threshold)
    (hle : threshold ≤ voters.length) :
    open? voters threshold = .ok (opened voters threshold : Session ω α) ∧
      ∀ events : List (Event ω α),
        ((opened voters threshold).run events).IsLawful voters threshold ∧
        ∀ result, Decided voters.length threshold ((opened voters threshold).run events).history
            result →
          ∀ more result', Decided voters.length threshold
            ((opened voters threshold).run (events ++ more)).history result' ↔ result' = result := by
  refine ⟨open?_eq_opened hpos hle, fun events => ⟨?_, ?_⟩⟩
  · exact ((kept_opened hpos hle).run events).isLawful
  · intro result hdecided more result'
    rw [Session.run, List.foldl_append]
    exact decided_run_iff hdecided more result'

/-- Two affirmations among three ballots, the second of them on its way while the waiting
party is already out of time; one ballot is lost, and one is answered twice. -/
def closeCall : List (Event Unit Nat) :=
  [.deliver .held, .affirm 0 10, .deliver (.lost .mailboxClosed), .affirm 0 11, .deliver .held,
    .look (), .runOut, .affirm 2 30, .expire, .reject 2, .take]

/-- A vote too late for the deadline but in time for the last look carries the round. -/
theorem run_isLawful_closeCall :
    (1 ≤ 2 ∧ 2 ≤ [AgentId.mk 1, ⟨2⟩, ⟨1⟩].length) ∧
      ((opened [⟨1⟩, ⟨2⟩, ⟨1⟩] 2).run closeCall).IsLawful [⟨1⟩, ⟨2⟩, ⟨1⟩] 2 ∧
      ((opened [⟨1⟩, ⟨2⟩, ⟨1⟩] 2).run closeCall).waiter =
        .done (.ok ⟨[(⟨1⟩, 10), (⟨1⟩, 30)], 1, 3⟩) :=
  ⟨⟨by decide, by decide⟩, ((run_isLawful (by decide) (by decide)).2 closeCall).1, rfl⟩

end Session

end Quorum

end Troupe
