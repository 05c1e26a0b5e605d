import Troupe.Proofs.Channel.Run
import Troupe.Time.Clock

/-!
# Waiting on a channel for a limited time

A receiver that waits polls, reads the clock and sleeps until it is woken or the deadline
has come, over and over. While nobody else acts all these polls find the same, so the wait
comes down to one poll and the clock:

* `pollUntil_eq` — the polls of a wait are one;
* `receiveWithin_cons` — a queued message is received before the clock is looked at;
* `receiveWithin_nil` — without one the end of the stream, the deadline, or neither is reached.
-/

namespace Troupe

namespace Channel

variable {κ ω μ : Type}

/-! ## Polls and the clock -/

/-- Polls until there is an answer, or the clock has reached the deadline after a poll. The
readings are those after each poll; where they end, the wait goes on. -/
def pollUntil (c : Channel κ ω μ) (w : ω) (deadline : Instant) :
    List Instant → Outcome ω (Channel κ ω μ) (Option (Poll (Option (Envelope μ))))
  | [] =>
    let o := c.poll w
    match o.answer with
    | .ready found => ⟨o.state, o.effects, some (.ready found)⟩
    | .pending => ⟨o.state, o.effects, none⟩
  | now :: readings =>
    let o := c.poll w
    match o.answer with
    | .ready found => ⟨o.state, o.effects, some (.ready found)⟩
    | .pending =>
      if deadline ≤ now then ⟨o.state, o.effects, some .pending⟩
      else
        let later := o.state.pollUntil w deadline readings
        ⟨later.state, o.effects ++ later.effects, later.answer⟩

/-- Receives, or waits for `allowed` from `started` on; no answer means that the wait goes on. -/
def receiveWithin (c : Channel κ ω μ) (w : ω) (allowed : Span) (started : Instant)
    (readings : List Instant) :
    Outcome ω (Channel κ ω μ) (Option (Except Fault (Envelope μ))) :=
  reworded (Option.map (received allowed))
    (c.pollUntil w (deadlineAfter started allowed) readings)

variable {c : Channel κ ω μ}

/-- A poll of an empty queue leaves its waker, and answers the end of a closed channel. -/
theorem poll_nil (hqueue : c.mailbox.queue = []) (w : ω) :
    c.poll w = ⟨{ c with mailbox := c.mailbox.register w }, [],
      if c.mailbox.isDrained then .ready none else .pending⟩ := by
  rw [poll, Mailbox.pollDequeue_nil hqueue]
  rfl

/-- A poll of any other queue answers its head. -/
theorem poll_cons {e : Envelope μ} {rest : List (Envelope μ)}
    (hqueue : c.mailbox.queue = e :: rest) (w : ω) : (c.poll w).answer = .ready (some e) := by
  rw [poll, Mailbox.pollDequeue_cons hqueue]
  rfl

/-- A poll that has to wait leaves its waker, and the next one finds the same. -/
theorem poll_again {w : ω} (hpending : (c.poll w).answer = .pending) :
    (c.poll w).state.poll w = c.poll w ∧ (c.poll w).effects = [] := by
  cases hqueue : c.mailbox.queue with
  | nil =>
      have hafter : (c.poll w).state.mailbox.queue = [] := by
        rw [poll_nil hqueue]
        exact hqueue
      rw [poll_nil hafter, poll_nil hqueue]
      exact ⟨rfl, rfl⟩
  | cons e rest => exact nomatch hpending.symm.trans (poll_cons hqueue w)

/-- What a wait has come to after its last poll. -/
def waited (deadline : Instant) (readings : List Instant) :
    Poll (Option (Envelope μ)) → Option (Poll (Option (Envelope μ)))
  | .ready found => some (.ready found)
  | .pending => if readings.any (deadline ≤ ·) then some .pending else none

/-- While nobody else acts, all polls of a wait are the same. -/
theorem pollUntil_eq (c : Channel κ ω μ) (w : ω) (deadline : Instant) (readings : List Instant) :
    c.pollUntil w deadline readings =
      ⟨(c.poll w).state, (c.poll w).effects, waited deadline readings (c.poll w).answer⟩ := by
  induction readings generalizing c with
  | nil =>
      cases hanswer : (c.poll w).answer with
      | ready found => simp [pollUntil, hanswer, waited]
      | pending => simp [pollUntil, hanswer, waited]
  | cons now readings ih =>
      cases hanswer : (c.poll w).answer with
      | ready found => simp [pollUntil, hanswer, waited]
      | pending =>
          -- the next poll starts from where this one left off, and finds the same
          obtain ⟨hagain, hquiet⟩ := poll_again hanswer
          by_cases hnow : deadline ≤ now
          · simp [pollUntil, hanswer, waited, hnow]
          · simp [pollUntil, hanswer, waited, hnow, ih, hagain, hquiet]

/-- A wait is one poll, of whose answer the readings may make a timeout. -/
theorem receiveWithin_eq (c : Channel κ ω μ) (w : ω) (allowed : Span) (started : Instant)
    (readings : List Instant) :
    c.receiveWithin w allowed started readings =
      ⟨(c.poll w).state, (c.poll w).effects,
        (waited (deadlineAfter started allowed) readings (c.poll w).answer).map
          (received allowed)⟩ := by
  rw [receiveWithin, pollUntil_eq]
  rfl

/-- A queued message is received, whatever the clock says. -/
theorem receiveWithin_cons {e : Envelope μ} {rest : List (Envelope μ)}
    (hqueue : c.mailbox.queue = e :: rest) (w : ω) (allowed : Span) (started : Instant)
    (readings : List Instant) :
    (c.receiveWithin w allowed started readings).answer = some (.ok e) := by
  rw [receiveWithin_eq, poll_cons hqueue]
  rfl

/-- Without a message, the end of a closed channel comes before the deadline. -/
theorem receiveWithin_nil (hqueue : c.mailbox.queue = []) (w : ω) (allowed : Span)
    (started : Instant) (readings : List Instant) :
    (c.receiveWithin w allowed started readings).answer =
      if c.mailbox.isDrained then some (.error .mailboxClosed)
      else if readings.any (deadlineAfter started allowed ≤ ·) then
        some (.error (.awaitTimeout allowed))
      else none := by
  rw [receiveWithin_eq, poll_nil hqueue]
  by_cases hdrained : c.mailbox.isDrained = true
  · simp [hdrained, waited, received]
  · by_cases hlate : readings.any (deadlineAfter started allowed ≤ ·) = true
    · simp only [hdrained, waited, hlate]
      rfl
    · simp only [hdrained, waited, hlate]
      rfl

end Channel

end Troupe
