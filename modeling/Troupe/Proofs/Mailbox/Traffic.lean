import Mathlib.Data.List.Basic
import Troupe.Mailbox.Basic
import Troupe.Proofs.Agent.Traffic

/-!
# Traffic at a mailbox

The operations of a mailbox are runs of the steps it is made of. Here the steps of several
calls mix: any number of sends and of requests to close, from anywhere, and the calls of
the one receiver, one after the other. Every call is written down when it returns.

* `enqueue_alone`, `dequeue_alone`, `pollDequeue_alone`, `close_alone` — a call that nobody
  interferes with is the operation of the mailbox.
-/

namespace Troupe

namespace Mailbox

variable {ω μ : Type}

/-! ## Calls in progress -/

/-- What a call returned with. -/
inductive Return (μ : Type) where
  /-- A send was accepted; this is the envelope as the mailbox numbered it. -/
  | sent (e : Envelope μ) (status : Status)
  | refused (refusal : Refusal (Envelope μ))
  | taken (e : Option (Envelope μ))
  | polled (e : Poll (Option (Envelope μ)))
  | closed

/-- A send in progress. -/
inductive SendCall (μ : Type) where
  /-- About to look whether the mailbox is closed. -/
  | checking (e : Envelope μ)
  /-- The mailbox was open: about to take a place. -/
  | reserving (e : Envelope μ)
  /-- There was none: about to count that. -/
  | rejecting (e : Envelope μ)
  | stamping (e : Envelope μ) (length : Nat)
  | pushing (e : Envelope μ) (length : Nat)
  /-- There was no slot: about to give the place back. -/
  | unreserving (e : Envelope μ)
  /-- Has pushed the envelope: about to count it. -/
  | counting (e : Envelope μ) (length : Nat)
  /-- About to engage backpressure, if it has to be. -/
  | engaging (e : Envelope μ) (length : Nat)
  /-- Did not engage it: about to look whether it is engaged. -/
  | looking (e : Envelope μ)
  /-- About to wake the receiver. -/
  | waking (e : Envelope μ) (status : Status)

/-- What a receive is part of. -/
inductive Look (ω : Type) where
  | single
  /-- A poll that has not registered yet. -/
  | first (w : ω)
  /-- A poll that has. -/
  | second

/-- A receive in progress. -/
inductive ReceiveCall (ω μ : Type) where
  | popping (look : Look ω)
  | releasing (look : Look ω) (e : Envelope μ)
  /-- Has given the place back: about to count the envelope. -/
  | counting (look : Look ω) (e : Envelope μ) (length : Nat)
  /-- About to clear backpressure, if it has to be. -/
  | clearing (look : Look ω) (e : Envelope μ) (length : Nat)
  | registering (w : ω)
  /-- Found nothing after it registered: about to look whether the mailbox is closed. -/
  | seeking
  /-- It is closed: about to look whether it is empty. -/
  | measuring

/-- A request to close in progress. -/
inductive CloseCall where
  | flagging
  /-- About to wake the receiver. -/
  | waking

/-- A step of a send: the call goes on or returns. -/
def SendCall.step (m : Mailbox ω μ) :
    SendCall μ → Outcome ω (Mailbox ω μ) (SendCall μ ⊕ Return μ)
  | .checking e => ⟨m, [], if m.isClosed then .inr (.refused (.closed e)) else .inl (.reserving e)⟩
  | .reserving e =>
    match m.reserve? with
    | none => ⟨m, [], .inl (.rejecting e)⟩
    | some (held, length) => ⟨held, [], .inl (.stamping e length)⟩
  | .rejecting e => ⟨m.reject, [], .inr (.refused (.full e m.marks.capacity))⟩
  | .stamping e length => ⟨(m.stamp e).1, [], .inl (.pushing (m.stamp e).2 length)⟩
  | .pushing e length =>
    match m.push? e with
    | none => ⟨m, [], .inl (.unreserving e)⟩
    | some pushed => ⟨pushed, [], .inl (.counting e length)⟩
  | .unreserving e => ⟨m.unreserve, [], .inr (.refused (.full e m.marks.capacity))⟩
  | .counting e length => ⟨m.accept, [], .inl (.engaging e length)⟩
  | .engaging e length =>
    if m.marks.high ≤ length ∧ m.isEngaged = false then
      ⟨(m.raise length).1, Effect.pressures (m.raise length).2.2, .inl (.waking e .engaged)⟩
    else ⟨m, [], .inl (.looking e)⟩
  | .looking e => ⟨m, [], .inl (.waking e (if m.isEngaged then .backpressured else .accepted))⟩
  | .waking e status => ⟨m.wake.1, Effect.wakes m.wake.2, .inr (.sent e status)⟩

/-- How a receive returns that has got something. -/
def Look.found (e : Envelope μ) : Look ω → Return μ
  | .single => .taken (some e)
  | .first _ | .second => .polled (.ready (some e))

/-- How a receive goes on that finds nothing. -/
def Look.missed : Look ω → ReceiveCall ω μ ⊕ Return μ
  | .single => .inr (.taken none)
  | .first w => .inl (.registering w)
  | .second => .inl .seeking

/-- A step of a receive. -/
def ReceiveCall.step (m : Mailbox ω μ) :
    ReceiveCall ω μ → Outcome ω (Mailbox ω μ) (ReceiveCall ω μ ⊕ Return μ)
  | .popping look =>
    match m.pop? with
    | none => ⟨m, [], look.missed⟩
    | some (popped, e) => ⟨popped, [], .inl (.releasing look e)⟩
  | .releasing look e => ⟨m.release.1, [], .inl (.counting look e m.release.2)⟩
  | .counting look e length => ⟨m.deliver, [], .inl (.clearing look e length)⟩
  | .clearing look e length =>
    ⟨(m.lower length).1, Effect.pressures (m.lower length).2, .inr (look.found e)⟩
  | .registering w => ⟨m.register w, [], .inl (.popping .second)⟩
  | .seeking => ⟨m, [], if m.isClosed then .inl .measuring else .inr (.polled .pending)⟩
  | .measuring => ⟨m, [], .inr (.polled (if m.isEmpty then .ready none else .pending))⟩

/-- A step of a request to close. -/
def CloseCall.step (m : Mailbox ω μ) :
    CloseCall → Outcome ω (Mailbox ω μ) (CloseCall ⊕ Return μ)
  | .flagging => ⟨{ m with isClosed := true }, [], .inl .waking⟩
  | .waking => ⟨m.wake.1, Effect.wakes m.wake.2, .inr .closed⟩

/-! ## Traffic -/

open Header.Traffic (replace replace_last)

/-- A mailbox, all calls in progress, and what came of those that are over. -/
structure Traffic (ω μ : Type) where
  mailbox : Mailbox ω μ
  sends : List (SendCall μ)
  receiver : Option (ReceiveCall ω μ)
  closes : List CloseCall
  effects : List (Effect ω)
  history : List (Return μ)

namespace Traffic

/-- A new mailbox. -/
def start (marks : Watermarks) : Traffic ω μ := ⟨.ofMarks marks, [], none, [], [], []⟩

/-- What can happen next. A call in progress is named by its place among its like. -/
inductive Action (ω μ : Type) where
  | callSend (e : Envelope μ)
  | send (index : Nat)
  /-- The receiver asks for the next message, once. -/
  | callDequeue
  /-- The receiver asks for the next message, or to be woken when there is one. -/
  | callPoll (w : ω)
  | receive
  | callClose
  | close (index : Nat)

/-- The receiver makes a call, unless it is in the middle of one. -/
def begin (s : Traffic ω μ) (look : Look ω) : Traffic ω μ :=
  match s.receiver with
  | none => { s with receiver := some (.popping look) }
  | some _ => s

def next (s : Traffic ω μ) : Action ω μ → Traffic ω μ
  | .callSend e => { s with sends := s.sends ++ [.checking e] }
  | .send index =>
    match s.sends[index]? with
    | none => s
    | some call =>
      let o := call.step s.mailbox
      { s with
        mailbox := o.state
        sends := replace s.sends index o.answer.getLeft?
        effects := s.effects ++ o.effects
        history := s.history ++ o.answer.getRight?.toList }
  | .callDequeue => s.begin .single
  | .callPoll w => s.begin (.first w)
  | .receive =>
    match s.receiver with
    | none => s
    | some call =>
      let o := call.step s.mailbox
      { s with
        mailbox := o.state
        receiver := o.answer.getLeft?
        effects := s.effects ++ o.effects
        history := s.history ++ o.answer.getRight?.toList }
  | .callClose => { s with closes := s.closes ++ [.flagging] }
  | .close index =>
    match s.closes[index]? with
    | none => s
    | some call =>
      let o := call.step s.mailbox
      { s with
        mailbox := o.state
        closes := replace s.closes index o.answer.getLeft?
        effects := s.effects ++ o.effects
        history := s.history ++ o.answer.getRight?.toList }

/-- What comes of actions one after another. -/
def run (s : Traffic ω μ) (actions : List (Action ω μ)) : Traffic ω μ := actions.foldl next s

/-- What holds at the start and is kept by every action holds after every run. -/
theorem run_invariant {P : Traffic ω μ → Prop} {s : Traffic ω μ} (hs : P s)
    (hnext : ∀ s action, P s → P (s.next action)) (actions : List (Action ω μ)) :
    P (s.run actions) := by
  induction actions generalizing s with
  | nil => exact hs
  | cons action rest ih => exact ih (hnext s action hs)

/-! ## Calls without interference -/

/-- How a send on its own returns. -/
def sendReturn (m : Mailbox ω μ) (e : Envelope μ) : Return μ :=
  match (m.enqueue e).answer with
  | .ok status => .sent (e.stamp m.nextSeq) status
  | .error refusal => .refused refusal

/-- A send from its first step to its last. -/
theorem enqueue_alone (s : Traffic ω μ) (e : Envelope μ) :
    ∃ steps, s.run (.callSend e :: List.replicate steps (.send s.sends.length)) = { s with
      mailbox := (s.mailbox.enqueue e).state
      effects := s.effects ++ (s.mailbox.enqueue e).effects
      history := s.history ++ [sendReturn s.mailbox e] } := by
  obtain ⟨m, sends, receiver, closes, effects, history⟩ := s
  -- by what its checks find: closed, no place, no slot, and then the watermark
  by_cases hc : m.isClosed = true
  · exact ⟨1, by simp [run, next, SendCall.step, sendReturn, enqueue, hc]⟩
  · by_cases hroom : m.reserved < m.marks.capacity
    · by_cases hslot : m.queue.length < m.marks.capacity
      · cases hengaged : m.isEngaged with
        | true => exact ⟨8, by
            simp [List.replicate, run, next, SendCall.step, sendReturn, enqueue, hc, reserve?,
              hroom, stamp, push?, hslot, accept, raise, hengaged, wake, Effect.pressures]⟩
        | false =>
            by_cases hhigh : m.marks.high ≤ m.reserved + 1
            · exact ⟨7, by
                simp [List.replicate, run, next, SendCall.step, sendReturn, enqueue, hc, reserve?,
                  hroom, stamp, push?, hslot, accept, raise, hengaged, hhigh, wake]⟩
            · exact ⟨8, by
                simp [List.replicate, run, next, SendCall.step, sendReturn, enqueue, hc, reserve?,
                  hroom, stamp, push?, hslot, accept, raise, hengaged, hhigh, wake,
                  Effect.pressures]⟩
      · exact ⟨5, by
          simp [List.replicate, run, next, SendCall.step, sendReturn, enqueue, hc, reserve?,
            hroom, stamp, push?, hslot, unreserve]⟩
    · exact ⟨3, by
        simp [List.replicate, run, next, SendCall.step, sendReturn, enqueue, hc, reserve?, hroom]⟩

/-- The receiver looks once, as part of a receive or a poll. -/
theorem look_alone (s : Traffic ω μ) (look : Look ω) (hs : s.receiver = some (.popping look)) :
    ∃ steps, s.run (List.replicate steps .receive) = { s with
      mailbox := s.mailbox.dequeue.state
      effects := s.effects ++ s.mailbox.dequeue.effects
      receiver := match s.mailbox.dequeue.answer with
        | some _ => none
        | none => (look.missed : ReceiveCall ω μ ⊕ Return μ).getLeft?
      history := s.history ++ match s.mailbox.dequeue.answer with
        | some e => [look.found e]
        | none => (look.missed : ReceiveCall ω μ ⊕ Return μ).getRight?.toList } := by
  obtain ⟨m, sends, receiver, closes, effects, history⟩ := s
  obtain rfl : receiver = some (.popping look) := hs
  -- it finds nothing in one step, and takes a message in four
  cases hq : m.queue with
  | nil => exact ⟨1, by simp [run, next, ReceiveCall.step, dequeue, pop?, hq]⟩
  | cons e rest =>
      exact ⟨4, by
        simp [List.replicate, run, next, ReceiveCall.step, dequeue, pop?, hq]⟩

/-- A receive from its first step to its last. -/
theorem dequeue_alone (s : Traffic ω μ) (hs : s.receiver = none) :
    ∃ steps, s.run (.callDequeue :: List.replicate steps .receive) = { s with
      mailbox := s.mailbox.dequeue.state
      effects := s.effects ++ s.mailbox.dequeue.effects
      history := s.history ++ [.taken s.mailbox.dequeue.answer] } := by
  obtain ⟨m, sends, receiver, closes, effects, history⟩ := s
  obtain rfl : receiver = none := hs
  obtain ⟨steps, h⟩ := look_alone
    (⟨m, sends, some (.popping .single), closes, effects, history⟩ : Traffic ω μ) .single rfl
  refine ⟨steps, h.trans ?_⟩
  cases m.dequeue.answer with
  | none => simp [Look.missed]
  | some e => simp [Look.found]

/-- A poll from its first step to its last. -/
theorem pollDequeue_alone (s : Traffic ω μ) (w : ω) (hs : s.receiver = none) :
    ∃ steps, s.run (.callPoll w :: List.replicate steps .receive) = { s with
      mailbox := (s.mailbox.pollDequeue w).state
      effects := s.effects ++ (s.mailbox.pollDequeue w).effects
      history := s.history ++ [.polled (s.mailbox.pollDequeue w).answer] } := by
  obtain ⟨m, sends, receiver, closes, effects, history⟩ := s
  obtain rfl : receiver = none := hs
  cases hq : m.queue with
  | nil =>
      -- a poll that found nothing twice asks whether more can come
      by_cases hc : m.isClosed = true
      · exact ⟨5, by
          simp [List.replicate, run, next, begin, ReceiveCall.step, Look.missed, pollDequeue,
            dequeue, pop?, hq, register, hc, isDrained, isEmpty, length]⟩
      · exact ⟨4, by
          simp [List.replicate, run, next, begin, ReceiveCall.step, Look.missed, pollDequeue,
            dequeue, pop?, hq, register, hc, isDrained]⟩
  | cons e rest =>
      exact ⟨4, by
        simp [List.replicate, run, next, begin, ReceiveCall.step, Look.found, pollDequeue,
          dequeue, pop?, hq]⟩

/-- A request to close from its first step to its last. -/
theorem close_alone (s : Traffic ω μ) :
    s.run [.callClose, .close s.closes.length, .close s.closes.length] = { s with
      mailbox := s.mailbox.close.state
      effects := s.effects ++ s.mailbox.close.effects
      history := s.history ++ [.closed] } := by
  simp [run, next, CloseCall.step, Mailbox.close, wake]

end Traffic

end Mailbox

end Troupe
