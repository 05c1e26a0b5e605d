import Mathlib.Data.List.Permutation
import Troupe.Proofs.Agent.Overtaking
import Troupe.Proofs.Mailbox.Traffic

/-!
# The end of the stream

A receiver that finds its mailbox closed and empty is told that nothing more will come. By
then every message that had a place has been handed out. But a send looks whether the
mailbox is closed before it takes a place: one that stands between the two takes its place
in a closed mailbox, and nobody is there to receive its message.

* `outlet_send`, `outlet_receive` — what got in leaves in order, whatever calls mix;
* `Kept.next` — a place taken is a message queued, or one on its way in or out;
* `Sealed.next` — in a closed mailbox, who has not passed the look is turned away;
* `isFinal_iff_no_straggler` — the end of the stream is final exactly if no send stands
  between its look and its place.
-/

namespace Troupe

namespace Mailbox

variable {ω μ : Type}

open Header.Traffic (replace mem_replace sum_replace)

/-! ## What calls hold -/

/-- The message that a call handed out. -/
def Return.delivered? : Return μ → Option (Envelope μ)
  | taken e => e
  | polled (.ready e) => e
  | _ => none

/-- The messages that were handed out. -/
def delivered (history : List (Return μ)) : List (Envelope μ) := history.filterMap Return.delivered?

namespace SendCall

/-- How many places a send has taken that its message is not in. -/
def places : SendCall μ → Nat
  | stamping _ _ | pushing _ _ | unreserving _ => 1
  | _ => 0

/-- The message of a send that has got in. -/
def pushed? : SendCall μ → Option (Envelope μ)
  | counting e _ | engaging e _ | looking e | waking e _ => some e
  | _ => none

/-- The message that gets in by the next step of a send. -/
def entering? (m : Mailbox ω μ) : SendCall μ → Option (Envelope μ)
  | pushing e _ => if m.queue.length < m.marks.capacity then some e else none
  | _ => none

/-- Whether a send has seen the mailbox open and has no place yet. -/
def isPastLook : SendCall μ → Bool
  | reserving _ => true
  | _ => false

/-- Whether a send is refused for sure once the mailbox is closed. -/
def isRefused : SendCall μ → Bool
  | checking _ | rejecting _ => true
  | _ => false

end SendCall

namespace ReceiveCall

/-- The message that the receiver has taken out and not returned with. -/
def hand? : ReceiveCall ω μ → Option (Envelope μ)
  | releasing _ e | counting _ e _ | clearing _ e _ => some e
  | _ => none

/-- How many places the receiver has emptied and not given back. -/
def places : ReceiveCall ω μ → Nat
  | releasing _ _ => 1
  | _ => 0

end ReceiveCall

/-! ## What a step can do -/

/-- What a step of a send does to a mailbox, and how the send goes on. -/
structure SendCall.Move (m : Mailbox ω μ) (call : SendCall μ)
    (o : Outcome ω (Mailbox ω μ) (SendCall μ ⊕ Return μ)) : Prop where
  marks : o.state.marks = m.marks
  isClosed : o.state.isClosed = m.isClosed
  nextSeq : m.nextSeq ≤ o.state.nextSeq
  queue : o.state.queue = m.queue ++ (call.entering? m).toList
  places : call.places ≤ m.reserved →
    o.state.reserved + m.queue.length + call.places =
      m.reserved + o.state.queue.length + (o.answer.getLeft?.toList.map SendCall.places).sum
  stamped : ∀ e length, o.answer = .inl (.pushing e length) → e.seq < o.state.nextSeq
  pushed : ∀ next, o.answer = .inl next → next.pushed? = call.pushed?.or (call.entering? m)
  refused : ∀ next, o.answer = .inl next → m.isClosed = true → call.isRefused = false
  silent : ∀ result, o.answer = .inr result → result.delivered? = none
  sent : ∀ e status, o.answer = .inr (.sent e status) → call.pushed? = some e

/-- A step of a send is a move of the mailbox, whatever the others do in between. -/
theorem SendCall.step_move (m : Mailbox ω μ) (call : SendCall μ) : Move m call (call.step m) := by
  -- on the point of the call: only reservation, push and its undoing change the places
  cases call with
  | checking e =>
      cases hclosed : m.isClosed with
      | true => constructor <;> simp [step, hclosed, entering?, places, pushed?, Return.delivered?]
      | false => constructor <;> simp [step, hclosed, entering?, places, pushed?]
  | reserving e =>
      by_cases hroom : m.reserved < m.marks.capacity
      · constructor <;> simp [step, reserve?, hroom, entering?, places, pushed?, isRefused]
        case places => omega
      · constructor <;> simp [step, reserve?, hroom, entering?, places, pushed?, isRefused]
  | pushing e length =>
      by_cases hslot : m.queue.length < m.marks.capacity
      · constructor <;> simp [step, push?, hslot, entering?, places, pushed?, isRefused]
        case places => omega
      · constructor <;> simp [step, push?, hslot, entering?, places, pushed?, isRefused]
  | engaging e length =>
      by_cases hraise : m.marks.high ≤ length ∧ m.isEngaged = false
      · constructor <;> simp [step, hraise, raise, entering?, places, pushed?, isRefused]
      · constructor <;> simp [step, hraise, entering?, places, pushed?, isRefused]
  | stamping e length =>
      constructor <;> simp [step, stamp, Envelope.stamp, entering?, places, pushed?, isRefused]
  | unreserving e =>
      constructor <;> simp [step, unreserve, entering?, places, pushed?, isRefused,
        Return.delivered?]
      case places => omega
  | rejecting e | counting e length | looking e | waking e status =>
      constructor <;> simp [step, reject, accept, wake, entering?, places, pushed?, isRefused,
        Return.delivered?]

/-- What a step of a receive does to a mailbox, and how the receive goes on. -/
structure ReceiveCall.Move (m : Mailbox ω μ) (call : ReceiveCall ω μ)
    (o : Outcome ω (Mailbox ω μ) (ReceiveCall ω μ ⊕ Return μ)) : Prop where
  marks : o.state.marks = m.marks
  isClosed : o.state.isClosed = m.isClosed
  nextSeq : o.state.nextSeq = m.nextSeq
  queue : delivered o.answer.getRight?.toList ++ (o.answer.getLeft?.bind hand?).toList ++
    o.state.queue = call.hand?.toList ++ m.queue
  places : call.places ≤ m.reserved →
    o.state.reserved + m.queue.length + call.places =
      m.reserved + o.state.queue.length + (o.answer.getLeft?.toList.map ReceiveCall.places).sum
  silent : ∀ e status, o.answer ≠ .inr (.sent e status)
  measuring : o.answer = .inl .measuring → m.isClosed = true
  ended : o.answer = .inr (.polled (.ready none)) → call = .measuring ∧ m.isEmpty = true

/-- A step of a receive is a move of the mailbox. -/
theorem ReceiveCall.step_move (m : Mailbox ω μ) (call : ReceiveCall ω μ) :
    Move m call (call.step m) := by
  -- on the point of the call: only the pop and the release change the places
  cases call with
  | popping look =>
      cases hqueue : m.queue with
      | nil =>
          cases look with
          | _ =>
            constructor <;> simp [step, pop?, hqueue, Look.missed, delivered, Return.delivered?,
              hand?, places]
      | cons e rest =>
          constructor <;> simp [step, pop?, hqueue, delivered, hand?, places]
          case places => omega
  | clearing look e length =>
      by_cases hlower : length ≤ m.marks.low ∧ m.isEngaged = true
      · cases look with
        | _ =>
          constructor <;> simp [step, lower, hlower, Look.found, delivered, Return.delivered?,
            hand?, places]
      · cases look with
        | _ =>
          constructor <;> simp [step, lower, hlower, Look.found, delivered, Return.delivered?,
            hand?, places]
  | seeking =>
      cases hclosed : m.isClosed with
      | true => constructor <;> simp [step, hclosed, delivered, hand?, places]
      | false => constructor <;> simp [step, hclosed, delivered, Return.delivered?, hand?, places]
  | measuring =>
      cases hempty : m.isEmpty with
      | true => constructor <;> simp [step, hempty, delivered, Return.delivered?, hand?, places]
      | false => constructor <;> simp [step, hempty, delivered, Return.delivered?, hand?, places]
  | releasing look e =>
      constructor <;> simp [step, release, delivered, hand?, places]
      case places => omega
  | counting look e length | registering w =>
      constructor <;> simp [step, deliver, register, delivered, hand?, places]

/-- What a step of a request to close does to a mailbox. -/
structure CloseCall.Move (m : Mailbox ω μ)
    (o : Outcome ω (Mailbox ω μ) (CloseCall ⊕ Return μ)) : Prop where
  marks : o.state.marks = m.marks
  isClosed : m.isClosed = true → o.state.isClosed = true
  nextSeq : o.state.nextSeq = m.nextSeq
  queue : o.state.queue = m.queue
  reserved : o.state.reserved = m.reserved
  returned : ∀ result, o.answer = .inr result → result = .closed

theorem CloseCall.step_move (m : Mailbox ω μ) (call : CloseCall) : Move m (call.step m) := by
  cases call with
  | _ => constructor <;> simp [step, wake]

theorem SendCall.entering?_eq_some {m : Mailbox ω μ} {call : SendCall μ} {e : Envelope μ}
    (h : call.entering? m = some e) : ∃ length, call = .pushing e length := by
  cases call with
  | pushing arriving length =>
      simp only [entering?, Option.ite_none_right_eq_some, Option.some.injEq] at h
      exact ⟨length, by rw [h.2]⟩
  | _ => exact nomatch h

theorem SendCall.pushed?_of_isRefused {call : SendCall μ} (h : call.isRefused = true) :
    call.pushed? = none := by
  cases call with
  | checking e | rejecting e => rfl
  | _ => exact nomatch h

namespace Traffic

/-- The message that the receiver has taken out and not returned with. -/
def hand (s : Traffic ω μ) : List (Envelope μ) := (s.receiver.bind ReceiveCall.hand?).toList

/-- All messages that have ever got in, in this order: those that were handed out, the one
that the receiver has in hand, and the queue. -/
def outlet (s : Traffic ω μ) : List (Envelope μ) :=
  delivered s.history ++ s.hand ++ s.mailbox.queue

/-- How many places the sends have taken that their messages are not in. -/
def onWayIn (s : Traffic ω μ) : Nat := (s.sends.map SendCall.places).sum

/-- How many places the receiver has emptied and not given back. -/
def onWayOut (s : Traffic ω μ) : Nat := (s.receiver.toList.map ReceiveCall.places).sum

theorem delivered_append (before after : List (Return μ)) :
    delivered (before ++ after) = delivered before ++ delivered after :=
  List.filterMap_append

/-! ## What an action can do -/

variable {s : Traffic ω μ}

theorem next_send {index : Nat} {call : SendCall μ} (hcall : s.sends[index]? = some call) :
    s.next (.send index) = { s with
      mailbox := (call.step s.mailbox).state
      sends := replace s.sends index (call.step s.mailbox).answer.getLeft?
      effects := s.effects ++ (call.step s.mailbox).effects
      history := s.history ++ (call.step s.mailbox).answer.getRight?.toList } := by
  simp only [next, hcall]

theorem next_send_none {index : Nat} (hcall : s.sends[index]? = none) :
    s.next (.send index) = s := by
  simp only [next, hcall]

theorem next_receive {call : ReceiveCall ω μ} (hcall : s.receiver = some call) :
    s.next .receive = { s with
      mailbox := (call.step s.mailbox).state
      receiver := (call.step s.mailbox).answer.getLeft?
      effects := s.effects ++ (call.step s.mailbox).effects
      history := s.history ++ (call.step s.mailbox).answer.getRight?.toList } := by
  simp only [next, hcall]

theorem next_receive_none (hcall : s.receiver = none) : s.next .receive = s := by
  simp only [next, hcall]

theorem next_close {index : Nat} {call : CloseCall} (hcall : s.closes[index]? = some call) :
    s.next (.close index) = { s with
      mailbox := (call.step s.mailbox).state
      closes := replace s.closes index (call.step s.mailbox).answer.getLeft?
      effects := s.effects ++ (call.step s.mailbox).effects
      history := s.history ++ (call.step s.mailbox).answer.getRight?.toList } := by
  simp only [next, hcall]

theorem next_close_none {index : Nat} (hcall : s.closes[index]? = none) :
    s.next (.close index) = s := by
  simp only [next, hcall]

/-! ## Places -/

/-- The mailbox is as the calls at it know it to be. -/
structure Kept (s : Traffic ω μ) : Prop where
  /-- A place taken is a message queued, or one on its way in or out. -/
  reserved : s.mailbox.reserved = s.mailbox.queue.length + s.onWayIn + s.onWayOut
  numbered : ∀ e ∈ s.outlet, e.seq < s.mailbox.nextSeq
  stamped : ∀ e length, .pushing e length ∈ s.sends → e.seq < s.mailbox.nextSeq
  pushed : ∀ call ∈ s.sends, ∀ e, call.pushed? = some e → e ∈ s.outlet
  sent : ∀ e status, .sent e status ∈ s.history → e ∈ s.outlet
  measuring : s.receiver = some .measuring → s.mailbox.isClosed = true

theorem kept_start (marks : Watermarks) : (start marks : Traffic ω μ).Kept := by
  constructor <;> simp [start, ofMarks, onWayIn, onWayOut, outlet, hand, delivered]

/-- A send puts its message behind all that have got in. -/
theorem outlet_send {index : Nat} {call : SendCall μ} (hcall : s.sends[index]? = some call) :
    (s.next (.send index)).outlet = s.outlet ++ (call.entering? s.mailbox).toList := by
  have hmove := call.step_move s.mailbox
  have hsilent : delivered (call.step s.mailbox).answer.getRight?.toList = [] := by
    cases hanswer : (call.step s.mailbox).answer with
    | inl after => rfl
    | inr result => simp [delivered, hmove.silent result hanswer]
  rw [next_send hcall]
  simp only [outlet, hand, delivered_append, hsilent, hmove.queue, List.append_nil,
    List.append_assoc]

/-- The receiver takes the messages out in their order. -/
theorem outlet_receive (s : Traffic ω μ) : (s.next .receive).outlet = s.outlet := by
  cases hcall : s.receiver with
  | none => rw [next_receive_none hcall]
  | some call =>
      have hqueue := (call.step_move s.mailbox).queue
      rw [next_receive hcall]
      simp only [outlet, hand, hcall, delivered_append, Option.bind_some, List.append_assoc]
        at hqueue ⊢
      rw [hqueue]

/-- Closing changes nothing of what comes out. -/
theorem outlet_close (s : Traffic ω μ) (index : Nat) :
    (s.next (.close index)).outlet = s.outlet := by
  cases hcall : s.closes[index]? with
  | none => rw [next_close_none hcall]
  | some call =>
      have hmove := call.step_move s.mailbox
      have hsilent : delivered (call.step s.mailbox).answer.getRight?.toList = [] := by
        cases hanswer : (call.step s.mailbox).answer with
        | inl after => rfl
        | inr result => rw [hmove.returned result hanswer]; rfl
      rw [next_close hcall]
      simp only [outlet, hand, delivered_append, hsilent, hmove.queue, List.append_nil]

/-- A step of a send keeps the places, numbers and promises of the traffic. -/
theorem Kept.send (hs : s.Kept) (index : Nat) : (s.next (.send index)).Kept := by
  cases hcall : s.sends[index]? with
  | none => rwa [next_send_none hcall]
  | some call =>
      have hmove := call.step_move s.mailbox
      have hmem : call ∈ s.sends := List.mem_of_getElem? hcall
      have houtlet := outlet_send hcall
      -- the places on the way in are those of this call and of the rest
      obtain ⟨rest, hplaces, hplaces'⟩ := sum_replace SendCall.places hcall
      have hin : s.onWayIn = rest + call.places := hplaces
      have hreserved := hs.reserved
      constructor
      · have hbalance := hmove.places (by omega)
        rw [next_send hcall]
        simp only [onWayIn, hplaces']
        simp only [onWayOut] at hreserved ⊢
        omega
      · intro e he
        rw [houtlet, List.mem_append, Option.mem_toList] at he
        rw [next_send hcall]
        refine Nat.lt_of_lt_of_le ?_ hmove.nextSeq
        rcases he with hold | hentering
        · exact hs.numbered e hold
        · obtain ⟨length, rfl⟩ := SendCall.entering?_eq_some hentering
          exact hs.stamped e length hmem
      · intro e length he
        rw [next_send hcall] at he ⊢
        rcases mem_replace he with hold | hafter
        · exact Nat.lt_of_lt_of_le (hs.stamped e length hold) hmove.nextSeq
        · exact hmove.stamped e length (Sum.getLeft?_eq_some_iff.mp hafter)
      · intro other hother e he
        rw [houtlet, List.mem_append, Option.mem_toList]
        rw [next_send hcall] at hother
        rcases mem_replace hother with hold | hafter
        · exact .inl (hs.pushed other hold e he)
        · rw [hmove.pushed other (Sum.getLeft?_eq_some_iff.mp hafter), Option.or_eq_some_iff] at he
          exact he.imp (hs.pushed call hmem e) And.right
      · intro e status he
        rw [houtlet]
        rw [next_send hcall, List.mem_append, Option.mem_toList, Sum.getRight?_eq_some_iff] at he
        refine List.mem_append_left _ ?_
        rcases he with hold | hreturned
        · exact hs.sent e status hold
        · exact hs.pushed call hmem e (hmove.sent e status hreturned)
      · rw [next_send hcall]
        exact fun hreceiver => hmove.isClosed.trans (hs.measuring hreceiver)

/-- A step of a receive keeps them. -/
theorem Kept.receive (hs : s.Kept) : (s.next .receive).Kept := by
  cases hcall : s.receiver with
  | none => rwa [next_receive_none hcall]
  | some call =>
      have hmove := call.step_move s.mailbox
      have houtlet := outlet_receive s
      have hreserved := hs.reserved
      have hout : s.onWayOut = call.places := by simp [onWayOut, hcall]
      constructor
      · have hbalance := hmove.places (by omega)
        rw [next_receive hcall]
        simp only [onWayIn, onWayOut] at hreserved hout ⊢
        omega
      · rw [houtlet, next_receive hcall]
        rw [hmove.nextSeq]
        exact hs.numbered
      · rw [next_receive hcall, hmove.nextSeq]
        exact hs.stamped
      · rw [houtlet, next_receive hcall]
        exact hs.pushed
      · intro e status he
        rw [houtlet]
        rw [next_receive hcall, List.mem_append, Option.mem_toList, Sum.getRight?_eq_some_iff] at he
        rcases he with hold | hreturned
        · exact hs.sent e status hold
        · exact absurd hreturned (hmove.silent e status)
      · intro hreceiver
        rw [next_receive hcall] at hreceiver ⊢
        exact hmove.isClosed.trans (hmove.measuring (Sum.getLeft?_eq_some_iff.mp hreceiver))

/-- A step of a close keeps them. -/
theorem Kept.close (hs : s.Kept) (index : Nat) : (s.next (.close index)).Kept := by
  cases hcall : s.closes[index]? with
  | none => rwa [next_close_none hcall]
  | some call =>
      have hmove := call.step_move s.mailbox
      have houtlet := outlet_close s index
      constructor
      · rw [next_close hcall, hmove.queue, hmove.reserved]
        exact hs.reserved
      · rw [houtlet, next_close hcall, hmove.nextSeq]
        exact hs.numbered
      · rw [next_close hcall, hmove.nextSeq]
        exact hs.stamped
      · rw [houtlet, next_close hcall]
        exact hs.pushed
      · intro e status he
        rw [houtlet]
        rw [next_close hcall, List.mem_append, Option.mem_toList, Sum.getRight?_eq_some_iff] at he
        rcases he with hold | hreturned
        · exact hs.sent e status hold
        · exact nomatch hmove.returned _ hreturned
      · rw [next_close hcall]
        exact fun hreceiver => hmove.isClosed (hs.measuring hreceiver)

/-- The receiver that makes a call has nothing in hand yet. -/
theorem Kept.begin (hs : s.Kept) (look : Look ω) : (s.begin look).Kept := by
  unfold Traffic.begin
  split
  · next hcall =>
      obtain ⟨mailbox, sends, receiver, closes, effects, history⟩ := s
      obtain rfl : receiver = none := hcall
      exact ⟨hs.reserved, hs.numbered, hs.stamped, hs.pushed, hs.sent, fun h => nomatch h⟩
  · exact hs

/-- Every action keeps them. -/
theorem Kept.next (hs : s.Kept) (action : Action ω μ) : (s.next action).Kept := by
  cases action with
  | send index => exact hs.send index
  | receive => exact hs.receive
  | close index => exact hs.close index
  | callClose => exact ⟨hs.reserved, hs.numbered, hs.stamped, hs.pushed, hs.sent, hs.measuring⟩
  | callSend e =>
      have hin : (s.next (.callSend e)).onWayIn = s.onWayIn := by
        simp [Traffic.next, onWayIn, SendCall.places]
      refine ⟨hin ▸ hs.reserved, hs.numbered, fun e' length he => ?_, fun call hcall => ?_, hs.sent,
        hs.measuring⟩
      · exact hs.stamped e' length (by simpa [Traffic.next] using he)
      · rcases List.mem_append.mp hcall with hold | hnew
        · exact hs.pushed call hold
        · rw [List.mem_singleton.mp hnew]
          intro e he
          cases he
  | callDequeue => exact hs.begin .single
  | callPoll w => exact hs.begin (.first w)

/-- No action changes the watermarks. -/
theorem marks_next (s : Traffic ω μ) (action : Action ω μ) :
    (s.next action).mailbox.marks = s.mailbox.marks := by
  cases action with
  | send index =>
      cases hcall : s.sends[index]? with
      | none => rw [next_send_none hcall]
      | some call => rw [next_send hcall, (call.step_move s.mailbox).marks]
  | receive =>
      cases hcall : s.receiver with
      | none => rw [next_receive_none hcall]
      | some call => rw [next_receive hcall, (call.step_move s.mailbox).marks]
  | close index =>
      cases hcall : s.closes[index]? with
      | none => rw [next_close_none hcall]
      | some call => rw [next_close hcall, (call.step_move s.mailbox).marks]
  | callSend | callClose => rfl
  | callDequeue | callPoll =>
      simp only [Traffic.next, begin]
      split
      · rfl
      · rfl

theorem kept_run (marks : Watermarks) (actions : List (Action ω μ)) :
    ((start marks).run actions).Kept :=
  run_invariant (kept_start marks) (fun _ action hs => hs.next action) actions

theorem marks_run (marks : Watermarks) (actions : List (Action ω μ)) :
    ((start marks).run actions).mailbox.marks = marks :=
  run_invariant (P := fun s => s.mailbox.marks = marks) rfl
    (fun s action hs => (marks_next s action).trans hs) actions

/-! ## The end of the stream -/

/-- The next step of the receiver answers that nothing more will come. -/
def Ends (s : Traffic ω μ) : Prop :=
  (s.next .receive).history = s.history ++ [.polled (.ready none)]

/-- No message but those handed out by now is ever accepted. -/
def IsFinal (s : Traffic ω μ) : Prop :=
  ∀ more e status, .sent e status ∈ (s.run more).history → e ∈ delivered s.history

/-- No send returns with success any more. -/
def IsLast (s : Traffic ω μ) : Prop :=
  ∀ more later, (s.run more).history = s.history ++ later → ∀ e status, .sent e status ∉ later

/-- The mailbox is closed, no place is taken, and all that got in was handed out. -/
structure IsOver (s : Traffic ω μ) : Prop where
  kept : s.Kept
  isClosed : s.mailbox.isClosed = true
  reserved : s.mailbox.reserved = 0
  outlet_eq : s.outlet = delivered s.history

/-- Once a poll has been told the end, what was accepted has come out and nothing is in. -/
theorem Kept.isOver (hs : s.Kept) (hends : s.Ends) : (s.next .receive).IsOver := by
  have hkept := hs.receive
  unfold Ends at hends
  cases hcall : s.receiver with
  | none =>
      rw [next_receive_none hcall] at hends
      simp at hends
  | some call =>
      have hmove := call.step_move s.mailbox
      rw [next_receive hcall] at hends hkept ⊢
      have hanswer : (call.step s.mailbox).answer = .inr (.polled (.ready none)) := by
        have hresult := List.append_cancel_left hends
        rw [← Sum.getRight?_eq_some_iff, ← Option.mem_toList, hresult]
        exact List.mem_singleton_self _
      -- the end is told on an empty mailbox that was closed when it was measured
      obtain ⟨rfl, hempty⟩ := hmove.ended hanswer
      have hreserved : s.mailbox.reserved = 0 := by simpa [isEmpty, length] using hempty
      have hqueue : s.mailbox.queue = [] := by
        have hbalance := hs.reserved
        rw [← List.length_eq_zero_iff]
        omega
      refine ⟨hkept, hs.measuring hcall, hreserved, ?_⟩
      simp only [outlet, hand, ReceiveCall.step, hempty, hqueue, if_true, Sum.getLeft?_inr,
        Option.bind_none, Option.toList_none, List.append_nil]

/-- All that was accepted was handed out. -/
theorem IsOver.complete (hs : s.IsOver) {e : Envelope μ} {status : Status}
    (hsent : .sent e status ∈ s.history) : e ∈ delivered s.history :=
  hs.outlet_eq ▸ hs.kept.sent e status hsent

/-- Who does not stand between its look and its place is refused or has got in. -/
theorem IsOver.settled (hs : s.IsOver) {call : SendCall μ} (hcall : call ∈ s.sends) :
    call.isPastLook = true ∨ call.isRefused = true ∨
      ∃ e ∈ delivered s.history, call.pushed? = some e := by
  have hplaces : call.places = 0 := by
    obtain ⟨index, hindex⟩ := List.mem_iff_getElem?.mp hcall
    obtain ⟨rest, hin, -⟩ := sum_replace SendCall.places hindex
    have hbalance := hs.kept.reserved
    rw [hs.reserved, onWayIn, hin] at hbalance
    omega
  have hpushed := hs.kept.pushed call hcall
  rw [hs.outlet_eq] at hpushed
  -- no place is taken any more, so a send is before its place, refused, or has pushed
  cases call with
  | reserving e => exact .inl rfl
  | checking e | rejecting e => exact .inr (.inl rfl)
  | stamping e length | pushing e length | unreserving e => exact nomatch hplaces
  | counting e length | engaging e length | looking e | waking e status =>
      exact .inr (.inr ⟨e, hpushed e rfl, rfl⟩)

/-- A closed mailbox from some time on: who has not got in is turned away, so whatever is
accepted since is among the messages given. -/
structure Sealed (given : List (Envelope μ)) (before : List (Return μ)) (s : Traffic ω μ) :
    Prop where
  isClosed : s.mailbox.isClosed = true
  settled : ∀ call ∈ s.sends, call.isRefused = true ∨ ∃ e ∈ given, call.pushed? = some e
  since : ∃ later, s.history = before ++ later ∧ ∀ e status, .sent e status ∈ later → e ∈ given

section Sealed

variable {given : List (Envelope μ)} {before : List (Return μ)}

/-- A send of a sealed traffic adds nothing that was not given already. -/
theorem Sealed.send (hs : Sealed given before s) (index : Nat) :
    Sealed given before (s.next (.send index)) := by
  cases hcall : s.sends[index]? with
  | none => rwa [next_send_none hcall]
  | some call =>
      have hmove := call.step_move s.mailbox
      have hsettled := hs.settled call (List.mem_of_getElem? hcall)
      obtain ⟨later, hlater, haccepted⟩ := hs.since
      rw [next_send hcall]
      refine ⟨hmove.isClosed.trans hs.isClosed, ?_, ?_⟩
      · intro other hother
        rcases mem_replace hother with hold | hafter
        · exact hs.settled other hold
        · have hafter := Sum.getLeft?_eq_some_iff.mp hafter
          -- it is refused, or what it returns was pushed before the seal
          rcases hsettled with hrefused | ⟨e, he, hpushed⟩
          · exact nomatch hrefused.symm.trans (hmove.refused other hafter hs.isClosed)
          · exact .inr ⟨e, he, by rw [hmove.pushed other hafter, hpushed, Option.some_or]⟩
      · refine ⟨later ++ (call.step s.mailbox).answer.getRight?.toList, ?_, ?_⟩
        · rw [hlater, List.append_assoc]
        · intro e status hsent
          rw [List.mem_append, Option.mem_toList, Sum.getRight?_eq_some_iff] at hsent
          rcases hsent with hold | hreturned
          · exact haccepted e status hold
          · have hpushed := hmove.sent e status hreturned
            rcases hsettled with hrefused | ⟨e', he', hpushed'⟩
            · exact nomatch hpushed.symm.trans (SendCall.pushed?_of_isRefused hrefused)
            · obtain rfl : e = e' := Option.some.inj (hpushed.symm.trans hpushed')
              exact he'

/-- Only sends return with success. -/
theorem Sealed.other {s' : Traffic ω μ} (hs : Sealed given before s)
    (hclosed : s'.mailbox.isClosed = true) (hsends : s'.sends = s.sends)
    {results : List (Return μ)} (hhistory : s'.history = s.history ++ results)
    (hresults : ∀ e status, .sent e status ∉ results) : Sealed given before s' := by
  obtain ⟨later, hlater, haccepted⟩ := hs.since
  refine ⟨hclosed, hsends ▸ hs.settled, later ++ results, ?_, ?_⟩
  · rw [hhistory, hlater, List.append_assoc]
  · intro e status hsent
    rcases List.mem_append.mp hsent with hold | hnew
    · exact haccepted e status hold
    · exact absurd hnew (hresults e status)

/-- Every action keeps the seal. -/
theorem Sealed.next (hs : Sealed given before s) (action : Action ω μ) :
    Sealed given before (s.next action) := by
  cases action with
  | send index => exact hs.send index
  | callSend e =>
      refine ⟨hs.isClosed, fun call hcall => ?_, hs.since⟩
      rcases List.mem_append.mp hcall with hold | hnew
      · exact hs.settled call hold
      · exact .inl (List.mem_singleton.mp hnew ▸ rfl)
  | receive =>
      cases hcall : s.receiver with
      | none => rwa [next_receive_none hcall]
      | some call =>
          have hmove := call.step_move s.mailbox
          rw [next_receive hcall]
          refine hs.other (hmove.isClosed.trans hs.isClosed) rfl rfl fun e status hsent => ?_
          rw [Option.mem_toList, Sum.getRight?_eq_some_iff] at hsent
          exact hmove.silent e status hsent
  | close index =>
      cases hcall : s.closes[index]? with
      | none => rwa [next_close_none hcall]
      | some call =>
          have hmove := call.step_move s.mailbox
          rw [next_close hcall]
          refine hs.other (hmove.isClosed hs.isClosed) rfl rfl fun e status hsent => ?_
          rw [Option.mem_toList, Sum.getRight?_eq_some_iff] at hsent
          exact nomatch hmove.returned _ hsent
  | callClose => exact ⟨hs.isClosed, hs.settled, hs.since⟩
  | callDequeue | callPoll =>
      simp only [Traffic.next, begin]
      split
      · exact ⟨hs.isClosed, hs.settled, hs.since⟩
      · exact hs

theorem Sealed.run (hs : Sealed given before s) (actions : List (Action ω μ)) :
    Sealed given before (s.run actions) :=
  run_invariant hs (fun _ action hs => hs.next action) actions

end Sealed

/-! ## Stragglers -/

/-- Some actions lead to the success of a send, and to no other return before. -/
def Admits (s : Traffic ω μ) (e : Envelope μ) : Prop :=
  ∃ more status, (s.run more).history = s.history ++ [.sent e status]

section Admits

variable {index : Nat} {e : Envelope μ}

/-- While something may still be accepted the end is not the last word. -/
theorem Admits.not_isLast (h : s.Admits e) : ¬ s.IsLast := by
  obtain ⟨more, status, hmore⟩ := h
  intro hlast
  exact hlast more _ hmore e status (List.mem_singleton_self _)

/-- While something may still be accepted that is not given yet the end is not final. -/
theorem Admits.not_isFinal (h : s.Admits e) (hnew : e ∉ delivered s.history) : ¬ s.IsFinal := by
  obtain ⟨more, status, hmore⟩ := h
  intro hfinal
  refine hnew (hfinal more e status ?_)
  rw [hmore]
  exact List.mem_append_right _ (List.mem_singleton_self _)

/-- A send that goes on can make its next step. -/
theorem admits_of_next {call after : SendCall μ} (hcall : s.sends[index]? = some call)
    (hanswer : (call.step s.mailbox).answer = .inl after)
    (h : ∀ s' : Traffic ω μ, s'.sends[index]? = some after →
      s'.mailbox = (call.step s.mailbox).state → s'.Admits e) : s.Admits e := by
  have hlt : index < s.sends.length := (List.getElem?_eq_some_iff.mp hcall).1
  have hnext := next_send hcall
  rw [hanswer, Sum.getLeft?_inl, Sum.getRight?_inl, Option.toList_none, List.append_nil] at hnext
  have hback : (s.next (.send index)).sends[index]? = some after := by
    rw [hnext]
    simp [replace, Nat.min_eq_left hlt.le]
  obtain ⟨more, status, hmore⟩ := h (s.next (.send index)) hback (by rw [hnext])
  refine ⟨.send index :: more, status, hmore.trans ?_⟩
  rw [hnext]

theorem admits_waking {status : Status} (hcall : s.sends[index]? = some (.waking e status)) :
    s.Admits e :=
  ⟨[.send index], status, congrArg Traffic.history (next_send hcall)⟩

theorem admits_looking (hcall : s.sends[index]? = some (.looking e)) : s.Admits e :=
  admits_of_next hcall rfl fun _ h _ => admits_waking h

theorem admits_engaging {length : Nat} (hcall : s.sends[index]? = some (.engaging e length)) :
    s.Admits e := by
  by_cases hraise : s.mailbox.marks.high ≤ length ∧ s.mailbox.isEngaged = false
  · have hanswer : ((SendCall.engaging e length).step s.mailbox).answer =
        .inl (.waking e .engaged) := by
      simp only [SendCall.step, if_pos hraise]
    exact admits_of_next hcall hanswer fun _ h _ => admits_waking h
  · have hanswer : ((SendCall.engaging e length).step s.mailbox).answer = .inl (.looking e) := by
      simp only [SendCall.step, if_neg hraise]
    exact admits_of_next hcall hanswer fun _ h _ => admits_looking h

theorem admits_counting {length : Nat} (hcall : s.sends[index]? = some (.counting e length)) :
    s.Admits e :=
  admits_of_next hcall rfl fun _ h _ => admits_engaging h

/-- A send whose message has got in can return with success. -/
theorem admits_of_pushed {call : SendCall μ} (hcall : s.sends[index]? = some call)
    (hpushed : call.pushed? = some e) : s.Admits e := by
  cases call with
  | counting e' length => exact Option.some.inj hpushed ▸ admits_counting hcall
  | engaging e' length => exact Option.some.inj hpushed ▸ admits_engaging hcall
  | looking e' => exact Option.some.inj hpushed ▸ admits_looking hcall
  | waking e' status => exact Option.some.inj hpushed ▸ admits_waking hcall
  | _ => exact nomatch hpushed

theorem admits_pushing {length : Nat} (hcall : s.sends[index]? = some (.pushing e length))
    (hslot : s.mailbox.queue.length < s.mailbox.marks.capacity) : s.Admits e := by
  have hanswer : ((SendCall.pushing e length).step s.mailbox).answer = .inl (.counting e length) := by
    simp only [SendCall.step, push?, if_pos hslot]
  exact admits_of_next hcall hanswer fun _ h _ => admits_counting h

/-- A send that stands between its look and its place can still succeed. -/
theorem admits_of_isPastLook (hcall : s.sends[index]? = some (.reserving e))
    (hroom : s.mailbox.reserved < s.mailbox.marks.capacity)
    (hslot : s.mailbox.queue.length < s.mailbox.marks.capacity) :
    s.Admits (e.stamp s.mailbox.nextSeq) := by
  have hstep : (SendCall.reserving e).step s.mailbox =
      ⟨{ s.mailbox with reserved := s.mailbox.reserved + 1 }, [],
        .inl (.stamping e (s.mailbox.reserved + 1))⟩ := by
    simp only [SendCall.step, reserve?, if_pos hroom]
  refine admits_of_next hcall (congrArg Outcome.answer hstep) fun s' h hheld => ?_
  rw [hstep] at hheld
  have hseq : s'.mailbox.nextSeq = s.mailbox.nextSeq := by rw [hheld]
  rw [← hseq]
  refine admits_of_next h rfl fun s'' h' hnumbered => admits_pushing h' ?_
  rw [hnumbered, hheld]
  exact hslot

end Admits

/-! ## What the end of the stream promises -/

/-- A send that stands between its look and its place takes a place that is free. -/
theorem IsOver.admits (hs : s.IsOver) (hmarks : s.mailbox.marks.Valid) {call : SendCall μ}
    (hcall : call ∈ s.sends) (hpast : call.isPastLook = true) :
    ∃ e, e.seq = s.mailbox.nextSeq ∧ s.Admits e := by
  obtain ⟨index, hindex⟩ := List.mem_iff_getElem?.mp hcall
  cases call with
  | reserving e =>
      have hbalance := hs.kept.reserved
      have hreserved := hs.reserved
      obtain ⟨hlow, hhigh⟩ := hmarks
      exact ⟨_, rfl, admits_of_isPastLook hindex (by omega) (by omega)⟩
  | _ => exact nomatch hpast

/-- The end is final exactly if no send is past its look at the closed flag. -/
theorem IsOver.isFinal_iff (hs : s.IsOver) (hmarks : s.mailbox.marks.Valid) :
    s.IsFinal ↔ ∀ call ∈ s.sends, call.isPastLook = false := by
  constructor
  · intro hfinal call hcall
    by_contra hpast
    obtain ⟨e, hseq, hadmits⟩ := hs.admits hmarks hcall (Bool.eq_true_of_not_eq_false hpast)
    refine hadmits.not_isFinal (fun hgiven => ?_) hfinal
    have hlt : e.seq < s.mailbox.nextSeq := hs.kept.numbered e (hs.outlet_eq ▸ hgiven)
    omega
  -- conversely all sends are refused or have pushed what was given
  · intro hnone more e status hsent
    have hsealed : Sealed (delivered s.history) [] s := by
      refine ⟨hs.isClosed, fun call hcall => ?_, s.history, rfl, fun e status => hs.complete⟩
      exact (hs.settled hcall).resolve_left (by simp [hnone call hcall])
    obtain ⟨later, hlater, haccepted⟩ := (hsealed.run more).since
    rw [hlater] at hsent
    exact haccepted e status hsent

/-- The end is the last word exactly if all sends that go on are refused. -/
theorem IsOver.isLast_iff (hs : s.IsOver) (hmarks : s.mailbox.marks.Valid) :
    s.IsLast ↔ ∀ call ∈ s.sends, call.isRefused = true := by
  constructor
  · intro hlast call hcall
    rcases hs.settled hcall with hpast | hrefused | ⟨e, -, hpushed⟩
    · obtain ⟨e, -, hadmits⟩ := hs.admits hmarks hcall hpast
      exact absurd hlast hadmits.not_isLast
    · exact hrefused
    · obtain ⟨index, hindex⟩ := List.mem_iff_getElem?.mp hcall
      exact absurd hlast (admits_of_pushed hindex hpushed).not_isLast
  · intro hrefused more later hlater e status hsent
    have hsealed : Sealed [] s.history s :=
      ⟨hs.isClosed, fun call hcall => .inl (hrefused call hcall), [], by simp, by simp⟩
    obtain ⟨later', hlater', haccepted⟩ := (hsealed.run more).since
    obtain rfl : later = later' := List.append_cancel_left (hlater.symm.trans hlater')
    exact nomatch haccepted e status hsent

/-- Whatever calls are made and however their steps mix: when the receiver is told that
nothing more will come, it has been handed every message accepted so far. That no other
message is ever accepted holds exactly if no send stands between its look whether the mailbox
is closed and its place; that no send returns with success any more, exactly if all sends in
progress are refused. -/
theorem isFinal_iff_no_straggler {marks : Watermarks} (hmarks : marks.Valid)
    (actions : List (Action ω μ)) (hends : ((start marks).run actions).Ends) :
    let s := ((start marks).run actions).next .receive
    (∀ e status, .sent e status ∈ s.history → e ∈ delivered s.history) ∧
      (s.IsFinal ↔ ∀ call ∈ s.sends, call.isPastLook = false) ∧
      (s.IsLast ↔ ∀ call ∈ s.sends, call.isRefused = true) := by
  intro s
  have hs : s.IsOver := (kept_run marks actions).isOver hends
  have hsame : s.mailbox.marks = marks := (marks_next _ _).trans (marks_run marks actions)
  have hvalid : s.mailbox.marks.Valid := hsame ▸ hmarks
  exact ⟨fun e status => hs.complete, hs.isFinal_iff hvalid, hs.isLast_iff hvalid⟩

/-- A send that has got its message in, but has not woken the receiver yet, is not lost at the
end of the stream, though it returns afterwards. -/
theorem isFinal_before_wake :
    let e : Envelope Unit := ⟨(), .isolated, none, 0⟩
    let actions : List (Action Unit Unit) := [.callSend e, .send 0, .send 0, .send 0, .send 0,
      .send 0, .send 0, .send 0, .callSend e, .callClose, .close 0, .callPoll (), .receive,
      .receive, .receive, .receive, .callPoll (), .receive, .receive, .receive, .receive]
    let s := ((start ⟨2, 2, 0⟩).run actions).next .receive
    s.IsFinal ∧ ¬ s.IsLast ∧ delivered s.history = [e.stamp 1] := by
  intro e actions s
  have hends : ((start ⟨2, 2, 0⟩).run actions).Ends := by
    unfold Ends
    subst s actions e
    cbv
  have hsends : s.sends = [.waking (e.stamp 1) .accepted, .checking e] := by
    subst s actions e
    cbv
  have hgiven : delivered s.history = [e.stamp 1] := by
    subst s actions e
    cbv
  obtain ⟨-, hfinal, hlast⟩ := isFinal_iff_no_straggler (by decide) actions hends
  refine ⟨hfinal.mpr ?_, fun h => ?_, hgiven⟩
  · show ∀ call ∈ s.sends, call.isPastLook = false
    simp [hsends, SendCall.isPastLook]
  · have hrefused : ∀ call ∈ s.sends, call.isRefused = true := hlast.mp h
    simp [hsends, SendCall.isRefused] at hrefused

/-- A send has found the mailbox open; then the mailbox is closed, the receiver is told that
nothing more will come, and the send goes on: its message is accepted, and stays in the queue. -/
theorem accepted_after_end :
    let e : Envelope Unit := ⟨(), .isolated, none, 0⟩
    let actions : List (Action Unit Unit) := [.callSend e, .send 0, .callClose, .close 0, .close 0,
      .callPoll (), .receive, .receive, .receive, .receive]
    let s := (start ⟨2, 2, 0⟩).run actions
    let after := (s.next .receive).run (List.replicate 7 (.send 0))
    s.Ends ∧ ¬ (s.next .receive).IsFinal ∧ ¬ (s.next .receive).IsLast ∧
      after.history = [.closed, .polled (.ready none), .sent (e.stamp 1) .accepted] ∧
      after.mailbox.queue = [e.stamp 1] ∧ after.sends = [] := by
  intro e actions s after
  have hends : s.Ends := by
    unfold Ends
    subst after s actions e
    cbv
  have hgiven : delivered (s.next .receive).history = [] := by
    subst after s actions e
    cbv
  have hafter : after.history = (s.next .receive).history ++ [.sent (e.stamp 1) .accepted] := by
    subst after s actions e
    cbv
  have hadmits : (s.next .receive).Admits (e.stamp 1) := ⟨_, .accepted, hafter⟩
  refine ⟨hends, hadmits.not_isFinal ?_, hadmits.not_isLast, ?_⟩
  · rw [hgiven]
    exact List.not_mem_nil
  · subst after s actions e
    cbv

end Traffic

end Mailbox

end Troupe
