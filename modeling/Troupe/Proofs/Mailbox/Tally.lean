import Troupe.Proofs.Mailbox.Run
import Troupe.Proofs.Mailbox.Senders

/-!
# What a mailbox counts

A mailbox counts the messages that get in, that are handed out and that are turned away, and how
often backpressure is engaged and cleared; and with each it tells its node to count the same.
The two are counted apart, by calls whose steps mix with those of other calls.

* `totals_next` — a step tells the node what it adds to the mailbox's own totals;
* `Balanced.next` — what got in is what was handed out and what is queued, but for calls that
  have moved a message and not counted it.
-/

namespace Troupe

/-- What is counted of a mailbox. -/
inductive Mailbox.Tally where
  | enqueued
  | dequeued
  | rejected
  | engaged
  | cleared
deriving DecidableEq, Repr

def Totals.get (totals : Totals) : Mailbox.Tally → Nat
  | .enqueued => totals.enqueued
  | .dequeued => totals.dequeued
  | .rejected => totals.rejected
  | .engaged => totals.engaged
  | .cleared => totals.cleared

def PressureEvent.tally : PressureEvent → Mailbox.Tally
  | engaged _ => .engaged
  | cleared _ => .cleared

/-- What the node counts of an effect. -/
def Effect.tally? {ω : Type} : Effect ω → Option Mailbox.Tally
  | pressure event => some event.tally
  | wake _ => none

namespace Mailbox

variable {ω μ : Type}

open Header.Traffic (replace sum_replace)

/-! ## What the node is told -/

/-- What the node is told by a step of a send, besides the watermarks that it crosses. -/
def SendCall.told? : SendCall μ → Option Tally
  | rejecting _ => some .rejected
  | counting _ _ => some .enqueued
  | _ => none

/-- What the node is told by a step of a receive, besides the watermarks that it crosses. -/
def ReceiveCall.told? : ReceiveCall ω μ → Option Tally
  | counting _ _ _ => some .dequeued
  | _ => none

/-- What the node counts of a step of a send. -/
def SendCall.tallies (m : Mailbox ω μ) (call : SendCall μ) : List Tally :=
  call.told?.toList ++ (call.step m).effects.filterMap Effect.tally?

/-- What the node counts of a step of a receive. -/
def ReceiveCall.tallies (m : Mailbox ω μ) (call : ReceiveCall ω μ) : List Tally :=
  call.told?.toList ++ (call.step m).effects.filterMap Effect.tally?

/-- What the node counts of a step of a request to close. -/
def CloseCall.tallies (m : Mailbox ω μ) (call : CloseCall) : List Tally :=
  (call.step m).effects.filterMap Effect.tally?

@[simp] theorem filterMap_tally?_wakes (waker : Option ω) :
    (Effect.wakes waker).filterMap Effect.tally? = [] := by
  cases waker <;> rfl

/-- Engaging backpressure is counted, and the node is told. -/
theorem totals_raise (m : Mailbox ω μ) (length : Nat) (tally : Tally) :
    (m.raise length).1.totals.get tally = m.totals.get tally +
      ((Effect.pressures (m.raise length).2.2 : List (Effect ω)).filterMap
        Effect.tally?).count tally := by
  -- only the one that engages counts, and it says so
  by_cases hraise : m.marks.high ≤ length ∧ m.isEngaged = false
  · simp only [raise, if_pos hraise]
    cases tally <;> rfl
  · simp only [raise, if_neg hraise]
    rfl

theorem totals_lower (m : Mailbox ω μ) (length : Nat) (tally : Tally) :
    (m.lower length).1.totals.get tally = m.totals.get tally +
      ((Effect.pressures (m.lower length).2 : List (Effect ω)).filterMap
        Effect.tally?).count tally := by
  by_cases hlower : length ≤ m.marks.low ∧ m.isEngaged = true
  · simp only [lower, if_pos hlower]
    cases tally <;> rfl
  · simp only [lower, if_neg hlower]
    rfl

/-- A step of a send adds to the totals what the node is told of it. -/
theorem SendCall.totals_step (m : Mailbox ω μ) (call : SendCall μ) (tally : Tally) :
    (call.step m).state.totals.get tally = m.totals.get tally + (call.tallies m).count tally := by
  cases call with
  | reserving e =>
      -- a place or none, a slot or none: neither is counted
      by_cases hroom : m.reserved < m.marks.capacity
      · simp [step, reserve?, hroom, tallies, told?]
      · simp [step, reserve?, hroom, tallies, told?]
  | pushing e length =>
      by_cases hslot : m.queue.length < m.marks.capacity
      · simp [step, push?, hslot, tallies, told?]
      · simp [step, push?, hslot, tallies, told?]
  | engaging e length =>
      -- the crossing is counted by whoever makes it
      by_cases hraise : m.marks.high ≤ length ∧ m.isEngaged = false
      · have hraised := m.totals_raise length tally
        simpa [step, hraise, tallies, told?] using hraised
      · simp [step, hraise, tallies, told?]
  | rejecting e | counting e length =>
      cases tally <;> simp [step, reject, accept, tallies, told?, Totals.get]
  | checking e | stamping e length | unreserving e | looking e | waking e status =>
      simp [step, stamp, unreserve, wake, tallies, told?]

/-- A step of a receive adds to the totals what the node is told of it. -/
theorem ReceiveCall.totals_step (m : Mailbox ω μ) (call : ReceiveCall ω μ) (tally : Tally) :
    (call.step m).state.totals.get tally = m.totals.get tally + (call.tallies m).count tally := by
  cases call with
  | popping look =>
      -- finding nothing is not counted, and finding something is counted later
      cases hqueue : m.queue with
      | nil => simp [step, pop?, hqueue, tallies, told?]
      | cons e rest => simp [step, pop?, hqueue, tallies, told?]
  | clearing look e length =>
      have hlowered := m.totals_lower length tally
      simpa [step, tallies, told?] using hlowered
  | counting look e length =>
      cases tally <;> simp [step, deliver, tallies, told?, Totals.get]
  | releasing look e | registering w | seeking | measuring =>
      simp [step, release, register, tallies, told?]

theorem CloseCall.totals_step (m : Mailbox ω μ) (call : CloseCall) (tally : Tally) :
    (call.step m).state.totals.get tally = m.totals.get tally + (call.tallies m).count tally := by
  cases call with
  | _ => simp [step, wake, tallies]

/-- What the node is told by the answer to a send. -/
def told? : Except (Refusal (Envelope μ)) Status → Option Tally
  | .ok _ => some .enqueued
  | .error (.full _ _) => some .rejected
  | .error _ => none

/-- A send tells the node what it adds to the mailbox's own totals. -/
theorem totals_enqueue {m : Mailbox ω μ} (hm : m.Settled) (e : Envelope μ) (tally : Tally) :
    (m.enqueue e).state.totals.get tally = m.totals.get tally +
      ((told? (m.enqueue e).answer).toList ++
        (m.enqueue e).effects.filterMap Effect.tally?).count tally := by
  cases hclosed : m.isClosed with
  | true => simp [enqueue_closed m e hclosed, told?]
  | false =>
      -- what the node is told is what was counted, and the crossing beside it
      by_cases hroom : m.reserved < m.marks.capacity
      · have hraised := (m.takeIn e).totals_raise (m.reserved + 1) tally
        have htaken : (m.takeIn e).totals.get tally =
            m.totals.get tally + [Tally.enqueued].count tally := by
          cases tally <;> rfl
        rw [enqueue_room hm e hclosed hroom]
        simp only [hraised, htaken, told?, Option.toList_some, List.filterMap_append,
          filterMap_tally?_wakes, List.append_nil, List.count_append, Nat.add_assoc]
      · rw [enqueue_full m e hclosed (Nat.le_of_not_lt hroom)]
        cases tally <;> simp [reject, told?, Totals.get]

/-- A receive tells the node what it adds to the mailbox's own totals. -/
theorem totals_dequeue (m : Mailbox ω μ) (tally : Tally) :
    m.dequeue.state.totals.get tally = m.totals.get tally +
      ((m.dequeue.answer.map fun _ => Tally.dequeued).toList ++
        m.dequeue.effects.filterMap Effect.tally?).count tally := by
  cases hqueue : m.queue with
  | nil => simp [dequeue_nil hqueue]
  | cons e rest =>
      have hlowered := (m.dispatch rest).totals_lower (m.reserved - 1) tally
      have htaken : (m.dispatch rest).totals.get tally =
          m.totals.get tally + [Tally.dequeued].count tally := by
        cases tally <;> rfl
      rw [dequeue_cons hqueue]
      simp only [hlowered, htaken, Option.map_some, Option.toList_some, List.count_append,
        Nat.add_assoc]

/-! ## Messages moved and not counted -/

/-- Whether a send has put its message into the queue and not counted it. -/
def SendCall.uncounted : SendCall μ → Nat
  | counting _ _ => 1
  | _ => 0

/-- Whether a receive has taken a message out of the queue and not counted it. -/
def ReceiveCall.uncounted : ReceiveCall ω μ → Nat
  | releasing _ _ | counting _ _ _ => 1
  | _ => 0

/-- A step of a send queues what it counts next, and counts what it has queued. -/
theorem SendCall.uncounted_step (m : Mailbox ω μ) (call : SendCall μ) :
    (call.step m).state.totals.dequeued = m.totals.dequeued ∧
      (call.step m).state.totals.enqueued +
          ((call.step m).answer.getLeft?.toList.map uncounted).sum + m.queue.length =
        m.totals.enqueued + call.uncounted + (call.step m).state.queue.length := by
  cases call with
  | checking e => cases hclosed : m.isClosed <;> simp [step, hclosed, uncounted]
  | reserving e =>
      by_cases hroom : m.reserved < m.marks.capacity <;> simp [step, reserve?, hroom, uncounted]
  | pushing e length =>
      -- here the message is queued and not counted yet
      by_cases hslot : m.queue.length < m.marks.capacity
      · simp [step, push?, hslot, uncounted]
        omega
      · simp [step, push?, hslot, uncounted]
  | engaging e length =>
      by_cases hraise : m.marks.high ≤ length ∧ m.isEngaged = false
      · simp [step, raise, hraise, uncounted]
      · simp [step, hraise, uncounted]
  | stamping e length | unreserving e | rejecting e | counting e length | looking e
  | waking e status =>
      simp [step, stamp, unreserve, reject, accept, wake, uncounted]

/-- A step of a receive counts what it has taken out. -/
theorem ReceiveCall.uncounted_step (m : Mailbox ω μ) (call : ReceiveCall ω μ) :
    (call.step m).state.totals.enqueued = m.totals.enqueued ∧
      (call.step m).state.totals.dequeued +
          ((call.step m).answer.getLeft?.toList.map uncounted).sum +
          (call.step m).state.queue.length =
        m.totals.dequeued + call.uncounted + m.queue.length := by
  cases call with
  | popping look =>
      -- here the message is taken out and not counted yet
      cases hqueue : m.queue with
      | nil => cases look <;> simp [step, pop?, hqueue, Look.missed, uncounted]
      | cons e rest =>
          simp [step, pop?, hqueue, uncounted]
          omega
  | clearing look e length =>
      by_cases hlower : length ≤ m.marks.low ∧ m.isEngaged = true
      · simp [step, lower, hlower, uncounted]
      · simp [step, lower, hlower, uncounted]
  | seeking => cases hclosed : m.isClosed <;> simp [step, hclosed, uncounted]
  | releasing look e | counting look e length | registering w | measuring =>
      simp [step, release, deliver, register, uncounted]

namespace Traffic

variable {s : Traffic ω μ}

/-! ## The totals -/

/-- What the node counts of an action. -/
def tallies (s : Traffic ω μ) : Action ω μ → List Tally
  | .send index =>
    match s.sends[index]? with
    | none => []
    | some call => call.tallies s.mailbox
  | .receive =>
    match s.receiver with
    | none => []
    | some call => call.tallies s.mailbox
  | .close index =>
    match s.closes[index]? with
    | none => []
    | some call => call.tallies s.mailbox
  | .callSend _ | .callDequeue | .callPoll _ | .callClose => []

theorem mailbox_begin (s : Traffic ω μ) (look : Look ω) : (s.begin look).mailbox = s.mailbox := by
  unfold begin
  split <;> rfl

/-- Each action tells the node what it adds to the mailbox's own totals. -/
theorem totals_next (s : Traffic ω μ) (action : Action ω μ) (tally : Tally) :
    (s.next action).mailbox.totals.get tally =
      s.mailbox.totals.get tally + (s.tallies action).count tally := by
  -- a call that steps adds its tallies, everything else adds nothing
  cases action with
  | send index =>
      cases hcall : s.sends[index]? with
      | none => simp [next_send_none hcall, tallies, hcall]
      | some call =>
          rw [next_send hcall]
          simpa only [tallies, hcall] using call.totals_step s.mailbox tally
  | receive =>
      cases hcall : s.receiver with
      | none => simp [next_receive_none hcall, tallies, hcall]
      | some call =>
          rw [next_receive hcall]
          simpa only [tallies, hcall] using call.totals_step s.mailbox tally
  | close index =>
      cases hcall : s.closes[index]? with
      | none => simp [next_close_none hcall, tallies, hcall]
      | some call =>
          rw [next_close hcall]
          simpa only [tallies, hcall] using call.totals_step s.mailbox tally
  | callSend e | callClose => simp [next, tallies]
  | callDequeue | callPoll w => simp [next, tallies, mailbox_begin]

/-! ## The balance -/

/-- The mailbox and its totals are as the calls in progress know them to be. -/
structure Balanced (s : Traffic ω μ) : Prop where
  /-- A place taken is a message queued, or one on its way in or out. -/
  reserved : s.mailbox.reserved = s.mailbox.queue.length + s.onWayIn + s.onWayOut
  room : s.mailbox.reserved ≤ s.mailbox.marks.capacity
  /-- A message that got in was handed out or is queued, but for what has not been counted. -/
  counted : s.mailbox.totals.enqueued + (s.sends.map SendCall.uncounted).sum =
    s.mailbox.totals.dequeued + (s.receiver.toList.map ReceiveCall.uncounted).sum +
      s.mailbox.queue.length

theorem balanced_start (marks : Watermarks) : (start marks : Traffic ω μ).Balanced := by
  constructor <;> simp [start, ofMarks, onWayIn, onWayOut]

/-- A step of a send moves a place, a message or a count along and drops none. -/
theorem Balanced.send (hs : s.Balanced) (index : Nat) : (s.next (.send index)).Balanced := by
  cases hcall : s.sends[index]? with
  | none => rwa [next_send_none hcall]
  | some call =>
      have hmove := call.step_move s.mailbox
      obtain ⟨hdequeued, hqueued⟩ := call.uncounted_step s.mailbox
      -- of all sends in progress only this one changes what it holds
      obtain ⟨held, hplaces, hplaces'⟩ := sum_replace SendCall.places hcall
      obtain ⟨moved, hmoved, hmoved'⟩ := sum_replace SendCall.uncounted hcall
      have hreserved := hs.reserved
      have hin : s.onWayIn = held + call.places := hplaces
      have hcounted := hs.counted
      rw [next_send hcall]
      constructor
      · have hbalance := hmove.places (by omega)
        simp only [onWayIn, onWayOut, hplaces'] at hreserved ⊢
        omega
      · simp only [hmove.marks]
        exact call.reserved_step hs.room
      · simp only [hmoved', hdequeued]
        omega

/-- A step of a receive moves a place, a message or a count along and drops none. -/
theorem Balanced.receive (hs : s.Balanced) : (s.next .receive).Balanced := by
  cases hcall : s.receiver with
  | none => rwa [next_receive_none hcall]
  | some call =>
      have hmove := call.step_move s.mailbox
      obtain ⟨henqueued, hqueued⟩ := call.uncounted_step s.mailbox
      have hreserved := hs.reserved
      have hheld : (s.receiver.toList.map ReceiveCall.places).sum = call.places := by simp [hcall]
      have hout : s.onWayOut = call.places := hheld
      have hmoved : (s.receiver.toList.map ReceiveCall.uncounted).sum = call.uncounted := by
        simp [hcall]
      have hcounted := hs.counted
      rw [next_receive hcall]
      constructor
      · have hbalance := hmove.places (by omega)
        simp only [onWayIn, onWayOut] at hreserved ⊢
        omega
      · simp only [hmove.marks]
        exact (call.reserved_step s.mailbox).trans hs.room
      · simp only [henqueued]
        omega

theorem Balanced.close (hs : s.Balanced) (index : Nat) : (s.next (.close index)).Balanced := by
  cases hcall : s.closes[index]? with
  | none => rwa [next_close_none hcall]
  | some call =>
      obtain ⟨hreserved, hroom, hcounted⟩ := hs
      rw [next_close hcall]
      cases call with
      | _ => exact ⟨hreserved, hroom, hcounted⟩

theorem Balanced.begin (hs : s.Balanced) (look : Look ω) : (s.begin look).Balanced := by
  unfold Traffic.begin
  split
  · next hcall =>
      obtain ⟨hreserved, hroom, hcounted⟩ := hs
      simp only [onWayOut, hcall] at hreserved hcounted
      exact ⟨hreserved, hroom, hcounted⟩
  · exact hs

/-- Whatever happens at a mailbox leaves it balanced. -/
theorem Balanced.next (hs : s.Balanced) (action : Action ω μ) : (s.next action).Balanced := by
  cases action with
  | send index => exact hs.send index
  | receive => exact hs.receive
  | close index => exact hs.close index
  | callClose => exact ⟨hs.reserved, hs.room, hs.counted⟩
  | callSend e =>
      -- a send that begins holds no place and has queued nothing
      refine ⟨?_, hs.room, ?_⟩
      · simpa [Traffic.next, onWayIn, onWayOut, SendCall.places] using hs.reserved
      · simpa [Traffic.next, SendCall.uncounted] using hs.counted
  | callDequeue => exact hs.begin .single
  | callPoll w => exact hs.begin (.first w)

end Traffic

end Mailbox

end Troupe
