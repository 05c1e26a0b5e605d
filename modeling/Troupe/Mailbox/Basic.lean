import Troupe.Envelope
import Troupe.Outcome
import Troupe.Watermarks

/-!
# Mailboxes

A mailbox is a bounded queue of envelopes with a number of senders and one receiver.
A send reserves a place, stamps its envelope, pushes it, looks at the watermarks and
wakes the receiver; a receive pops, gives the place back and looks at the watermarks.
Each of these is a step of its own (`reserve?`, `stamp`, `push?`, `raise`, `wake`,
`pop?`, `release`, `lower`), because other parties may act between two of them;
`enqueue` and `dequeue` are the steps in a row.

* `enqueue_closed`, `enqueue_full` — which refusal comes first, and what it changes;
* `length_reserved_of_reserve?` — a reservation never exceeds the capacity.
-/

namespace Troupe

/-- How an accepted message found the mailbox. -/
inductive Status where
  /-- Backpressure is not engaged. -/
  | accepted
  /-- This message engaged it. -/
  | engaged
  /-- It was engaged before. -/
  | backpressured
deriving DecidableEq, Repr

/-- Whether the sender should slow down. -/
def Status.isBackpressured : Status → Bool
  | .accepted => false
  | _ => true

/-- A refused message, handed back with the reason. -/
inductive Refusal (μ : Type) where
  | full (message : μ) (capacity : Nat)
  | closed (message : μ)
  /-- The capability of the message keeps it where it is. -/
  | forbidden (message : μ)
deriving DecidableEq, Repr

namespace Refusal

variable {μ ν : Type}

/-- The message that comes back. -/
def message : Refusal μ → μ
  | .full m _ => m
  | .closed m => m
  | .forbidden m => m

/-- The same refusal of another message. -/
def map (f : μ → ν) : Refusal μ → Refusal ν
  | .full m c => .full (f m) c
  | .closed m => .closed (f m)
  | .forbidden m => .forbidden (f m)

/-- The refusal without its message. -/
def fault : Refusal μ → Fault
  | .full _ c => .mailboxFull c
  | .closed _ => .mailboxClosed
  | .forbidden _ => .violation (.cannotLeave .mutableLocal)

def isFull : Refusal μ → Bool
  | .full _ _ => true
  | _ => false

def isClosed : Refusal μ → Bool
  | .closed _ => true
  | _ => false

end Refusal

/-- The totals of a mailbox since it was opened. -/
structure Totals where
  enqueued : Nat := 0
  dequeued : Nat := 0
  rejected : Nat := 0
  engaged : Nat := 0
  cleared : Nat := 0
deriving DecidableEq, Repr, Inhabited

/-- A bounded queue of envelopes with watermarks; `ω` names who can be woken. -/
structure Mailbox (ω μ : Type) where
  marks : Watermarks
  queue : List (Envelope μ)
  /-- Places taken: messages queued, about to be queued, or just removed. -/
  reserved : Nat
  isEngaged : Bool
  isClosed : Bool
  nextSeq : Nat
  /-- Who is woken by the next arrival. -/
  receiver : Option ω
  totals : Totals
deriving Repr

namespace Mailbox

variable {ω μ : Type}

/-- An empty mailbox of a given sizing. -/
def ofMarks (marks : Watermarks) : Mailbox ω μ :=
  ⟨marks, [], 0, false, false, 1, none, {}⟩

/-- Opens a mailbox of a valid sizing. -/
def open? (marks : Watermarks) : Except Fault (Mailbox ω μ) :=
  match marks.validate with
  | .ok _ => .ok (ofMarks marks)
  | .error f => .error f

instance : Inhabited (Mailbox ω μ) := ⟨ofMarks default⟩

/-- The number of messages, as senders and receiver see it. -/
def length (m : Mailbox ω μ) : Nat := m.reserved

def isEmpty (m : Mailbox ω μ) : Bool := m.length == 0

/-- Closed, with nothing left to receive. -/
def isDrained (m : Mailbox ω μ) : Bool := m.isClosed && m.isEmpty

/-! ## The steps of a send -/

/-- Takes a place, unless all are taken; answers the length this makes. -/
def reserve? (m : Mailbox ω μ) : Option (Mailbox ω μ × Nat) :=
  if m.reserved < m.marks.capacity then
    some ({ m with reserved := m.reserved + 1 }, m.reserved + 1)
  else none

/-- Counts a message that found no place. -/
def reject (m : Mailbox ω μ) : Mailbox ω μ :=
  { m with totals := { m.totals with rejected := m.totals.rejected + 1 } }

/-- Numbers an envelope. -/
def stamp (m : Mailbox ω μ) (e : Envelope μ) : Mailbox ω μ × Envelope μ :=
  ({ m with nextSeq := m.nextSeq + 1 }, e.stamp m.nextSeq)

/-- Appends to the queue, unless its slots are all in use. -/
def push? (m : Mailbox ω μ) (e : Envelope μ) : Option (Mailbox ω μ) :=
  if m.queue.length < m.marks.capacity then some { m with queue := m.queue ++ [e] } else none

/-- Gives a place back without having used it. -/
def unreserve (m : Mailbox ω μ) : Mailbox ω μ := { m with reserved := m.reserved - 1 }

/-- Counts a message that was accepted. -/
def accept (m : Mailbox ω μ) : Mailbox ω μ :=
  { m with totals := { m.totals with enqueued := m.totals.enqueued + 1 } }

/-- Engages backpressure when the length a send made reaches the high watermark. -/
def raise (m : Mailbox ω μ) (length : Nat) : Mailbox ω μ × Status × Option PressureEvent :=
  if m.marks.high ≤ length ∧ m.isEngaged = false then
    ({ m with
        isEngaged := true
        totals := { m.totals with engaged := m.totals.engaged + 1 } },
      .engaged, some (.engaged length))
  else (m, if m.isEngaged then .backpressured else .accepted, none)

/-- Takes the waker of the receiver, who will be woken by it. -/
def wake (m : Mailbox ω μ) : Mailbox ω μ × Option ω := ({ m with receiver := none }, m.receiver)

/-- Appends an envelope, or hands it back. -/
def enqueue (m : Mailbox ω μ) (e : Envelope μ) :
    Outcome ω (Mailbox ω μ) (Except (Refusal (Envelope μ)) Status) :=
  if m.isClosed then ⟨m, [], .error (.closed e)⟩
  else
    match m.reserve? with
    | none => ⟨m.reject, [], .error (.full e m.marks.capacity)⟩
    | some (held, length) =>
      -- a number is spent even on an envelope that does not get in
      let (numbered, e) := held.stamp e
      match numbered.push? e with
      | none => ⟨numbered.unreserve, [], .error (.full e m.marks.capacity)⟩
      | some pushed =>
        let (raised, status, event) := pushed.accept.raise length
        let (woken, waker) := raised.wake
        ⟨woken, Effect.pressures event ++ Effect.wakes waker, .ok status⟩

/-! ## The steps of a receive -/

/-- Removes the head of the queue. -/
def pop? (m : Mailbox ω μ) : Option (Mailbox ω μ × Envelope μ) :=
  match m.queue with
  | [] => none
  | e :: rest => some ({ m with queue := rest }, e)

/-- Gives the place of a removed message back; answers the length this makes. -/
def release (m : Mailbox ω μ) : Mailbox ω μ × Nat :=
  ({ m with reserved := m.reserved - 1 }, m.reserved - 1)

/-- Counts a message that was handed out. -/
def deliver (m : Mailbox ω μ) : Mailbox ω μ :=
  { m with totals := { m.totals with dequeued := m.totals.dequeued + 1 } }

/-- Clears backpressure when the length a receive made is down to the low watermark. -/
def lower (m : Mailbox ω μ) (length : Nat) : Mailbox ω μ × Option PressureEvent :=
  if length ≤ m.marks.low ∧ m.isEngaged = true then
    ({ m with
        isEngaged := false
        totals := { m.totals with cleared := m.totals.cleared + 1 } },
      some (.cleared length))
  else (m, none)

/-- Removes the oldest envelope, if there is one. -/
def dequeue (m : Mailbox ω μ) : Outcome ω (Mailbox ω μ) (Option (Envelope μ)) :=
  match m.pop? with
  | none => ⟨m, [], none⟩
  | some (popped, e) =>
    -- the length that counts is the one this receive made
    let (released, length) := popped.release
    let (lowered, event) := released.deliver.lower length
    ⟨lowered, Effect.pressures event, some e⟩

/-! ## Waiting and closing -/

/-- Has `w` woken by the next arrival, in place of whoever was to be woken. -/
def register (m : Mailbox ω μ) (w : ω) : Mailbox ω μ := { m with receiver := some w }

/-- Receives, or has `w` woken: the queue is looked at once more after `w` is in place,
so that nothing that arrives in between is missed. A closed and empty mailbox
answers that nothing will come. -/
def pollDequeue (m : Mailbox ω μ) (w : ω) :
    Outcome ω (Mailbox ω μ) (Poll (Option (Envelope μ))) :=
  let first := m.dequeue
  match first.answer with
  | some e => ⟨first.state, first.effects, .ready (some e)⟩
  | none =>
    let second := (first.state.register w).dequeue
    match second.answer with
    | some e => ⟨second.state, first.effects ++ second.effects, .ready (some e)⟩
    | none =>
      ⟨second.state, first.effects ++ second.effects,
        if second.state.isDrained then .ready none else .pending⟩

/-- Takes no more messages; those queued can still be received. -/
def close (m : Mailbox ω μ) : Outcome ω (Mailbox ω μ) Unit :=
  let (woken, waker) := { m with isClosed := true }.wake
  ⟨woken, Effect.wakes waker, ()⟩

/-! ## Refusals -/

/-- A closed mailbox refuses every message and stays as it is, even when it is full. -/
theorem enqueue_closed (m : Mailbox ω μ) (e : Envelope μ) (h : m.isClosed = true) :
    m.enqueue e = ⟨m, [], .error (.closed e)⟩ := by
  simp [enqueue, h]

/-- A full mailbox counts the refusal and hands the envelope back unstamped. -/
theorem enqueue_full (m : Mailbox ω μ) (e : Envelope μ) (hc : m.isClosed = false)
    (hf : m.marks.capacity ≤ m.reserved) :
    m.enqueue e = ⟨m.reject, [], .error (.full e m.marks.capacity)⟩ := by
  have : ¬ m.reserved < m.marks.capacity := by omega
  simp [enqueue, hc, reserve?, this]

theorem length_reserved_of_reserve? {m m' : Mailbox ω μ} {n : Nat}
    (h : m.reserve? = some (m', n)) : m'.length = n ∧ n ≤ m.marks.capacity := by
  unfold reserve? at h
  split at h
  · next hlt =>
      simp only [Option.some.injEq, Prod.mk.injEq] at h
      obtain ⟨rfl, rfl⟩ := h
      exact ⟨rfl, hlt⟩
  · simp at h

end Mailbox

end Troupe
