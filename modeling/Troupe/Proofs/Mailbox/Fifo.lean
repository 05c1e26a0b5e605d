import Mathlib.Data.List.Basic
import Troupe.Proofs.Mailbox.Run

/-!
# A mailbox is a bounded queue

What a mailbox holds is compared with what is on record about it: the envelopes it
accepted, those it handed out, the refusals for want of room and the request to close.

* `accounted` — each entry accounts for what its request changed;
* `inOrder_record` — so mailbox and record agree after every run;
* `record_isFifo` — every answer is that of a bounded queue which numbers what it accepts.
-/

namespace Troupe

namespace Mailbox

variable {ω μ : Type}

/-! ## What is on record -/

/-- The envelope that a request put into the mailbox, as it was offered. -/
def Entry.accepted? (x : Entry ω μ) : Option (Envelope μ) :=
  match x.request, x.reply with
  | .enqueue e, .sent (.ok _) => some e
  | _, _ => none

/-- The envelope that a request took out of the mailbox. -/
def Entry.delivered? (x : Entry ω μ) : Option (Envelope μ) :=
  match x.reply with
  | .taken e => e
  | .polled (.ready e) => e
  | _ => none

/-- Whether a send was refused for want of room. -/
def Entry.isFull (x : Entry ω μ) : Bool :=
  match x.reply with
  | .sent (.error refusal) => refusal.isFull
  | _ => false

/-- Whether the mailbox was asked to close. -/
def Entry.isClose (x : Entry ω μ) : Bool :=
  match x.request with
  | .close => true
  | _ => false

namespace Record

/-- The envelopes accepted, in order, as they were offered. -/
def accepted (r : Record ω μ) : List (Envelope μ) := r.entries.filterMap Entry.accepted?

/-- The envelopes handed out, in order. -/
def delivered (r : Record ω μ) : List (Envelope μ) := r.entries.filterMap Entry.delivered?

/-- How many sends found no room. -/
def refusals (r : Record ω μ) : Nat := r.entries.countP Entry.isFull

/-- Whether closing was asked for. -/
def wasClosed (r : Record ω μ) : Bool := r.entries.any Entry.isClose

end Record

/-- Envelopes under the numbers of their places, counted from one. -/
def numbered (es : List (Envelope μ)) : List (Envelope μ) := es.mapIdx fun k e => e.stamp (k + 1)

theorem numbered_append_toList (es : List (Envelope μ)) (e : Option (Envelope μ)) :
    numbered (es ++ e.toList) = numbered es ++ e.toList.map (·.stamp (es.length + 1)) := by
  cases e <;> simp [numbered, List.mapIdx_append]

/-! ## One request -/

/-- An entry accounts for what happened to a mailbox `m` that is now `m'`. -/
structure Accounted (m : Mailbox ω μ) (x : Entry ω μ) (m' : Mailbox ω μ) : Prop where
  marks : m'.marks = m.marks
  queue : x.delivered?.toList ++ m'.queue = m.queue ++ x.accepted?.toList.map (·.stamp m.nextSeq)
  nextSeq : m'.nextSeq = m.nextSeq + x.accepted?.toList.length
  enqueued : m'.totals.enqueued = m.totals.enqueued + x.accepted?.toList.length
  dequeued : m'.totals.dequeued = m.totals.dequeued + x.delivered?.toList.length
  rejected : m'.totals.rejected = m.totals.rejected + x.isFull.toNat
  isClosed : m'.isClosed = (m.isClosed || x.isClose)

/-- Taking the head out is accounted for by any entry that says so and nothing else. -/
theorem accounted_take {m : Mailbox ω μ} {e : Envelope μ} {rest : List (Envelope μ)}
    (hq : m.queue = e :: rest) {x : Entry ω μ} (haccepted : x.accepted? = none)
    (hdelivered : x.delivered? = some e) (hfull : x.isFull = false) (hclose : x.isClose = false) :
    Accounted m x ((m.dispatch rest).lower (m.reserved - 1)).1 := by
  have hsame := sameMail_lower (m.dispatch rest) (m.reserved - 1)
  constructor
  · exact hsame.marks
  · rw [hsame.queue, hq, haccepted, hdelivered]
    exact (List.append_nil _).symm
  · rw [hsame.nextSeq, haccepted]
    rfl
  · rw [hsame.enqueued, haccepted]
    rfl
  · rw [hsame.dequeued, hdelivered]
    rfl
  · rw [hsame.rejected, hfull]
    rfl
  · rw [hsame.isClosed, hclose]
    exact (Bool.or_false _).symm

/-- Every request leaves the mailbox as its entry on record says. -/
theorem accounted {m : Mailbox ω μ} {request : Request ω μ}
    {o : Outcome ω (Mailbox ω μ) (Reply μ)} (h : Served m request o) :
    Accounted m ⟨request, o.effects, o.answer⟩ o.state := by
  cases h with
  | closed e hc => exact ⟨rfl, (List.append_nil _).symm, rfl, rfl, rfl, rfl, (Bool.or_false _).symm⟩
  | full e hc hfull =>
      exact ⟨rfl, (List.append_nil _).symm, rfl, rfl, rfl, rfl, (Bool.or_false _).symm⟩
  | admitted e hc hroom =>
      have hsame := sameMail_raise (m.takeIn e) (m.reserved + 1)
      exact ⟨hsame.marks, hsame.queue, hsame.nextSeq, hsame.enqueued, hsame.dequeued,
        hsame.rejected, hsame.isClosed.trans (Bool.or_false _).symm⟩
  | nothing hq => exact ⟨rfl, (List.append_nil _).symm, rfl, rfl, rfl, rfl, (Bool.or_false _).symm⟩
  | taken e rest hq => exact accounted_take hq rfl rfl rfl rfl
  | waiting w hq =>
      -- a poll that finds nothing takes nothing out, whether it waits or has come to the end
      have hnone : (⟨.poll w, [], .polled (if m.isDrained then .ready none else .pending)⟩ :
          Entry ω μ).delivered? = none := by
        by_cases hd : m.isDrained = true <;> simp [Entry.delivered?, hd]
      constructor
      · rfl
      · rw [hnone]
        exact (List.append_nil _).symm
      · rfl
      · rfl
      · rw [hnone]
        rfl
      · rfl
      · exact (Bool.or_false _).symm
  | polled w e rest hq => exact accounted_take hq rfl rfl rfl rfl
  | shut => exact ⟨rfl, (List.append_nil _).symm, rfl, rfl, rfl, rfl, (Bool.or_true _).symm⟩

/-! ## Every run -/

/-- The mailbox agrees with what is on record about it. -/
structure Record.InOrder (marks : Watermarks) (r : Record ω μ) : Prop where
  settled : r.mailbox.Settled
  marks_eq : r.mailbox.marks = marks
  contents_eq : r.delivered ++ r.mailbox.queue = numbered r.accepted
  nextSeq_eq : r.mailbox.nextSeq = r.accepted.length + 1
  enqueued_eq : r.mailbox.totals.enqueued = r.accepted.length
  dequeued_eq : r.mailbox.totals.dequeued = r.delivered.length
  rejected_eq : r.mailbox.totals.rejected = r.refusals
  isClosed_eq : r.mailbox.isClosed = r.wasClosed

theorem inOrder_nil (marks : Watermarks) :
    (⟨ofMarks marks, []⟩ : Record ω μ).InOrder marks :=
  ⟨settled_ofMarks marks, rfl, rfl, rfl, rfl, rfl, rfl, rfl⟩

/-- An entry that accounts for a change keeps mailbox and record in agreement. -/
theorem Record.InOrder.append {marks : Watermarks} {r : Record ω μ} (h : r.InOrder marks)
    {x : Entry ω μ} {m : Mailbox ω μ} (hx : Accounted r.mailbox x m) (hm : m.Settled) :
    (⟨m, r.entries ++ [x]⟩ : Record ω μ).InOrder marks := by
  have haccepted : (⟨m, r.entries ++ [x]⟩ : Record ω μ).accepted =
      r.accepted ++ x.accepted?.toList := by
    cases hx : x.accepted? <;> simp [Record.accepted, hx]
  have hdelivered : (⟨m, r.entries ++ [x]⟩ : Record ω μ).delivered =
      r.delivered ++ x.delivered?.toList := by
    cases hx : x.delivered? <;> simp [Record.delivered, hx]
  have hrefusals : (⟨m, r.entries ++ [x]⟩ : Record ω μ).refusals =
      r.refusals + x.isFull.toNat := by
    cases hx : x.isFull <;> simp [Record.refusals, hx]
  have hclosed : (⟨m, r.entries ++ [x]⟩ : Record ω μ).wasClosed =
      (r.wasClosed || x.isClose) := by
    simp [Record.wasClosed]
  -- each field of the agreement is the old one with what the entry adds
  constructor
  · exact hm
  · exact hx.marks.trans h.marks_eq
  · rw [hdelivered, haccepted, numbered_append_toList, List.append_assoc, hx.queue,
      ← List.append_assoc, h.contents_eq, h.nextSeq_eq]
  · rw [haccepted, List.length_append, hx.nextSeq, h.nextSeq_eq]
    omega
  · rw [haccepted, List.length_append, hx.enqueued, h.enqueued_eq]
  · rw [hdelivered, List.length_append, hx.dequeued, h.dequeued_eq]
  · rw [hrefusals, hx.rejected, h.rejected_eq]
  · rw [hclosed, hx.isClosed, h.isClosed_eq]

theorem inOrder_record (marks : Watermarks) (requests : List (Request ω μ)) :
    (record (ofMarks marks) requests).InOrder marks := by
  apply record_invariant (inOrder_nil marks)
  intro r request h
  have hserved := served h.settled request
  exact h.append (accounted hserved) (hserved.settled h.settled)

/-! ## The bounded queue -/

/-- A send to a settled mailbox is refused for being late, refused for want of room, or
accepted. -/
theorem enqueue_cases {m : Mailbox ω μ} (hm : m.Settled) (e : Envelope μ) :
    (m.isClosed = true ∧ m.enqueue e = ⟨m, [], .error (.closed e)⟩) ∨
      (m.isClosed = false ∧ m.length = m.marks.capacity ∧
        m.enqueue e = ⟨m.reject, [], .error (.full e m.marks.capacity)⟩) ∨
      (m.isClosed = false ∧ m.length < m.marks.capacity ∧
        ∃ status, (m.enqueue e).answer = .ok status) := by
  by_cases hc : m.isClosed = true
  · exact Or.inl ⟨hc, enqueue_closed m e hc⟩
  · rw [Bool.not_eq_true] at hc
    -- a settled mailbox never has more than its capacity, so no room means exactly full
    by_cases hroom : m.reserved < m.marks.capacity
    · exact Or.inr (Or.inr ⟨hc, hroom, _, by rw [enqueue_room hm e hc hroom]⟩)
    · have hfull : m.reserved = m.marks.capacity := by
        have hle := hm.reserved_le
        omega
      exact Or.inr (Or.inl ⟨hc, hfull, enqueue_full m e hc (Nat.le_of_eq hfull.symm)⟩)

/-- The mailbox of a record behaves as a bounded queue that was asked for the same. -/
structure Record.IsFifo (marks : Watermarks) (r : Record ω μ) : Prop where
  /-- A closed mailbox says so, even when it is full. -/
  closed_iff : ∀ e, (r.mailbox.enqueue e).answer = .error (.closed e) ↔ r.mailbox.isClosed = true
  full_iff : ∀ e, (r.mailbox.enqueue e).answer = .error (.full e marks.capacity) ↔
    r.mailbox.isClosed = false ∧ r.mailbox.length = marks.capacity
  accepted_iff : ∀ e, (∃ status, (r.mailbox.enqueue e).answer = .ok status) ↔
    r.mailbox.isClosed = false ∧ r.mailbox.length < marks.capacity
  /-- A refused envelope comes back as it was offered; no more than a count changes. -/
  refused : ∀ e refusal, (r.mailbox.enqueue e).answer = .error refusal →
    refusal.message = e ∧ (r.mailbox.enqueue e).effects = [] ∧
      (r.mailbox.enqueue e).state = if refusal.isFull then r.mailbox.reject else r.mailbox
  /-- What was handed out, and then what is queued, is what was accepted, under its numbers. -/
  contents_eq : r.delivered ++ r.mailbox.queue = numbered r.accepted
  dequeue_eq : r.mailbox.dequeue.answer = r.mailbox.queue.head?
  length_eq : r.mailbox.length = r.mailbox.queue.length
  length_le : r.mailbox.length ≤ marks.capacity
  balance : r.mailbox.totals.dequeued + r.mailbox.length = r.mailbox.totals.enqueued
  enqueued_eq : r.mailbox.totals.enqueued = r.accepted.length
  dequeued_eq : r.mailbox.totals.dequeued = r.delivered.length
  rejected_eq : r.mailbox.totals.rejected = r.refusals
  isClosed_eq : r.mailbox.isClosed = r.wasClosed
  /-- A poll hands out the head of the queue, as a receive does. -/
  polled_iff : ∀ w e, (r.mailbox.pollDequeue w).answer = .ready (some e) ↔
    r.mailbox.queue.head? = some e
  /-- The end is announced once nothing can come any more. -/
  end_iff : ∀ w, (r.mailbox.pollDequeue w).answer = .ready none ↔
    r.mailbox.isClosed = true ∧ r.mailbox.queue = []

theorem pollDequeue_end_iff {m : Mailbox ω μ} (hm : m.Settled) (w : ω) :
    (m.pollDequeue w).answer = .ready none ↔ m.isClosed = true ∧ m.queue = [] := by
  cases hq : m.queue with
  | nil =>
      have hempty : m.isEmpty = true := by
        rw [isEmpty, length, hm.reserved_eq, hq]
        rfl
      rw [pollDequeue_nil hq, isDrained, hempty, Bool.and_true]
      by_cases hc : m.isClosed = true <;> simp [hc]
  | cons e rest =>
      rw [pollDequeue_cons hq]
      simp

/-- Whether a poll that finds nothing waits or has come to the end, it hands out nothing. -/
theorem pollDequeue_some_iff (m : Mailbox ω μ) (w : ω) (e : Envelope μ) :
    (m.pollDequeue w).answer = .ready (some e) ↔ m.queue.head? = some e := by
  cases hq : m.queue with
  | nil =>
      rw [pollDequeue_nil hq]
      by_cases hd : m.isDrained = true <;> simp [hd]
  | cons first rest =>
      rw [pollDequeue_cons hq]
      simp

/-- A mailbox of a valid sizing, whatever it is asked for by one party after the other,
behaves as a bounded queue. -/
theorem record_isFifo {marks : Watermarks} {m : Mailbox ω μ} (hopen : open? marks = .ok m)
    (requests : List (Request ω μ)) : (record m requests).IsFifo marks := by
  obtain ⟨-, rfl⟩ := (open?_eq_ok_iff marks m).mp hopen
  have h := inOrder_record (ω := ω) (μ := μ) marks requests
  generalize record (ofMarks marks) requests = r at h ⊢
  obtain ⟨m, entries⟩ := r
  have hm : m.Settled := h.settled
  obtain rfl : m.marks = marks := h.marks_eq
  have hlen : m.length = m.queue.length := hm.reserved_eq
  constructor
  · -- closed comes first
    intro e
    rcases enqueue_cases hm e with ⟨hc, heq⟩ | ⟨hc, -, heq⟩ | ⟨hc, -, status, heq⟩ <;>
      simp [heq, hc]
  · intro e
    -- full, and only then, is the room gone
    rcases enqueue_cases hm e with ⟨hc, heq⟩ | ⟨hc, hl, heq⟩ | ⟨hc, hl, status, heq⟩
    · simp [heq, hc]
    · simp [heq, hc, hl]
    · simp [heq, hc, Nat.ne_of_lt hl]
  · intro e
    rcases enqueue_cases hm e with ⟨hc, heq⟩ | ⟨hc, hl, heq⟩ | ⟨hc, hl, status, heq⟩
    · simp [heq, hc]
    · simp [heq, hc, hl]
    · simp [heq, hc, hl]
  · intro e refusal href
    -- only the two refusals hand anything back, and neither queues it
    rcases enqueue_cases hm e with ⟨-, heq⟩ | ⟨-, -, heq⟩ | ⟨-, -, status, heq⟩
    · rw [heq] at href ⊢
      obtain rfl := Except.error.inj href
      exact ⟨rfl, rfl, rfl⟩
    · rw [heq] at href ⊢
      obtain rfl := Except.error.inj href
      exact ⟨rfl, rfl, rfl⟩
    · rw [heq] at href
      exact nomatch href
  · exact h.contents_eq
  · exact dequeue_answer m
  · exact hlen
  · exact hm.reserved_le
  -- the balance is the length of the two sides of the equation above
  · have hsum := congrArg List.length h.contents_eq
    rw [List.length_append, numbered, List.length_mapIdx, ← h.dequeued_eq, ← h.enqueued_eq] at hsum
    rw [hlen]
    exact hsum
  · exact h.enqueued_eq
  · exact h.dequeued_eq
  · exact h.rejected_eq
  · exact h.isClosed_eq
  · exact pollDequeue_some_iff m
  · exact pollDequeue_end_iff hm

/-- Two envelopes fit, a third finds no room and, after the close, no open mailbox. -/
theorem record_isFifo_full_then_closed :
    open? ⟨2, 2, 0⟩ = .ok (ofMarks ⟨2, 2, 0⟩ : Mailbox Unit Nat) ∧
      (record (ofMarks ⟨2, 2, 0⟩ : Mailbox Unit Nat)
        [.enqueue ⟨7, .isolated, none, 0⟩, .enqueue ⟨8, .isolated, none, 0⟩,
          .enqueue ⟨9, .isolated, none, 5⟩, .dequeue, .close, .enqueue ⟨9, .isolated, none, 5⟩,
          .poll (), .poll ()]).IsFifo ⟨2, 2, 0⟩ :=
  ⟨rfl, record_isFifo rfl _⟩

end Mailbox

end Troupe
