import Troupe.Mailbox.Basic

/-!
# Runs of a mailbox

One party after the other asks a mailbox for something, and everything that was asked
is kept on record with its effects and its reply. Between two requests no step is
under way, so the places taken are the messages queued (`Settled`), and each request
comes down to one equation:

* `enqueue_room` — an open mailbox with room stamps the envelope and appends it;
* `dequeue_nil`, `dequeue_cons` — a receive finds nothing, or takes the head;
* `pollDequeue_nil`, `pollDequeue_cons` — so does a poll, which registers if it waits;
* `served` — so each request follows the rules of a mailbox (`Served`);
* `record_invariant` — what every request keeps holds of every record.
-/

namespace Troupe

namespace Mailbox

variable {ω μ : Type}

/-! ## What the watermarks leave alone -/

/-- Two states of a mailbox in which the mail is the same: they differ at most in whether
backpressure is engaged, and in how often it was engaged and cleared. -/
structure SameMail (m m' : Mailbox ω μ) : Prop where
  marks : m.marks = m'.marks
  queue : m.queue = m'.queue
  reserved : m.reserved = m'.reserved
  isClosed : m.isClosed = m'.isClosed
  nextSeq : m.nextSeq = m'.nextSeq
  receiver : m.receiver = m'.receiver
  enqueued : m.totals.enqueued = m'.totals.enqueued
  dequeued : m.totals.dequeued = m'.totals.dequeued
  rejected : m.totals.rejected = m'.totals.rejected

theorem sameMail_raise (m : Mailbox ω μ) (n : Nat) : (m.raise n).1.SameMail m := by
  unfold raise
  split <;> constructor <;> rfl

/-- A sender is told to slow down while backpressure is engaged. -/
theorem isBackpressured_raise (m : Mailbox ω μ) (n : Nat) :
    (m.raise n).2.1.isBackpressured = (m.raise n).1.isEngaged := by
  unfold raise
  split
  · rfl
  · cases m.isEngaged <;> rfl

theorem sameMail_lower (m : Mailbox ω μ) (n : Nat) : (m.lower n).1.SameMail m := by
  unfold lower
  split <;> constructor <;> rfl

/-! ## What each request does -/

/-- Nobody is in the middle of a send or a receive. -/
structure Settled (m : Mailbox ω μ) : Prop where
  reserved_eq : m.reserved = m.queue.length
  reserved_le : m.reserved ≤ m.marks.capacity

/-- Every message in the queue has its place. Whoever is in the middle of a send or a receive may
have taken more. -/
def IsCovered (m : Mailbox ω μ) : Prop := m.queue.length ≤ m.reserved

theorem Settled.isCovered {m : Mailbox ω μ} (hm : m.Settled) : m.IsCovered :=
  Nat.le_of_eq hm.reserved_eq.symm

/-- An envelope has got in, and nobody has looked at the watermarks yet. -/
def takeIn (m : Mailbox ω μ) (e : Envelope μ) : Mailbox ω μ :=
  { m with
    queue := m.queue ++ [e.stamp m.nextSeq]
    reserved := m.reserved + 1
    nextSeq := m.nextSeq + 1
    totals := { m.totals with enqueued := m.totals.enqueued + 1 } }

/-- The head has left its queue, and nobody has looked at the watermarks yet. -/
def dispatch (m : Mailbox ω μ) (rest : List (Envelope μ)) : Mailbox ω μ :=
  { m with
    queue := rest
    reserved := m.reserved - 1
    totals := { m.totals with dequeued := m.totals.dequeued + 1 } }

/-- An open mailbox takes an envelope in while there are a place and a slot for it. -/
theorem enqueue_free {m : Mailbox ω μ} (e : Envelope μ) (hc : m.isClosed = false)
    (hroom : m.reserved < m.marks.capacity) (hfree : m.queue.length < m.marks.capacity) :
    m.enqueue e =
      ⟨{ ((m.takeIn e).raise (m.reserved + 1)).1 with receiver := none },
        Effect.pressures ((m.takeIn e).raise (m.reserved + 1)).2.2 ++ Effect.wakes m.receiver,
        .ok ((m.takeIn e).raise (m.reserved + 1)).2.1⟩ := by
  have hreceiver : ((m.takeIn e).raise (m.reserved + 1)).1.receiver = m.receiver :=
    (sameMail_raise _ _).receiver
  have hopen : ¬ m.isClosed = true := by simp [hc]
  rw [enqueue, if_neg hopen, ← hreceiver]
  simp only [reserve?, hroom, if_true, stamp, push?, hfree, wake]
  rfl

theorem enqueue_room {m : Mailbox ω μ} (hm : m.Settled) (e : Envelope μ)
    (hc : m.isClosed = false) (hroom : m.reserved < m.marks.capacity) :
    m.enqueue e =
      ⟨{ ((m.takeIn e).raise (m.reserved + 1)).1 with receiver := none },
        Effect.pressures ((m.takeIn e).raise (m.reserved + 1)).2.2 ++ Effect.wakes m.receiver,
        .ok ((m.takeIn e).raise (m.reserved + 1)).2.1⟩ :=
  enqueue_free e hc hroom (hm.reserved_eq ▸ hroom)

theorem dequeue_nil {m : Mailbox ω μ} (hq : m.queue = []) : m.dequeue = ⟨m, [], none⟩ := by
  simp [dequeue, pop?, hq]

theorem dequeue_cons {m : Mailbox ω μ} {e : Envelope μ} {rest : List (Envelope μ)}
    (hq : m.queue = e :: rest) :
    m.dequeue =
      ⟨((m.dispatch rest).lower (m.reserved - 1)).1,
        Effect.pressures ((m.dispatch rest).lower (m.reserved - 1)).2, some e⟩ := by
  simp only [dequeue, pop?, hq]
  rfl

theorem dequeue_answer (m : Mailbox ω μ) : m.dequeue.answer = m.queue.head? := by
  cases hq : m.queue with
  | nil => rw [dequeue_nil hq, List.head?_nil]
  | cons e rest => rw [dequeue_cons hq, List.head?_cons]

theorem pollDequeue_nil {m : Mailbox ω μ} (hq : m.queue = []) (w : ω) :
    m.pollDequeue w =
      ⟨m.register w, [], if m.isDrained then .ready none else .pending⟩ := by
  have hq' : (m.register w).queue = [] := hq
  simp only [pollDequeue, dequeue_nil hq, dequeue_nil hq']
  rfl

theorem pollDequeue_cons {m : Mailbox ω μ} {e : Envelope μ} {rest : List (Envelope μ)}
    (hq : m.queue = e :: rest) (w : ω) :
    m.pollDequeue w = ⟨m.dequeue.state, m.dequeue.effects, .ready (some e)⟩ := by
  simp only [pollDequeue, dequeue_cons hq]

/-! ## Requests on record -/

/-- What a mailbox can be asked for. -/
inductive Request (ω μ : Type) where
  | enqueue (e : Envelope μ)
  | dequeue
  | poll (w : ω)
  | close

/-- What a mailbox replies. -/
inductive Reply (μ : Type) where
  | sent (result : Except (Refusal (Envelope μ)) Status)
  | taken (e : Option (Envelope μ))
  | polled (e : Poll (Option (Envelope μ)))
  | closed

/-- Does what is asked for. -/
def serve (m : Mailbox ω μ) : Request ω μ → Outcome ω (Mailbox ω μ) (Reply μ)
  | .enqueue e => ⟨(m.enqueue e).state, (m.enqueue e).effects, .sent (m.enqueue e).answer⟩
  | .dequeue => ⟨m.dequeue.state, m.dequeue.effects, .taken m.dequeue.answer⟩
  | .poll w => ⟨(m.pollDequeue w).state, (m.pollDequeue w).effects,
      .polled (m.pollDequeue w).answer⟩
  | .close => ⟨m.close.state, m.close.effects, .closed⟩

/-- What can come of a request when no other is under way: the rules of a mailbox. -/
inductive Served (m : Mailbox ω μ) : Request ω μ → Outcome ω (Mailbox ω μ) (Reply μ) → Prop where
  | closed (e : Envelope μ) (hc : m.isClosed = true) :
      Served m (.enqueue e) ⟨m, [], .sent (.error (.closed e))⟩
  | full (e : Envelope μ) (hc : m.isClosed = false) (hfull : m.marks.capacity ≤ m.reserved) :
      Served m (.enqueue e) ⟨m.reject, [], .sent (.error (.full e m.marks.capacity))⟩
  | admitted (e : Envelope μ) (hc : m.isClosed = false) (hroom : m.reserved < m.marks.capacity) :
      Served m (.enqueue e)
        ⟨{ ((m.takeIn e).raise (m.reserved + 1)).1 with receiver := none },
          Effect.pressures ((m.takeIn e).raise (m.reserved + 1)).2.2 ++ Effect.wakes m.receiver,
          .sent (.ok ((m.takeIn e).raise (m.reserved + 1)).2.1)⟩
  | nothing (hq : m.queue = []) : Served m .dequeue ⟨m, [], .taken none⟩
  | taken (e : Envelope μ) (rest : List (Envelope μ)) (hq : m.queue = e :: rest) :
      Served m .dequeue
        ⟨((m.dispatch rest).lower (m.reserved - 1)).1,
          Effect.pressures ((m.dispatch rest).lower (m.reserved - 1)).2, .taken (some e)⟩
  | waiting (w : ω) (hq : m.queue = []) :
      Served m (.poll w)
        ⟨m.register w, [], .polled (if m.isDrained then .ready none else .pending)⟩
  | polled (w : ω) (e : Envelope μ) (rest : List (Envelope μ)) (hq : m.queue = e :: rest) :
      Served m (.poll w)
        ⟨((m.dispatch rest).lower (m.reserved - 1)).1,
          Effect.pressures ((m.dispatch rest).lower (m.reserved - 1)).2,
          .polled (.ready (some e))⟩
  | shut : Served m .close
      ⟨{ m with isClosed := true, receiver := none }, Effect.wakes m.receiver, .closed⟩

/-- Where every message queued has its place, each request is served by these rules. -/
theorem IsCovered.served {m : Mailbox ω μ} (hm : m.IsCovered) (request : Request ω μ) :
    Served m request (m.serve request) := by
  -- a send is looked at in the order of its checks, a receive by what is queued
  cases request with
  | enqueue e =>
      simp only [serve]
      by_cases hc : m.isClosed = true
      · rw [enqueue_closed m e hc]
        exact .closed e hc
      · rw [Bool.not_eq_true] at hc
        by_cases hroom : m.reserved < m.marks.capacity
        -- there is a slot for whoever finds a place: the queue is no longer than the places taken
        · rw [enqueue_free e hc hroom (Nat.lt_of_le_of_lt hm hroom)]
          exact .admitted e hc hroom
        · rw [enqueue_full m e hc (by omega)]
          exact .full e hc (by omega)
  | dequeue =>
      simp only [serve]
      cases hq : m.queue with
      | nil =>
          rw [dequeue_nil hq]
          exact .nothing hq
      | cons e rest =>
          rw [dequeue_cons hq]
          exact .taken e rest hq
  | poll w =>
      simp only [serve]
      cases hq : m.queue with
      | nil =>
          rw [pollDequeue_nil hq]
          exact .waiting w hq
      | cons e rest =>
          rw [pollDequeue_cons hq, dequeue_cons hq]
          exact .polled w e rest hq
  | close => exact .shut

theorem served {m : Mailbox ω μ} (hm : m.Settled) (request : Request ω μ) :
    Served m request (m.serve request) :=
  hm.isCovered.served request

/-- Whatever is asked for, every message queued keeps its place. -/
theorem Served.isCovered {m : Mailbox ω μ} (hm : m.IsCovered) {request : Request ω μ}
    {o : Outcome ω (Mailbox ω μ) (Reply μ)} (h : Served m request o) : o.state.IsCovered := by
  -- a message taken out takes its place with it
  have taking : ∀ e rest, m.queue = e :: rest →
      ((m.dispatch rest).lower (m.reserved - 1)).1.IsCovered := by
    intro e rest hq
    have hsame := sameMail_lower (m.dispatch rest) (m.reserved - 1)
    unfold IsCovered at hm ⊢
    rw [hq, List.length_cons] at hm
    rw [hsame.queue, hsame.reserved]
    exact Nat.le_sub_one_of_lt hm
  cases h with
  -- a message let in brings its place
  | admitted e hc hroom =>
      have hsame := sameMail_raise (m.takeIn e) (m.reserved + 1)
      show ((m.takeIn e).raise _).1.queue.length ≤ ((m.takeIn e).raise _).1.reserved
      rw [hsame.queue, hsame.reserved]
      simp only [takeIn, List.length_append, List.length_singleton]
      exact Nat.succ_le_succ hm
  | taken e rest hq => exact taking e rest hq
  | polled w e rest hq => exact taking e rest hq
  | _ => exact hm

/-- Serving a request leaves no place taken without a message in it. -/
theorem Served.settled {m : Mailbox ω μ} (hm : m.Settled) {request : Request ω μ}
    {o : Outcome ω (Mailbox ω μ) (Reply μ)} (h : Served m request o) : o.state.Settled := by
  have heq := hm.reserved_eq
  have hle := hm.reserved_le
  -- both ways to take a message out give back its place
  have taking : ∀ e rest, m.queue = e :: rest →
      ((m.dispatch rest).lower (m.reserved - 1)).1.Settled := by
    intro e rest hq
    have hsame := sameMail_lower (m.dispatch rest) (m.reserved - 1)
    have hlen : m.reserved = rest.length + 1 := by rw [heq, hq]; rfl
    constructor
    · rw [hsame.reserved, hsame.queue]
      simp only [dispatch]
      omega
    · rw [hsame.reserved, hsame.marks]
      simp only [dispatch]
      omega
  cases h with
  | closed e hc => exact hm
  | full e hc hfull => exact ⟨heq, hle⟩
  | admitted e hc hroom =>
      have hsame := sameMail_raise (m.takeIn e) (m.reserved + 1)
      constructor
      · show ((m.takeIn e).raise _).1.reserved = ((m.takeIn e).raise _).1.queue.length
        rw [hsame.reserved, hsame.queue]
        simp only [takeIn, List.length_append, List.length_singleton]
        omega
      · show ((m.takeIn e).raise _).1.reserved ≤ ((m.takeIn e).raise _).1.marks.capacity
        rw [hsame.reserved, hsame.marks]
        exact hroom
  | nothing hq => exact hm
  | taken e rest hq => exact taking e rest hq
  | waiting w hq => exact ⟨heq, hle⟩
  | polled w e rest hq => exact taking e rest hq
  | shut => exact ⟨heq, hle⟩

/-- No request changes the sizing. -/
theorem Served.marks {m : Mailbox ω μ} {request : Request ω μ}
    {o : Outcome ω (Mailbox ω μ) (Reply μ)} (h : Served m request o) :
    o.state.marks = m.marks := by
  cases h with
  | admitted e hc hroom => exact (sameMail_raise _ _).marks
  | taken e rest hq => exact (sameMail_lower _ _).marks
  | polled w e rest hq => exact (sameMail_lower _ _).marks
  | _ => rfl

/-! ## Records -/

/-- A request with its effects and its reply. -/
structure Entry (ω μ : Type) where
  request : Request ω μ
  effects : List (Effect ω)
  reply : Reply μ

/-- A mailbox with everything it was asked for, oldest request first. -/
structure Record (ω μ : Type) where
  mailbox : Mailbox ω μ
  entries : List (Entry ω μ)

/-- Serves a request and puts it on record. -/
def Record.next (r : Record ω μ) (request : Request ω μ) : Record ω μ :=
  let o := r.mailbox.serve request
  ⟨o.state, r.entries ++ [⟨request, o.effects, o.answer⟩]⟩

/-- The record of a run of requests on a mailbox. -/
def record (m : Mailbox ω μ) (requests : List (Request ω μ)) : Record ω μ :=
  requests.foldl Record.next ⟨m, []⟩

/-- What an empty record has and every request keeps, every record has. -/
theorem record_invariant {P : Record ω μ → Prop} {m : Mailbox ω μ} (hinit : P ⟨m, []⟩)
    (hnext : ∀ r request, P r → P (r.next request)) (requests : List (Request ω μ)) :
    P (record m requests) := by
  unfold record
  generalize (⟨m, []⟩ : Record ω μ) = r at hinit ⊢
  induction requests generalizing r with
  | nil => exact hinit
  | cons request rest ih => exact ih (r.next request) (hnext r request hinit)

theorem settled_ofMarks (marks : Watermarks) : (ofMarks marks : Mailbox ω μ).Settled :=
  ⟨rfl, Nat.zero_le _⟩

theorem open?_eq_ok_iff (marks : Watermarks) (m : Mailbox ω μ) :
    open? marks = .ok m ↔ marks.Valid ∧ m = ofMarks marks := by
  rw [← Watermarks.check_eq_none_iff]
  unfold open? Watermarks.validate
  cases marks.check with
  | none => simp [eq_comm]
  | some why => simp

end Mailbox

end Troupe
