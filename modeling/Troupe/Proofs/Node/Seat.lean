import Troupe.Node.Running
import Troupe.Proofs.Mailbox.Run
import Troupe.Proofs.Table

/-!
# What a node keeps of an agent

To those who write to an agent or end it, and to the agent's own turn, a seat is a queue
of messages and a few flags: its standing. Each operation of the node changes the
standing in one way, whatever else it does.

* `perform_invariant` — what wakes and tellings keep, carrying out effects keeps;
* `Seated.perform` — so it changes no standing;
* `Seated.receive_cons`, `Seated.send`, `Seated.terminate` — what the others do to it.
-/

namespace Troupe

/-- What matters of a seat where messages are concerned. -/
structure Standing (μ : Type) where
  queue : List (Envelope μ)
  nextSeq : Nat
  isClosed : Bool
  isTerminating : Bool
  isRegistered : Bool

def Seat.standing {μ ε : Type} (seat : Seat μ ε) : Standing μ :=
  ⟨seat.mailbox.queue, seat.mailbox.nextSeq, seat.mailbox.isClosed, seat.header.isTerminating,
    seat.isRegistered⟩

theorem Header.isTerminating_wake {τ : Type} (h : Header τ) :
    h.wake.1.isTerminating = h.isTerminating := by
  unfold Header.wake
  split <;> rfl

namespace Node

variable {μ ε : Type} {n : Node μ ε} {id : AgentId} {v : Standing μ}

/-- An agent has a seat of a given standing, and nobody is halfway through its mailbox. -/
def Seated (n : Node μ ε) (id : AgentId) (v : Standing μ) : Prop :=
  ∃ seat, n.seat? id = some seat ∧ seat.mailbox.Settled ∧ seat.standing = v

theorem Seated.congr {n' : Node μ ε} (h : n.Seated id v) (hseats : n'.seats = n.seats) :
    n'.Seated id v := by
  obtain ⟨seat, hseat, hrest⟩ := h
  exact ⟨seat, (congrArg (·.get? id) hseats).trans hseat, hrest⟩

theorem seat?_alterSeat (n : Node μ ε) (id other : AgentId) (f : Seat μ ε → Seat μ ε) :
    (n.alterSeat id f).seat? other =
      if other = id then (n.seat? id).map f else n.seat? other :=
  n.seats.get?_modify id other f

/-- A change to a seat whose outcome is known. -/
theorem seated_alterSeat {seat : Seat μ ε} {f : Seat μ ε → Seat μ ε}
    (hseat : n.seat? id = some seat)
    (hsettled : (f seat).mailbox.Settled) : (n.alterSeat id f).Seated id (f seat).standing := by
  refine ⟨f seat, ?_, hsettled, rfl⟩
  rw [seat?_alterSeat, if_pos rfl, hseat]
  rfl

/-- A change of header that leaves the request to end alone. -/
theorem Seated.alterHeader (h : n.Seated id v) {other : AgentId} {header : Header Task}
    (hheader : ∀ seat, n.seat? other = some seat →
      header.isTerminating = seat.header.isTerminating) :
    (n.alterSeat other fun seat => { seat with header }).Seated id v := by
  obtain ⟨seat, hseat, hsettled, rfl⟩ := h
  by_cases ho : id = other
  · subst ho
    have hstanding : ({ seat with header } : Seat μ ε).standing = seat.standing := by
      simp only [Seat.standing, hheader seat hseat]
    rw [← hstanding]
    exact seated_alterSeat (f := fun seat => { seat with header }) hseat hsettled
  · exact ⟨seat, by rw [seat?_alterSeat, if_neg ho, hseat], hsettled, rfl⟩

/-! ## Waking and telling -/

/-- A wake writes the header of the agent, and at most queues a task. -/
theorem wake_invariant {P : Node μ ε → Prop} (h : P n)
    (hwoken : ∀ seat, n.seat? id = some seat →
      P (n.alterSeat id fun s => { s with header := seat.header.wake.1 }))
    (hpool : ∀ (n' : Node μ ε) pool, P n' → P { n' with pool }) : P (n.wake id) := by
  unfold Node.wake
  cases hseat : n.seat? id with
  | none => exact h
  | some seat =>
      dsimp only
      split
      · exact hpool _ _ (hwoken seat hseat)
      · exact hwoken seat hseat

/-- Effects wake agents, count events and tell observers. -/
theorem perform_invariant {P : Node μ ε → Prop} (h : P n) {owner : AgentId}
    {effects : List (Effect Waker)}
    (hwake : ∀ (n' : Node μ ε) other, .wake (.agent other) ∈ effects → P n' → P (n'.wake other))
    (htold : ∀ (n' : Node μ ε) engaged cleared app, P n' →
      P { n' with metrics := { n'.metrics with engaged, cleared }, app }) :
    P (n.perform owner effects) := by
  -- on the effects: a wake of an agent, or a count that is told to the observer
  induction effects generalizing n with
  | nil => exact h
  | cons effect rest ih =>
      have hrest : ∀ (n' : Node μ ε) other, .wake (.agent other) ∈ rest → P n' →
          P (n'.wake other) := by
        intro n' other hother
        exact hwake n' other (List.mem_cons_of_mem effect hother)
      cases effect with
      | wake w =>
          cases w with
          | agent other => exact ih (hwake n other List.mem_cons_self h) hrest
          | outsider => exact ih h hrest
      | pressure event =>
          cases event with
          | engaged length => exact ih (htold n _ n.metrics.cleared _ h) hrest
          | cleared length => exact ih (htold n n.metrics.engaged _ _ h) hrest

/-- A wake leaves where an agent stands. -/
theorem Seated.wake (h : n.Seated id v) (other : AgentId) : (n.wake other).Seated id v := by
  refine wake_invariant (P := fun n => n.Seated id v) h ?_ fun n' pool hn' => hn'.congr rfl
  intro seat hseat
  refine h.alterHeader fun seat' hseat' => ?_
  obtain rfl := Option.some.inj (hseat.symm.trans hseat')
  exact seat.header.isTerminating_wake

theorem Seated.perform (h : n.Seated id v) (owner : AgentId) (effects : List (Effect Waker)) :
    (n.perform owner effects).Seated id v :=
  perform_invariant (P := fun n => n.Seated id v) h (fun _ other _ hn' => hn'.wake other)
    fun _ _ _ _ hn' => hn'.congr rfl

/-! ## What the agent's turn does -/

theorem Seated.isTerminating_eq (h : n.Seated id v) : n.isTerminating id = v.isTerminating := by
  obtain ⟨seat, hseat, -, rfl⟩ := h
  rw [Node.isTerminating, hseat]
  rfl

theorem Seated.pending_eq (h : n.Seated id v) : n.pending id = v.queue.length := by
  obtain ⟨seat, hseat, hsettled, rfl⟩ := h
  rw [pending, hseat]
  exact hsettled.reserved_eq

/-- Whether a mailbox is empty is read off where its agent stands. -/
theorem Seated.isEmpty_eq (h : n.Seated id v) :
    (Node.around id : Surroundings (Node μ ε) μ).isEmpty n = v.queue.isEmpty := by
  show (n.pending id == 0) = v.queue.isEmpty
  rw [h.pending_eq]
  cases v.queue <;> rfl

/-- A mailbox is put back into its seat. -/
theorem seated_store {seat : Seat μ ε} (hseat : n.seat? id = some seat) {m : Mailbox Waker μ}
    (hm : m.Settled) :
    (n.alterSeat id fun s => { s with mailbox := m }).Seated id { seat.standing with
      queue := m.queue, nextSeq := m.nextSeq, isClosed := m.isClosed } :=
  seated_alterSeat (f := fun s => { s with mailbox := m }) hseat hm

/-- A receive from an empty mailbox leaves where the agent stands. -/
theorem Seated.receive_nil (h : n.Seated id v) (hq : v.queue = []) :
    (n.receive id).2 = none ∧ (n.receive id).1.Seated id v := by
  obtain ⟨seat, hseat, hsettled, rfl⟩ := h
  have hq : seat.mailbox.queue = [] := hq
  simp only [receive, hseat, Mailbox.dequeue_nil hq, true_and]
  exact (seated_store hseat hsettled).congr rfl

/-- A receive takes the head of the queue. -/
theorem Seated.receive_cons (h : n.Seated id v) {e : Envelope μ} {rest : List (Envelope μ)}
    (hq : v.queue = e :: rest) :
    (n.receive id).2 = some e ∧ (n.receive id).1.Seated id { v with queue := rest } := by
  obtain ⟨seat, hseat, hsettled, rfl⟩ := h
  have hq : seat.mailbox.queue = e :: rest := hq
  have hsame := Mailbox.sameMail_lower (seat.mailbox.dispatch rest) (seat.mailbox.reserved - 1)
  have hafter := (Mailbox.Served.taken e rest hq).settled hsettled
  have hstored := seated_store hseat hafter
  simp only [hsame.queue, hsame.nextSeq, hsame.isClosed] at hstored
  simp only [receive, hseat, Mailbox.dequeue_cons hq, true_and]
  refine Seated.perform ?_ id _
  exact hstored.congr rfl

/-- Registering the receiver leaves where the agent stands. -/
theorem Seated.register (h : n.Seated id v) :
    ((Node.around id).register n : Node μ ε).Seated id v := by
  obtain ⟨seat, hseat, hsettled, rfl⟩ := h
  exact seated_alterSeat
    (f := fun seat => { seat with mailbox := seat.mailbox.register (.agent id) }) hseat
    ⟨hsettled.reserved_eq, hsettled.reserved_le⟩

/-- Closing the mailbox is seen in where the agent stands. -/
theorem Seated.closeMailbox (h : n.Seated id v) :
    (n.closeMailbox id).Seated id { v with isClosed := true } := by
  obtain ⟨seat, hseat, hsettled, rfl⟩ := h
  have hafter : seat.mailbox.close.state.Settled := (Mailbox.Served.shut).settled hsettled
  simp only [Node.closeMailbox, hseat]
  exact Seated.perform (seated_store hseat hafter) id _

/-- Leaving the register is seen in where the agent stands. -/
theorem Seated.deregister (h : n.Seated id v) :
    (n.deregister id).Seated id { v with isRegistered := false } := by
  obtain ⟨seat, hseat, hsettled, rfl⟩ := h
  simp only [Node.deregister, hseat]
  by_cases hr : seat.isRegistered = true
  · rw [if_pos hr]
    exact (seated_alterSeat (f := fun seat => { seat with isRegistered := false }) hseat
      hsettled).congr rfl
  · rw [if_neg hr]
    refine ⟨seat, hseat, hsettled, ?_⟩
    rw [Bool.not_eq_true] at hr
    simp only [Seat.standing, hr]

/-! ## What others do -/

/-- An agent on the register is asked to end. -/
theorem Seated.terminate (h : n.Seated id v) (hr : v.isRegistered = true)
    (hfirst : v.isTerminating = false) :
    (n.terminate id).1.Seated id { v with isTerminating := true, isClosed := true } := by
  obtain ⟨seat, hseat, hsettled, rfl⟩ := h
  have hr : seat.isRegistered = true := hr
  have hfirst : seat.header.isTerminating = false := hfirst
  have hasked := seated_alterSeat
    (f := fun s => { s with header := seat.header.requestEnd.1 }) hseat hsettled
  simp only [Node.terminate, hseat, hr, Header.requestEnd, hfirst]
  exact (Seated.closeMailbox hasked).wake id

/-- The number that the next message to an agent will bear. -/
def nextSeq (n : Node μ ε) (id : AgentId) : Nat :=
  ((n.seat? id).map fun seat => seat.mailbox.nextSeq).getD 0

theorem Seated.nextSeq_eq (h : n.Seated id v) : n.nextSeq id = v.nextSeq := by
  obtain ⟨seat, hseat, -, rfl⟩ := h
  rw [nextSeq, hseat]
  rfl

/-- A spawned agent has an empty mailbox, and nobody has asked it to end. -/
theorem seated_spawn {options : SpawnOptions ε} (hspawn : (n.spawn options).2 = .ok id) :
    (n.spawn options).1.Seated id ⟨[], 1, false, false, true⟩ := by
  unfold spawn at hspawn ⊢
  by_cases hrun : n.isRunning = false
  · rw [if_pos hrun] at hspawn
    exact nomatch hspawn
  · rw [if_neg hrun] at hspawn ⊢
    dsimp only at hspawn ⊢
    -- an accepted spawn has passed the look, so the seat is the one enrolled
    by_cases hholds : holdsState (options.capability.getD .isolated) = false
    · rw [if_pos hholds] at hspawn
      exact nomatch hspawn
    · rw [if_neg hholds] at hspawn ⊢
      cases hopen : (Mailbox.open? (options.mailbox.getD n.settings.mailbox) :
          Except Fault (Mailbox Waker μ)) with
      | error why =>
          rw [hopen] at hspawn
          exact nomatch hspawn
      | ok mailbox =>
          obtain ⟨-, rfl⟩ := (Mailbox.open?_eq_ok_iff _ mailbox).mp hopen
          rw [hopen] at hspawn
          obtain rfl : n.nextId = id := Except.ok.inj hspawn
          exact ⟨_, Table.get?_insert_self _ _ _, Mailbox.settled_ofMarks _, rfl⟩

variable [Transferable μ]

/-- A message that is accepted is stamped and queued. -/
theorem Seated.send_ok (h : n.Seated id v) {message : μ} {sender : Option AgentId} {status : Status}
    (hok : (n.send id message sender).2 = .ok status) :
    v.isClosed = false ∧ ∃ e, Envelope.trySeal message sender = .ok e ∧
      (n.send id message sender).1.Seated id
        { v with queue := v.queue ++ [e.stamp v.nextSeq], nextSeq := v.nextSeq + 1 } := by
  obtain ⟨seat, hseat, hsettled, rfl⟩ := h
  unfold Node.send at hok ⊢
  cases hseal : Envelope.trySeal message sender with
  | error m =>
      rw [hseal] at hok
      exact nomatch hok
  | ok e =>
      simp only [hseal, hseat] at hok ⊢
      -- an accepted message has found the mailbox open and with room
      by_cases hc : seat.mailbox.isClosed = true
      · rw [Mailbox.enqueue_closed _ e hc] at hok
        exact nomatch hok
      · rw [Bool.not_eq_true] at hc
        by_cases hroom : seat.mailbox.reserved < seat.mailbox.marks.capacity
        · have hsame := Mailbox.sameMail_raise (seat.mailbox.takeIn e) (seat.mailbox.reserved + 1)
          have hafter := (Mailbox.Served.admitted e hc hroom).settled hsettled
          refine ⟨hc, e, rfl, Seated.perform ?_ id _⟩
          have hstored := seated_alterSeat
            (f := fun s => { s with mailbox := (seat.mailbox.enqueue e).state }) hseat
            (by rw [Mailbox.enqueue_room hsettled e hc hroom]; exact hafter)
          have hstanding :
              ({ seat with mailbox := (seat.mailbox.enqueue e).state } : Seat μ ε).standing =
                { seat.standing with
                  queue := seat.standing.queue ++ [e.stamp seat.standing.nextSeq]
                  nextSeq := seat.standing.nextSeq + 1 } := by
            simp only [Seat.standing, Mailbox.enqueue_room hsettled e hc hroom, hsame.queue,
              hsame.nextSeq, hsame.isClosed]
            rfl
          rw [hstanding] at hstored
          exact hstored.congr rfl
        · rw [Mailbox.enqueue_full _ e hc (Nat.not_lt.mp hroom)] at hok
          exact nomatch hok

/-- A message that is refused leaves the seat as it stands. -/
theorem Seated.send_error (h : n.Seated id v) {message : μ} {sender : Option AgentId}
    {refusal : Refusal μ} (herror : (n.send id message sender).2 = .error refusal) :
    (n.send id message sender).1.Seated id v := by
  obtain ⟨seat, hseat, hsettled, rfl⟩ := h
  unfold Node.send at herror ⊢
  cases hseal : Envelope.trySeal message sender with
  | error m => exact ⟨seat, hseat, hsettled, rfl⟩
  | ok e =>
      simp only [hseal, hseat] at herror ⊢
      refine Seated.perform ?_ id _
      -- a refusal changes at most the count of refusals
      by_cases hc : seat.mailbox.isClosed = true
      · rw [Mailbox.enqueue_closed _ e hc]
        exact (seated_store hseat hsettled).congr rfl
      · rw [Bool.not_eq_true] at hc
        by_cases hroom : seat.mailbox.reserved < seat.mailbox.marks.capacity
        · rw [Mailbox.enqueue_room hsettled e hc hroom] at herror
          exact nomatch herror
        · rw [Mailbox.enqueue_full _ e hc (Nat.not_lt.mp hroom)]
          have hafter : seat.mailbox.reject.Settled := ⟨hsettled.reserved_eq, hsettled.reserved_le⟩
          exact (seated_store hseat hafter).congr rfl

end Node

end Troupe
