import Troupe.Node.Handover
import Troupe.Proofs.Mailbox.Closing
import Troupe.Proofs.Node.Seat

/-!
# A value that is handed over is in one place

A value leaves its cell before the mailbox has been asked, so handing it over can fail when the
cell is already empty. Either the mailbox takes the value in, or the cell has it again and the
mailbox has done no more than count the refusal. Whatever else happens to cell and mailbox, the
value is always with one keeper: the cell, the caller, the mailbox or the receiver.

* `isCovered_run` — a mailbox in use has a place for every message;
* `exchanged_send`, `exchanged_receive`, `exchanged_closeMailbox` — these operations of a node are
  operations of one mailbox;
* `exists_handedOver` — what comes of handing over, by the states of cell and mailbox;
* `Kept.next` — no act loses or doubles a value;
* `handOver_isAllOrNothing` — the value has one keeper, whatever is done.
-/

namespace Troupe

/-- Whoever is halfway through a send or a receive, every message queued has its place. -/
theorem Mailbox.Traffic.isCovered_run {ω μ : Type} (marks : Watermarks)
    (actions : List (Action ω μ)) : ((start marks).run actions).mailbox.IsCovered := by
  have hreserved := (kept_run marks actions).reserved
  rw [IsCovered, hreserved, Nat.add_assoc]
  exact Nat.le_add_right _ _

namespace Carriage

variable {α μ : Type} [Transferable μ]

/-- A value under seal, before a mailbox has numbered it. -/
def sealed (way : Carriage α μ) (a : α) : Envelope μ := ⟨way.load a, .isolated, none, 0⟩

/-- No seal is refused to a value that travels alone. -/
theorem trySeal_load (way : Carriage α μ) (a : α) :
    Envelope.trySeal (way.load a) none = .ok (way.sealed a) := by
  rw [Envelope.trySeal_eq_ok_iff, way.capability_load]
  exact ⟨rfl, rfl⟩

theorem putBack_load (way : Carriage α μ) (a : α) (c : Cell α) :
    way.putBack (way.load a) c = ⟨some a⟩ := by
  rw [putBack, way.unload?_load]
  rfl

end Carriage

namespace Node

variable {μ ε : Type} {n n' n'' : Node μ ε} {id : AgentId} {m m' : Mailbox Waker μ}

/-! ## The mailbox of an agent -/

/-- The mailbox of an agent. -/
def mailbox? (n : Node μ ε) (id : AgentId) : Option (Mailbox Waker μ) :=
  (n.seat? id).map fun seat => seat.mailbox

theorem exists_seat (hm : n.mailbox? id = some m) :
    ∃ seat, n.seat? id = some seat ∧ seat.mailbox = m :=
  Option.map_eq_some_iff.mp hm

/-- What is done to a seat without touching its mailbox. -/
theorem mailbox?_alterSeat (n : Node μ ε) (id : AgentId) {f : Seat μ ε → Seat μ ε}
    (hf : ∀ seat, (f seat).mailbox = seat.mailbox) (other : AgentId) :
    (n.alterSeat id f).mailbox? other = n.mailbox? other := by
  simp only [mailbox?, seat?_alterSeat]
  by_cases ho : other = id
  · subst ho
    rw [if_pos rfl, Option.map_map]
    exact congrArg (Option.map · (n.seat? other)) (funext hf)
  · rw [if_neg ho]

/-- Waking changes no mailbox. -/
theorem mailbox?_wake (n : Node μ ε) (id other : AgentId) :
    (n.wake id).mailbox? other = n.mailbox? other := by
  refine wake_invariant (P := fun n' => n'.mailbox? other = n.mailbox? other) rfl ?_
    fun n' pool hn' => hn'
  intro seat _
  exact mailbox?_alterSeat n id (f := fun s => { s with header := seat.header.wake.1 })
    (fun _ => rfl) other

theorem mailbox?_perform (n : Node μ ε) (owner : AgentId) (effects : List (Effect Waker))
    (other : AgentId) : (n.perform owner effects).mailbox? other = n.mailbox? other :=
  perform_invariant (P := fun n' => n'.mailbox? other = n.mailbox? other) rfl
    (fun n' woken _ hn' => (mailbox?_wake n' woken other).trans hn') fun _ _ _ _ hn' => hn'

/-- An agent's mailbox was exchanged for another, and the mailboxes of all others are as they
were. -/
structure Exchanged (id : AgentId) (m : Mailbox Waker μ) (n n' : Node μ ε) : Prop where
  own : n'.mailbox? id = some m
  others : ∀ other, other ≠ id → n'.mailbox? other = n.mailbox? other

theorem Exchanged.refl (hm : n.mailbox? id = some m) : Exchanged id m n n := ⟨hm, fun _ _ => rfl⟩

theorem Exchanged.congr (h : Exchanged id m n n')
    (hsame : ∀ other, n''.mailbox? other = n'.mailbox? other) : Exchanged id m n n'' where
  own := (hsame id).trans h.own
  others other hother := (hsame other).trans (h.others other hother)

/-- Storing a mailbox exchanges it. -/
theorem exchanged_alterSeat (hm : n.mailbox? id = some m) (m' : Mailbox Waker μ) :
    Exchanged id m' n (n.alterSeat id fun seat => { seat with mailbox := m' }) := by
  obtain ⟨seat, hseat, -⟩ := exists_seat hm
  constructor
  · rw [mailbox?, seat?_alterSeat, if_pos rfl, hseat]
    rfl
  · intro other hother
    rw [mailbox?, seat?_alterSeat, if_neg hother]
    rfl

/-- Receiving exchanges the mailbox for the one without its head. -/
theorem exchanged_receive (hm : n.mailbox? id = some m) :
    Exchanged id m.dequeue.state n (n.receive id).1 ∧ (n.receive id).2 = m.dequeue.answer := by
  obtain ⟨seat, hseat, rfl⟩ := exists_seat hm
  simp only [receive, hseat, and_true]
  exact (exchanged_alterSeat hm _).congr fun other => mailbox?_perform _ _ _ other

/-- Closing exchanges the mailbox for the closed one. -/
theorem exchanged_closeMailbox (hm : n.mailbox? id = some m) :
    Exchanged id m.close.state n (n.closeMailbox id) := by
  obtain ⟨seat, hseat, rfl⟩ := exists_seat hm
  simp only [closeMailbox, hseat]
  exact (exchanged_alterSeat hm _).congr fun other => mailbox?_perform _ _ _ other

variable [Transferable μ]

/-- A message that may travel is the mailbox's affair. -/
theorem exchanged_send (hm : n.mailbox? id = some m) {message : μ} {sender : Option AgentId}
    {e : Envelope μ} (hseal : Envelope.trySeal message sender = .ok e) :
    Exchanged id (m.enqueue e).state n (n.send id message sender).1 ∧
      (n.send id message sender).2 =
        (m.enqueue e).answer.mapError fun refusal => refusal.map Envelope.payload := by
  obtain ⟨seat, hseat, rfl⟩ := exists_seat hm
  simp only [send, hseal, hseat]
  constructor
  · exact (exchanged_alterSeat hm _).congr fun other => mailbox?_perform _ _ _ other
  · cases (seat.mailbox.enqueue e).answer <;> rfl

/-! ## Handing over -/

variable {α : Type} {way : Carriage α μ} {c c' : Cell α} {answer : Except Fault Status}

/-- What can come of handing over the value of a cell: the mailbox and the cell afterwards, and
the answer. -/
inductive HandedOver (way : Carriage α μ) (m : Mailbox Waker μ) (c : Cell α) :
    Mailbox Waker μ → Cell α → Except Fault Status → Prop where
  | consumed (hnone : c.value = none) : HandedOver way m c m c (.error .consumed)
  | closed {a : α} (hsome : c.value = some a) (hclosed : m.isClosed = true) :
      HandedOver way m c m c (.error .mailboxClosed)
  | full {a : α} (hsome : c.value = some a) (hopen : m.isClosed = false)
      (hfull : m.marks.capacity ≤ m.reserved) :
      HandedOver way m c m.reject c (.error (.mailboxFull m.marks.capacity))
  /-- The value is at the end of the queue, and the cell is empty. -/
  | taken {a : α} {m' : Mailbox Waker μ} {status : Status} (hsome : c.value = some a)
      (hopen : m.isClosed = false) (hroom : m.reserved < m.marks.capacity)
      (hmail : m'.SameMail { m.takeIn (way.sealed a) with receiver := none })
      (hstatus : status.isBackpressured = m'.isEngaged) :
      HandedOver way m c m' ⟨none⟩ (.ok status)

/-- Handing over a value is sending it, and putting it back if it is refused. -/
theorem handOver_some (n : Node μ ε) (way : Carriage α μ) (a : α) (id : AgentId) :
    n.handOver way ⟨some a⟩ id =
      ((n.send id (way.load a) none).1, match (n.send id (way.load a) none).2 with
        | .ok status => (⟨none⟩, .ok status)
        | .error refusal => (way.putBack refusal.message ⟨none⟩, .error refusal.fault)) := by
  simp only [handOver, Cell.take]
  cases (n.send id (way.load a) none).2 <;> rfl

/-- Handing over touches the mailbox of the agent only, and leaves nothing halfway. -/
theorem exists_handedOver (hm : n.mailbox? id = some m) (hcovered : m.IsCovered)
    (way : Carriage α μ) (c : Cell α) :
    ∃ m', Exchanged id m' n (n.handOver way c id).1 ∧
      HandedOver way m c m' (n.handOver way c id).2.1 (n.handOver way c id).2.2 := by
  -- an empty cell was handed over before; a full one is answered by the mailbox
  obtain ⟨_ | a⟩ := c
  · exact ⟨m, .refl hm, .consumed rfl⟩
  · obtain ⟨hexchanged, hanswer⟩ := exchanged_send hm (way.trySeal_load a)
    refine ⟨(m.enqueue (way.sealed a)).state, ?_, ?_⟩
    · rw [handOver_some]
      exact hexchanged
    · rw [handOver_some, hanswer]
      -- the cell is empty by now, and what a refusal brings back is what was sent
      by_cases hclosed : m.isClosed = true
      · rw [Mailbox.enqueue_closed m _ hclosed]
        show HandedOver way m ⟨some a⟩ m (way.putBack (way.load a) ⟨none⟩) (.error .mailboxClosed)
        rw [way.putBack_load]
        exact .closed rfl hclosed
      · rw [Bool.not_eq_true] at hclosed
        by_cases hroom : m.reserved < m.marks.capacity
        · rw [Mailbox.enqueue_free _ hclosed hroom (Nat.lt_of_le_of_lt hcovered hroom)]
          have hsame := Mailbox.sameMail_raise (m.takeIn (way.sealed a)) (m.reserved + 1)
          exact .taken rfl hclosed hroom { hsame with receiver := rfl }
            (Mailbox.isBackpressured_raise _ _)
        · have hfull : m.marks.capacity ≤ m.reserved := Nat.not_lt.mp hroom
          rw [Mailbox.enqueue_full m _ hclosed hfull]
          show HandedOver way m ⟨some a⟩ m.reject (way.putBack (way.load a) ⟨none⟩)
            (.error (.mailboxFull m.marks.capacity))
          rw [way.putBack_load]
          exact .full rfl hclosed hfull

/-- Every message queued has its place afterwards too. -/
theorem HandedOver.isCovered (h : HandedOver way m c m' c' answer) (hcovered : m.IsCovered) :
    m'.IsCovered := by
  cases h with
  | taken hsome hopen hroom hmail hstatus =>
      rw [Mailbox.IsCovered, hmail.queue, hmail.reserved]
      simp only [Mailbox.takeIn, List.length_append, List.length_singleton]
      exact Nat.succ_le_succ hcovered
  | _ => exact hcovered

/-- The cell is empty afterwards, or it is as it was. -/
theorem HandedOver.cell_eq (h : HandedOver way m c m' c' answer) : c' = c ∨ c' = ⟨none⟩ := by
  cases h with
  | taken => exact .inr rfl
  | _ => exact .inl rfl

end Node

/-! ## Errands -/

/-- A caller who sends the value of a cell to an agent, and what has come of it so far. -/
structure Errand (α μ ε : Type) where
  node : Node μ ε
  cell : Cell α
  /-- What the caller has taken out of the cell and not put back. -/
  held : Option α
  /-- What the agent has received, oldest first. -/
  received : List (Envelope μ)

namespace Errand

/-- What can happen to a cell and to the mailbox of an agent. -/
inductive Act (α μ : Type) where
  | get
  | update (f : α → α)
  | take
  /-- The caller puts back what he took. -/
  | restore
  | send
  | receive
  /-- Somebody else writes to the agent. -/
  | signal (message : μ) (sender : Option AgentId)
  | close

/-- Who can have a value. -/
inductive Keeper where
  | cell
  | caller
  | mailbox
  | receiver
deriving DecidableEq

variable {α μ ε ι : Type} [Transferable μ]

/-- An act is done. One that finds nothing to work on changes nothing. -/
def next (way : Carriage α μ) (id : AgentId) (s : Errand α μ ε) : Act α μ → Errand α μ ε
  -- whoever looks at a value leaves it where it is
  | .get => s
  | .update f =>
    match s.cell.update f with
    | .ok cell => { s with cell }
    | .error _ => s
  | .take =>
    match s.cell.take with
    | .ok (a, cell) => { s with cell, held := some a }
    | .error _ => s
  | .restore =>
    match s.held with
    | some a => { s with cell := s.cell.restore a, held := none }
    | none => s
  | .send =>
    let (node, cell, _) := s.node.handOver way s.cell id
    { s with node, cell }
  | .receive =>
    let (node, e) := s.node.receive id
    { s with node, received := s.received ++ e.toList }
  | .signal message sender => { s with node := (s.node.send id message sender).1 }
  | .close => { s with node := s.node.closeMailbox id }

section Copies

variable [DecidableEq ι] (way : Carriage α μ) (id : AgentId) (ident : α → ι) (x : ι)

/-- An act that gives no value the identity of another, and brings in no other value that bears
the identity `x`. -/
def Act.IsFair : Act α μ → Prop
  | .update f => ∀ a, ident (f a) = ident a
  | .signal message _ => ∀ a, way.unload? message = some a → ident a ≠ x
  | _ => True

/-- How many values bear an identity. -/
def tally (values : List α) : Nat := values.countP fun a => ident a = x

/-- How many messages carry a value that bears an identity. -/
def carried (queue : List (Envelope μ)) : Nat :=
  tally ident x (queue.filterMap fun e => way.unload? e.payload)

/-- How many values with a keeper bear an identity. -/
def copies (s : Errand α μ ε) : Keeper → Nat
  | .cell => tally ident x s.cell.value.toList
  | .caller => tally ident x s.held.toList
  | .mailbox => ((s.node.mailbox? id).map fun m => carried way ident x m.queue).getD 0
  | .receiver => carried way ident x s.received

/-- One value bears an identity, and it is with this keeper. -/
def IsOnlyWith (s : Errand α μ ε) (keeper : Keeper) : Prop :=
  ∀ other, s.copies way id ident x other = if other = keeper then 1 else 0

/-- How many values bear an identity, wherever they are. -/
def total (s : Errand α μ ε) : Nat :=
  s.copies way id ident x .cell + s.copies way id ident x .caller +
    s.copies way id ident x .mailbox + s.copies way id ident x .receiver

end Copies

/-! ## No act loses or doubles a value -/

variable [DecidableEq ι] {way : Carriage α μ} {id : AgentId} {ident : α → ι} {x : ι}
  {s : Errand α μ ε} {m m' : Mailbox Waker μ}

/-- Copies in two queues are added up. -/
theorem carried_append (queue queue' : List (Envelope μ)) :
    carried way ident x (queue ++ queue') =
      carried way ident x queue + carried way ident x queue' := by
  rw [carried, List.filterMap_append, tally, List.countP_append]
  rfl

theorem carried_singleton (e : Envelope μ) :
    carried way ident x [e] = tally ident x (way.unload? e.payload).toList := by
  rw [carried, List.filterMap_cons]
  cases way.unload? e.payload <;> rfl

/-- The mailbox has more what the cell has less. -/
theorem carried_handedOver (ident : α → ι) (x : ι) {c c' : Cell α} {answer : Except Fault Status}
    (h : Node.HandedOver way m c m' c' answer) :
    tally ident x c'.value.toList + carried way ident x m'.queue =
      tally ident x c.value.toList + carried way ident x m.queue := by
  cases h with
  | @taken a m' status hsome hopen hroom hmail hstatus =>
      -- the one message more carries what the cell had
      have hunload : way.unload? ((way.sealed a).stamp m.nextSeq).payload = some a :=
        way.unload?_load a
      have hqueue : m'.queue = m.queue ++ [(way.sealed a).stamp m.nextSeq] := hmail.queue
      rw [hqueue, hsome, carried_append, carried_singleton, hunload, Nat.add_comm (carried _ _ _ _)]
      exact Nat.zero_add _
  | _ => rfl

/-- A message that carries no value of an identity adds none, whether it gets in or not. -/
theorem carried_enqueue (hcovered : m.IsCovered) {e : Envelope μ}
    (he : ∀ a, way.unload? e.payload = some a → ident a ≠ x) :
    carried way ident x (m.enqueue e).state.queue = carried way ident x m.queue := by
  have hserved : m.Served (.enqueue e) (m.serve (.enqueue e)) := hcovered.served _
  show carried way ident x (m.serve (.enqueue e)).state.queue = _
  generalize m.serve (.enqueue e) = o at hserved ⊢
  -- only an admitted envelope is queued, and it carries no copy
  cases hserved with
  | closed _ hclosed => rfl
  | full _ hopen hfull => rfl
  | admitted _ hopen hroom =>
      have hqueue := (Mailbox.sameMail_raise (m.takeIn e) (m.reserved + 1)).queue
      have hnothing : carried way ident x [e.stamp m.nextSeq] = 0 := by
        rw [carried_singleton, tally, List.countP_eq_zero]
        intro a ha
        simpa using he a (Option.mem_toList.mp ha)
      show carried way ident x ((m.takeIn e).raise _).1.queue = _
      rw [hqueue]
      exact (carried_append _ _).trans (by rw [hnothing, Nat.add_zero])

/-- The receiver has what the mailbox had. -/
theorem carried_dequeue (way : Carriage α μ) (ident : α → ι) (x : ι) (m : Mailbox Waker μ) :
    carried way ident x m.dequeue.state.queue + carried way ident x m.dequeue.answer.toList =
      carried way ident x m.queue := by
  cases hq : m.queue with
  | nil =>
      rw [Mailbox.dequeue_nil hq, hq]
      rfl
  | cons e rest =>
      have hqueue := (Mailbox.sameMail_lower (m.dispatch rest) (m.reserved - 1)).queue
      rw [Mailbox.dequeue_cons hq, hqueue, Nat.add_comm]
      exact (carried_append [e] rest).symm

theorem total_eq (hm : s.node.mailbox? id = some m) :
    s.total way id ident x = tally ident x s.cell.value.toList + tally ident x s.held.toList +
      carried way ident x m.queue + carried way ident x s.received := by
  simp only [total, copies, hm, Option.map_some, Option.getD_some]

/-- The agent's mailbox has a place for every message, and the caller has taken nothing out of a
cell that is not empty. -/
structure Kept (id : AgentId) (s : Errand α μ ε) : Prop where
  covered : ∃ m, s.node.mailbox? id = some m ∧ m.IsCovered
  free : s.cell.value = none ∨ s.held = none

/-- The parts of an errand have moved, and nothing has come or gone. -/
theorem kept_of_moved {s' : Errand α μ ε} (hm : s.node.mailbox? id = some m)
    (hm' : s'.node.mailbox? id = some m') (hcovered : m'.IsCovered)
    (hfree : s'.cell.value = none ∨ s'.held = none)
    (hsum : tally ident x s'.cell.value.toList + tally ident x s'.held.toList +
        carried way ident x m'.queue + carried way ident x s'.received =
      tally ident x s.cell.value.toList + tally ident x s.held.toList +
        carried way ident x m.queue + carried way ident x s.received) :
    s'.Kept id ∧ s'.total way id ident x = s.total way id ident x := by
  refine ⟨⟨⟨m', hm', hcovered⟩, hfree⟩, ?_⟩
  rw [total_eq hm', total_eq hm]
  exact hsum

/-- A handing over moves the value from the cell to the mailbox or leaves it in the cell. -/
theorem Kept.send (h : s.Kept id) :
    (s.next way id .send).Kept id ∧
      (s.next way id .send).total way id ident x = s.total way id ident x := by
  obtain ⟨m, hm, hcovered⟩ := h.covered
  obtain ⟨m', hexchanged, hover⟩ := Node.exists_handedOver hm hcovered way s.cell
  have hsum := carried_handedOver ident x hover
  -- whether the value is put back or sent, the cell holds nothing that the caller holds too
  have hfree : (s.node.handOver way s.cell id).2.1.value = none ∨ s.held = none := by
    rcases hover.cell_eq with hcell | hcell
    · rw [hcell]
      exact h.free
    · rw [hcell]
      exact .inl rfl
  refine kept_of_moved hm hexchanged.own (hover.isCovered hcovered) hfree ?_
  show tally ident x (s.node.handOver way s.cell id).2.1.value.toList +
    tally ident x s.held.toList + carried way ident x m'.queue +
      carried way ident x s.received = _
  omega

/-- A receive moves what it takes out of the mailbox to the receiver. -/
theorem Kept.receive (h : s.Kept id) :
    (s.next way id .receive).Kept id ∧
      (s.next way id .receive).total way id ident x = s.total way id ident x := by
  obtain ⟨m, hm, hcovered⟩ := h.covered
  obtain ⟨hexchanged, hanswer⟩ := Node.exchanged_receive hm
  have hreceived : (s.next way id .receive).received = s.received ++ m.dequeue.answer.toList := by
    rw [← hanswer]
    rfl
  have hsum := carried_dequeue way ident x m
  refine kept_of_moved hm hexchanged.own ((hcovered.served .dequeue).isCovered hcovered) h.free ?_
  rw [hreceived, carried_append]
  show tally ident x s.cell.value.toList + tally ident x s.held.toList + _ + _ = _
  omega

/-- What somebody else sends carries no copy of the value. -/
theorem Kept.signal (h : s.Kept id) {message : μ} {sender : Option AgentId}
    (hother : ∀ a, way.unload? message = some a → ident a ≠ x) :
    (s.next way id (.signal message sender)).Kept id ∧
      (s.next way id (.signal message sender)).total way id ident x =
        s.total way id ident x := by
  obtain ⟨m, hm, hcovered⟩ := h.covered
  cases hseal : Envelope.trySeal message sender with
  | error back =>
      -- a message that must not travel does not come as far as the mailbox
      have hrefused : s.next way id (.signal message sender) = s := by
        simp only [next, Node.send, hseal]
      rw [hrefused]
      exact ⟨h, rfl⟩
  | ok e =>
      obtain ⟨-, rfl⟩ := (Envelope.trySeal_eq_ok_iff message sender e).mp hseal
      obtain ⟨hexchanged, -⟩ := Node.exchanged_send hm hseal
      refine kept_of_moved hm hexchanged.own ((hcovered.served (.enqueue _)).isCovered hcovered)
        h.free ?_
      rw [carried_enqueue hcovered hother]
      rfl

/-- Whoever has a value keeps it or passes it on. -/
theorem Kept.next (h : s.Kept id) {act : Act α μ} (hfair : act.IsFair way ident x) :
    (s.next way id act).Kept id ∧
      (s.next way id act).total way id ident x = s.total way id ident x := by
  obtain ⟨m, hm, hcovered⟩ := h.covered
  obtain ⟨node, ⟨value⟩, held, received⟩ := s
  -- each act moves at most one value, and only into a place that is empty
  cases act with
  | get => exact ⟨h, rfl⟩
  | update f =>
      cases value with
      | none => exact ⟨h, rfl⟩
      | some a =>
          have hsame : tally ident x [f a] = tally ident x [a] := by
            have hident : ident (f a) = ident a := hfair a
            simp only [tally, List.countP_singleton, hident]
          refine kept_of_moved hm hm hcovered (.inr (h.free.resolve_left nofun)) ?_
          exact congrArg (· + _ + _ + _) hsame
  | take =>
      cases value with
      | none => exact ⟨h, rfl⟩
      | some a =>
          -- the caller had nothing that the value could take the place of
          obtain rfl : held = none := h.free.resolve_left nofun
          refine kept_of_moved hm hm hcovered (.inl rfl) ?_
          exact congrArg (· + _ + _) (Nat.add_comm _ _)
  | restore =>
      cases held with
      | none => exact ⟨h, rfl⟩
      | some a =>
          -- what the caller took has left the cell empty, so that nothing is overwritten
          obtain rfl : value = none := h.free.resolve_right nofun
          refine kept_of_moved hm hm hcovered (.inr rfl) ?_
          exact congrArg (· + _ + _) (Nat.add_comm _ _)
  | send => exact h.send
  | receive => exact h.receive
  | signal message sender => exact h.signal hfair
  | close => exact kept_of_moved hm (Node.exchanged_closeMailbox hm).own hcovered h.free rfl

/-! ## Whole errands -/

/-- What comes of acts, one after the other. -/
def run (way : Carriage α μ) (id : AgentId) (s : Errand α μ ε) (acts : List (Act α μ)) :
    Errand α μ ε :=
  acts.foldl (next way id) s

/-- A run neither makes a copy nor loses one. -/
theorem Kept.run (h : s.Kept id) {acts : List (Act α μ)}
    (hfair : ∀ act ∈ acts, act.IsFair way ident x) :
    (s.run way id acts).total way id ident x = s.total way id ident x := by
  induction acts generalizing s with
  | nil => rfl
  | cons act rest ih =>
      obtain ⟨hkept, htotal⟩ := h.next (hfair act List.mem_cons_self)
      have hrest := ih hkept fun act' hact' => hfair act' (List.mem_cons_of_mem act hact')
      exact hrest.trans htotal

/-- There is one copy in all exactly if one of the four has the only one. -/
theorem total_eq_one_iff :
    s.total way id ident x = 1 ↔ ∃ keeper, s.IsOnlyWith way id ident x keeper := by
  constructor
  · intro htotal
    unfold total at htotal
    -- a sum of four that is one has a single one in it
    have hwhere : (s.copies way id ident x .cell = 1 ∧ s.copies way id ident x .caller = 0 ∧
          s.copies way id ident x .mailbox = 0 ∧ s.copies way id ident x .receiver = 0) ∨
        (s.copies way id ident x .cell = 0 ∧ s.copies way id ident x .caller = 1 ∧
          s.copies way id ident x .mailbox = 0 ∧ s.copies way id ident x .receiver = 0) ∨
        (s.copies way id ident x .cell = 0 ∧ s.copies way id ident x .caller = 0 ∧
          s.copies way id ident x .mailbox = 1 ∧ s.copies way id ident x .receiver = 0) ∨
        (s.copies way id ident x .cell = 0 ∧ s.copies way id ident x .caller = 0 ∧
          s.copies way id ident x .mailbox = 0 ∧ s.copies way id ident x .receiver = 1) := by
      omega
    rcases hwhere with ⟨h₁, h₂, h₃, h₄⟩ | ⟨h₁, h₂, h₃, h₄⟩ | ⟨h₁, h₂, h₃, h₄⟩ | ⟨h₁, h₂, h₃, h₄⟩
    · exact ⟨.cell, fun other => by cases other <;> assumption⟩
    · exact ⟨.caller, fun other => by cases other <;> assumption⟩
    · exact ⟨.mailbox, fun other => by cases other <;> assumption⟩
    · exact ⟨.receiver, fun other => by cases other <;> assumption⟩
  · rintro ⟨keeper, honly⟩
    unfold total
    rw [honly .cell, honly .caller, honly .mailbox, honly .receiver]
    cases keeper <;> rfl

end Errand

namespace Node

variable {α μ ε : Type} [Transferable μ]

/-- A value is handed over or stays where it is, as cell and mailbox have it: an emptied cell
leaves the mailbox alone, a mailbox that refuses the value leaves it in its cell and at most counts
the refusal, and one that takes it has it once, at the end of its queue. So a value that is with
the cell, the caller, the mailbox or the receiver is with one of them, and there once, whatever is
done in whatever order. -/
theorem handOver_isAllOrNothing {n : Node μ ε} {id : AgentId} {m : Mailbox Waker μ}
    (hm : n.mailbox? id = some m) (hcovered : m.IsCovered) (way : Carriage α μ) (c : Cell α) :
    (∃ m', Exchanged id m' n (n.handOver way c id).1 ∧
      HandedOver way m c m' (n.handOver way c id).2.1 (n.handOver way c id).2.2) ∧
    ∀ {ι : Type} [DecidableEq ι] (ident : α → ι) (x : ι) (held : Option α)
        (received : List (Envelope μ)),
      c.value = none ∨ held = none →
      (∃ keeper, Errand.IsOnlyWith way id ident x ⟨n, c, held, received⟩ keeper) →
      ∀ acts : List (Errand.Act α μ), (∀ act ∈ acts, act.IsFair way ident x) →
        ∃ keeper, Errand.IsOnlyWith way id ident x
          (Errand.run way id ⟨n, c, held, received⟩ acts) keeper := by
  refine ⟨exists_handedOver hm hcovered way c, ?_⟩
  intro ι _ ident x held received hfree honly acts hfair
  have hkept : Errand.Kept id ⟨n, c, held, received⟩ := ⟨⟨m, hm, hcovered⟩, hfree⟩
  rw [← Errand.total_eq_one_iff] at honly ⊢
  exact (hkept.run hfair).trans honly

/-- A value that a full mailbox refuses is in its cell again. Once there is room it is sent, and
then it cannot be taken. -/
theorem handOver_isAllOrNothing_full :
    let n : Node (Isolated Nat) Unit :=
      (((ofSettings { mailbox := ⟨1, 1, 0⟩ } .stopOnFailure 1 ⟨0⟩ ()).start.1.spawn {}).1.send ⟨1⟩
        ⟨3⟩ none).1
    let acts : List (Errand.Act Nat (Isolated Nat)) :=
      [.get, .send, .take, .receive, .restore, .send, .signal ⟨5⟩ none, .take, .close]
    let m : Mailbox Waker (Isolated Nat) :=
      ⟨⟨1, 1, 0⟩, [⟨⟨3⟩, .isolated, none, 1⟩], 1, true, false, 2, none,
        { enqueued := 1, engaged := 1 }⟩
    n.mailbox? ⟨1⟩ = some m ∧ m.IsCovered ∧
      (∃ m', Exchanged ⟨1⟩ m' n (n.handOver .alone ⟨some 7⟩ ⟨1⟩).1 ∧
        HandedOver .alone m ⟨some 7⟩ m' ⟨some 7⟩ (.error (.mailboxFull 1))) ∧
      Errand.IsOnlyWith .alone ⟨1⟩ id 7 ⟨n, ⟨some 7⟩, none, []⟩ .cell ∧
      (∀ act ∈ acts, act.IsFair .alone id 7) ∧
      Errand.IsOnlyWith .alone ⟨1⟩ id 7 (Errand.run .alone ⟨1⟩ ⟨n, ⟨some 7⟩, none, []⟩ acts)
        .mailbox := by
  intro n acts m
  have hm : n.mailbox? ⟨1⟩ = some m := rfl
  have hcovered : m.IsCovered := Nat.le_refl 1
  have hcell : Errand.IsOnlyWith .alone ⟨1⟩ id 7 ⟨n, ⟨some 7⟩, none, []⟩ .cell := by
    intro other
    cases other <;> rfl
  have hfair : ∀ act ∈ acts, act.IsFair .alone id 7 := by
    simp only [acts, List.forall_mem_cons, List.not_mem_nil, false_imp_iff, implies_true, and_true]
    refine ⟨trivial, trivial, trivial, trivial, trivial, trivial, ?_, trivial, trivial⟩
    intro a ha
    obtain rfl : 5 = a := Option.some.inj ha
    decide
  have hrefused : (n.handOver .alone ⟨some 7⟩ ⟨1⟩).2 = (⟨some 7⟩, .error (.mailboxFull 1)) := rfl
  obtain ⟨hover, hruns⟩ := handOver_isAllOrNothing hm hcovered .alone ⟨some 7⟩
  rw [hrefused] at hover
  obtain ⟨keeper, hkeeper⟩ := hruns id 7 none [] (.inr rfl) ⟨.cell, hcell⟩ acts hfair
  refine ⟨hm, hcovered, hover, hcell, hfair, ?_⟩
  have hone : (Errand.run .alone ⟨1⟩ ⟨n, ⟨some 7⟩, none, []⟩ acts).copies .alone ⟨1⟩ id 7
      .mailbox = 1 := by
    decide +kernel
  have hmailbox := hkeeper .mailbox
  rw [hone] at hmailbox
  obtain rfl : .mailbox = keeper := by
    by_contra hne
    rw [if_neg hne] at hmailbox
    exact absurd hmailbox Nat.one_ne_zero
  exact hkeeper

end Node

end Troupe
