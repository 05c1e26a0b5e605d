import Mathlib.Logic.Function.Basic
import Troupe.Payload
import Troupe.Proofs.Channel.Waiting
import Troupe.Proofs.Mailbox.Fifo
import Troupe.Proofs.Table

/-!
# The life of a channel

Handles are copied, dropped and lent to agents, the receiving end takes messages without
waiting, by polls, or waiting for a limited time. All of it is put on record, and a ledger
is kept from the record alone: who holds a handle and which identity it stamps, what was
accepted and what was handed out.

* `Mailbox.Balanced.serve` — what each request does to the mail;
* `Tended.clone`, `Tended.dropSender`, `Tended.dropReceiver` — and what to the handles;
* `Sound.perform`, `sound_record` — so ledger and channel agree after every run;
* `record_isLawful` — the count is that of the live handles, the channel is closed from
  the moment one of its sides is gone, and what was accepted is handed out in order
  before the end is announced.
-/

namespace Troupe

/-! ## The mail -/

namespace Mailbox

variable {ω μ : Type} {marks : Watermarks} {accepted delivered : List (Envelope μ)}

/-- A mailbox of a sizing that accepted and handed out these envelopes, and no others. -/
structure Balanced (marks : Watermarks) (accepted delivered : List (Envelope μ))
    (m : Mailbox ω μ) : Prop where
  settled : m.Settled
  marks_eq : m.marks = marks
  contents_eq : delivered ++ m.queue = numbered accepted
  nextSeq_eq : m.nextSeq = accepted.length + 1

/-- Nothing has gone in or out yet. -/
theorem balanced_ofMarks (marks : Watermarks) :
    Balanced marks [] [] (ofMarks marks : Mailbox ω μ) :=
  ⟨settled_ofMarks marks, rfl, rfl, rfl⟩

/-- Whatever is asked of a mailbox, what went in and out and what is left still add up. -/
theorem Balanced.serve {m : Mailbox ω μ} (h : Balanced marks accepted delivered m)
    (request : Request ω μ) :
    let o := m.serve request
    let x : Entry ω μ := ⟨request, o.effects, o.answer⟩
    Balanced marks (accepted ++ x.accepted?.toList) (delivered ++ x.delivered?.toList)
      o.state := by
  intro o x
  have hserved := served h.settled request
  have hx : Accounted m x o.state := accounted hserved
  constructor
  · exact hserved.settled h.settled
  · exact hx.marks.trans h.marks_eq
  · rw [numbered_append_toList, List.append_assoc, hx.queue, ← List.append_assoc, h.contents_eq,
      h.nextSeq_eq]
  · rw [List.length_append, hx.nextSeq, h.nextSeq_eq]
    omega

/-- Closing moves no message. -/
theorem Balanced.close {m : Mailbox ω μ} (h : Balanced marks accepted delivered m) :
    Balanced marks accepted delivered m.close.state := by
  have hserved := h.serve .close
  simpa [Entry.accepted?, Entry.delivered?, Mailbox.serve] using hserved

/-- What is taken out has been delivered. -/
theorem Balanced.dequeue {m : Mailbox ω μ} (h : Balanced marks accepted delivered m) :
    Balanced marks accepted (delivered ++ m.dequeue.answer.toList) m.dequeue.state := by
  have hserved := h.serve .dequeue
  simpa [Entry.accepted?, Entry.delivered?, Mailbox.serve] using hserved

/-- The envelope that a poll found. -/
def found : Poll (Option (Envelope μ)) → Option (Envelope μ)
  | .ready e => e
  | .pending => none

/-- So has what a poll finds. -/
theorem Balanced.poll {m : Mailbox ω μ} (h : Balanced marks accepted delivered m) (w : ω) :
    Balanced marks accepted (delivered ++ (found (m.pollDequeue w).answer).toList)
      (m.pollDequeue w).state := by
  have hserved := h.serve (.poll w)
  cases hanswer : (m.pollDequeue w).answer with
  | ready e =>
      simpa [Entry.accepted?, Entry.delivered?, Mailbox.serve, found, hanswer] using hserved
  | pending =>
      simpa [Entry.accepted?, Entry.delivered?, Mailbox.serve, found, hanswer] using hserved

/-- A send that is accepted is the next to be handed out after all others; one that is refused
leaves nothing behind. -/
theorem Balanced.enqueue {m : Mailbox ω μ} (h : Balanced marks accepted delivered m)
    (e : Envelope μ) :
    Balanced marks (accepted ++ ((m.enqueue e).answer.toOption.map fun _ => e).toList) delivered
      (m.enqueue e).state := by
  have hserved := h.serve (.enqueue e)
  unfold Except.toOption
  cases hanswer : (m.enqueue e).answer with
  | ok status =>
      simpa [Entry.accepted?, Entry.delivered?, Mailbox.serve, hanswer] using hserved
  | error refusal =>
      simpa [Entry.accepted?, Entry.delivered?, Mailbox.serve, hanswer] using hserved

/-- A mailbox whose queue is empty is drained exactly if it is closed. -/
theorem isDrained_of_nil {m : Mailbox ω μ} (hm : m.Settled) (hqueue : m.queue = []) :
    m.isDrained = m.isClosed := by
  have hempty : m.reserved = 0 := by rw [hm.reserved_eq, hqueue, List.length_nil]
  simp [isDrained, isEmpty, length, hempty]

/-- Only a request to close closes a mailbox. -/
theorem isClosed_serve {m : Mailbox ω μ} (hm : m.Settled) (request : Request ω μ)
    (hrequest : request ≠ .close) : (m.serve request).state.isClosed = m.isClosed := by
  rw [(accounted (served hm request)).isClosed]
  cases request with
  | close => exact absurd rfl hrequest
  | enqueue e | dequeue | poll w => exact Bool.or_false _

end Mailbox

namespace Channel

variable {κ ω μ : Type} {c : Channel κ ω μ}

/-! ## Requests on record -/

/-- What can be asked for, with or without waiting. -/
inductive Demand (κ ω μ : Type) where
  | ask (request : Request κ ω μ)
  | receiveWithin (w : ω) (allowed : Span) (started : Instant) (readings : List Instant)

/-- What comes back. -/
inductive Result (μ : Type) where
  | replied (reply : Reply μ)
  | waited (answer : Option (Except Fault (Envelope μ)))

/-- A demand with its effects and its result. -/
structure Entry (κ ω μ : Type) where
  demand : Demand κ ω μ
  effects : List (Effect ω)
  result : Result μ

/-- A channel with everything that was demanded, oldest demand first. -/
structure Record (κ ω μ : Type) where
  channel : Channel κ ω μ
  entries : List (Entry κ ω μ)

/-! ## The ledger -/

/-- What a reader of the record knows. -/
structure Ledger (κ μ : Type) where
  /-- The live handles, and the identity that each stamps. -/
  holders : κ → Option (Option AgentId)
  /-- Whether the receiving end is still there. -/
  receiving : Bool
  /-- The envelopes accepted, in order, without their numbers. -/
  accepted : List (Envelope μ)
  /-- The envelopes handed out, in order. -/
  delivered : List (Envelope μ)

/-- The envelope that was handed out. -/
def Entry.delivered? (x : Entry κ ω μ) : Option (Envelope μ) :=
  match x.result with
  | .replied (.received e) => e
  | .replied (.polled (.ready e)) => e
  | .waited (some (.ok e)) => some e
  | _ => none

/-- Whether the receiving end was dropped. -/
def Entry.isLeave (x : Entry κ ω μ) : Bool :=
  match x.demand, x.result with
  | .ask .dropReceiver, .replied .done => true
  | _, _ => false

namespace Ledger

/-- One anonymous handle, and no mail. -/
def start [DecidableEq κ] (first : κ) : Ledger κ μ :=
  ⟨Function.update (fun _ => none) first (some none), true, [], []⟩

/-- The envelope of an accepted message: its sender is who the handle stood for at the time. -/
def accepted? [Transferable μ] (l : Ledger κ μ) (x : Entry κ ω μ) : Option (Envelope μ) :=
  match x.demand, x.result with
  | .ask (.send handle message), .replied (.sent (.ok _)) =>
    (l.holders handle).map fun identity =>
      ⟨message, Transferable.capability message, identity, 0⟩
  | _, _ => none

/-- Who holds handles after an entry. -/
def holdersAfter [DecidableEq κ] (l : Ledger κ μ) (x : Entry κ ω μ) :
    κ → Option (Option AgentId) :=
  match x.demand, x.result with
  | .ask (.clone handle copy), .replied .done =>
    Function.update l.holders copy (l.holders handle)
  | .ask (.onBehalfOf handle agent), .replied .done =>
    Function.update l.holders handle (some (some agent))
  | .ask (.dropSender handle), .replied .done => Function.update l.holders handle none
  | _, _ => l.holders

/-- Takes note of an entry. -/
def note [DecidableEq κ] [Transferable μ] (l : Ledger κ μ) (x : Entry κ ω μ) : Ledger κ μ where
  holders := l.holdersAfter x
  receiving := l.receiving && !x.isLeave
  accepted := l.accepted ++ (l.accepted? x).toList
  delivered := l.delivered ++ x.delivered?.toList

end Ledger

variable [DecidableEq κ]

/-! ## The handles -/

/-- The handles are those of the holders, they are counted right, and the channel is open as
long as both of its sides are there. -/
structure Tended (holders : κ → Option (Option AgentId)) (receiving : Bool)
    (c : Channel κ ω μ) : Prop where
  distinct : c.handles.Distinct
  get?_eq : ∀ handle, c.handles.get? handle = holders handle
  count_eq : c.count = c.handles.size
  receiving_eq : c.receiving = receiving
  isClosed_iff : c.mailbox.isClosed = true ↔ c.count = 0 ∨ c.receiving = false

namespace Tended

variable {holders : κ → Option (Option AgentId)} {receiving : Bool} {handle copy : κ}
  {identity : Option AgentId}

theorem mem_keys (hlive : c.handles.get? handle = some identity) : handle ∈ c.handles.keys := by
  rw [Table.mem_keys_iff, hlive]
  rfl

/-- While there is a handle the count is positive. -/
theorem count_pos (h : Tended holders receiving c)
    (hlive : c.handles.get? handle = some identity) : 0 < c.count := by
  rw [h.count_eq, ← Table.length_keys]
  exact List.length_pos_of_mem (mem_keys hlive)

/-- So only the receiving end can have closed the channel. -/
theorem isClosed_iff_of_live (h : Tended holders receiving c)
    (hlive : c.handles.get? handle = some identity) :
    c.mailbox.isClosed = true ↔ c.receiving = false := by
  have hcount : c.count ≠ 0 := Nat.ne_of_gt (h.count_pos hlive)
  rw [h.isClosed_iff, or_iff_right hcount]

/-- What leaves the mailbox open or closed, as it is, leaves the handles tended. -/
theorem settle (h : Tended holders receiving c) {m : Mailbox ω μ}
    (hclosed : m.isClosed = c.mailbox.isClosed) :
    Tended holders receiving { c with mailbox := m } := by
  refine ⟨h.distinct, h.get?_eq, h.count_eq, h.receiving_eq, ?_⟩
  rw [← h.isClosed_iff, ← hclosed]

/-- One handle that is counted and not there any more is released. -/
theorem release (hdistinct : c.handles.Distinct)
    (hholders : ∀ handle, c.handles.get? handle = holders handle)
    (hcount : c.count = c.handles.size + 1) (hreceiving : c.receiving = receiving)
    (hclosed : c.mailbox.isClosed = true ↔ c.receiving = false) :
    Tended holders receiving c.release.state := by
  unfold Channel.release
  split
  · next hlast =>
      -- the last one closes the channel
      refine ⟨hdistinct, hholders, ?_, hreceiving, ?_⟩
      · show c.count - 1 = c.handles.size
        omega
      · refine iff_of_true rfl (.inl ?_)
        show c.count - 1 = 0
        omega
  · next hothers =>
      -- others are left, and the channel stays open unless the receiving end is gone
      refine ⟨hdistinct, hholders, ?_, hreceiving, ?_⟩
      · show c.count - 1 = c.handles.size
        omega
      · have hleft : c.count - 1 ≠ 0 := by omega
        exact hclosed.trans (or_iff_right hleft).symm

/-- A handle that is dropped is held by nobody. -/
theorem dropSender (h : Tended holders receiving c)
    (hlive : c.handles.get? handle = some identity) :
    Tended (Function.update holders handle none) receiving
      ({ c with handles := c.handles.erase handle } : Channel κ ω μ).release.state := by
  apply release
  · exact h.distinct.erase handle
  · intro other
    rw [Table.get?_erase, h.get?_eq, Function.update_apply]
  · show c.count = (c.handles.erase handle).size + 1
    rw [h.distinct.size_erase (mem_keys hlive), h.count_eq]
  · exact h.receiving_eq
  · exact h.isClosed_iff_of_live hlive

/-- A copy is held by whoever holds its original. -/
theorem clone {o : Outcome ω (Channel κ ω μ) Unit} (h : Tended holders receiving c)
    (hlive : c.handles.get? handle = some identity) (hcopy : c.clone? handle copy = some o) :
    Tended (Function.update holders copy (holders handle)) receiving o.state := by
  have hholders : ∀ other, (c.handles.insert copy identity).get? other =
      Function.update holders copy (holders handle) other := by
    intro other
    rw [Table.get?_insert, h.get?_eq, ← h.get?_eq handle, hlive, Function.update_apply]
  simp only [clone?, hlive, Option.some.injEq] at hcopy
  subst hcopy
  have hclosed := h.isClosed_iff_of_live hlive
  -- the copy adds one to the count, and takes one off again where it replaces a handle
  split
  · next hthere =>
      -- the copy takes the place of a handle, which is released
      have hmem : copy ∈ c.handles.keys := (Table.mem_keys_iff _ _).mpr hthere
      apply release
      · exact h.distinct.insert copy identity
      · exact hholders
      · show c.count + 1 = (c.handles.insert copy identity).size + 1
        rw [Table.size_insert_of_mem hmem, h.count_eq]
      · exact h.receiving_eq
      · exact hclosed
  -- a new handle: the channel does not become wider than its handles
  · next hnew =>
      have hnotMem : copy ∉ c.handles.keys := fun hmem =>
        hnew ((Table.mem_keys_iff _ _).mp hmem)
      refine ⟨h.distinct.insert copy identity, hholders, ?_, h.receiving_eq, ?_⟩
      · show c.count + 1 = (c.handles.insert copy identity).size
        rw [Table.size_insert_of_notMem hnotMem, h.count_eq]
      · exact hclosed.trans (or_iff_right (Nat.succ_ne_zero c.count)).symm

/-- Only what the handle stamps changes. -/
theorem onBehalfOf (h : Tended holders receiving c)
    (hlive : c.handles.get? handle = some identity) (agent : AgentId) :
    Tended (Function.update holders handle (some (some agent))) receiving
      { c with handles := c.handles.insert handle (some agent) } := by
  refine ⟨h.distinct.insert handle _, ?_, ?_, h.receiving_eq, h.isClosed_iff⟩
  · intro other
    show (c.handles.insert handle (some agent)).get? other = _
    rw [Table.get?_insert, h.get?_eq, Function.update_apply]
  · show c.count = (c.handles.insert handle (some agent)).size
    rw [Table.size_insert_of_mem (mem_keys hlive), h.count_eq]

/-- The receiving end leaves, and closes the mailbox behind it. -/
theorem dropReceiver (h : Tended holders receiving c) :
    Tended holders false
      { c with receiving := false, mailbox := c.mailbox.close.state } :=
  ⟨h.distinct, h.get?_eq, h.count_eq, rfl, iff_of_true rfl (.inr rfl)⟩

end Tended

/-! ## One demand -/

section Runs

variable [Transferable μ] {marks : Watermarks} {l : Ledger κ μ}

/-- Does what is demanded. -/
def perform (c : Channel κ ω μ) : Demand κ ω μ → Outcome ω (Channel κ ω μ) (Result μ)
  | .ask request => reworded .replied (c.serve request)
  | .receiveWithin w allowed started readings =>
    if c.receiving then reworded .waited (c.receiveWithin w allowed started readings)
    else ⟨c, [], .replied .absent⟩

/-- Ledger and channel tell the same. -/
structure Sound (marks : Watermarks) (l : Ledger κ μ) (c : Channel κ ω μ) : Prop where
  mail : c.mailbox.Balanced marks l.accepted l.delivered
  tended : Tended l.holders l.receiving c

namespace Ledger

variable {handle copy : κ} {message : μ} {effects : List (Effect ω)}

/-- Nothing is noted of a demand that was for nobody. The notes of the other demands follow one by
one. -/
theorem note_absent (l : Ledger κ μ) (demand : Demand κ ω μ) (effects : List (Effect ω)) :
    l.note ⟨demand, effects, .replied .absent⟩ = l := by
  cases demand with
  | receiveWithin w allowed started readings =>
      simp [note, holdersAfter, accepted?, Entry.delivered?, Entry.isLeave]
  | ask request =>
      cases request <;> simp [note, holdersAfter, accepted?, Entry.delivered?, Entry.isLeave]

theorem note_accepted {identity : Option AgentId} (hholder : l.holders handle = some identity)
    (status : Status) :
    l.note ⟨.ask (.send handle message), effects, .replied (.sent (.ok status))⟩ =
      { l with accepted := l.accepted ++
          [⟨message, Transferable.capability message, identity, 0⟩] } := by
  simp [note, holdersAfter, accepted?, Entry.delivered?, Entry.isLeave, hholder]

theorem note_refused (l : Ledger κ μ) (refusal : Refusal μ) :
    l.note ⟨.ask (.send handle message), effects, .replied (.sent (.error refusal))⟩ = l := by
  simp [note, holdersAfter, accepted?, Entry.delivered?, Entry.isLeave]

theorem note_clone (l : Ledger κ μ) :
    l.note ⟨.ask (.clone handle copy), effects, .replied .done⟩ =
      { l with holders := Function.update l.holders copy (l.holders handle) } := by
  simp [note, holdersAfter, accepted?, Entry.delivered?, Entry.isLeave]

theorem note_onBehalfOf (l : Ledger κ μ) (agent : AgentId) :
    l.note ⟨.ask (.onBehalfOf handle agent), effects, .replied .done⟩ =
      { l with holders := Function.update l.holders handle (some (some agent)) } := by
  simp [note, holdersAfter, accepted?, Entry.delivered?, Entry.isLeave]

theorem note_dropSender (l : Ledger κ μ) :
    l.note ⟨.ask (.dropSender handle), effects, .replied .done⟩ =
      { l with holders := Function.update l.holders handle none } := by
  simp [note, holdersAfter, accepted?, Entry.delivered?, Entry.isLeave]

theorem note_dropReceiver (l : Ledger κ μ) :
    l.note ⟨.ask .dropReceiver, effects, .replied .done⟩ = { l with receiving := false } := by
  simp [note, holdersAfter, accepted?, Entry.delivered?, Entry.isLeave]

theorem note_tryReceive (l : Ledger κ μ) (e : Option (Envelope μ)) :
    l.note ⟨.ask .tryReceive, effects, .replied (.received e)⟩ =
      { l with delivered := l.delivered ++ e.toList } := by
  simp [note, holdersAfter, accepted?, Entry.delivered?, Entry.isLeave]

theorem note_poll (l : Ledger κ μ) (w : ω) (answer : Poll (Option (Envelope μ))) :
    l.note ⟨.ask (.poll w), effects, .replied (.polled answer)⟩ =
      { l with delivered := l.delivered ++ (Mailbox.found answer).toList } := by
  cases answer <;>
    simp [note, holdersAfter, accepted?, Entry.delivered?, Entry.isLeave, Mailbox.found]

/-- A wait hands out what its last poll found. -/
theorem note_receiveWithin (l : Ledger κ μ) (w : ω) (allowed : Span) (started : Instant)
    (readings : List Instant) (deadline : Instant) (answer : Poll (Option (Envelope μ))) :
    l.note ⟨.receiveWithin w allowed started readings, effects,
        .waited ((waited deadline readings answer).map (received allowed))⟩ =
      { l with delivered := l.delivered ++ (Mailbox.found answer).toList } := by
  have hdelivered : (⟨.receiveWithin w allowed started readings, effects,
      .waited ((waited deadline readings answer).map (received allowed))⟩ :
        Entry κ ω μ).delivered? = Mailbox.found answer := by
    cases answer with
    | ready e => cases e <;> rfl
    | pending =>
        simp only [waited]
        split
        · rfl
        · rfl
  rw [note, hdelivered]
  simp [holdersAfter, accepted?, Entry.isLeave]

end Ledger

omit [DecidableEq κ] [Transferable μ] in
/-- Giving up a handle moves no message, and closes the mailbox at most. -/
theorem balanced_release {accepted delivered : List (Envelope μ)}
    (h : c.mailbox.Balanced marks accepted delivered) :
    c.release.state.mailbox.Balanced marks accepted delivered := by
  unfold release
  split
  · exact h.close
  · exact h

omit [Transferable μ] in
/-- Handing out a copy moves no message and leaves the mailbox open. -/
theorem balanced_clone {accepted delivered : List (Envelope μ)} {handle copy : κ}
    {o : Outcome ω (Channel κ ω μ) Unit} (h : c.mailbox.Balanced marks accepted delivered)
    (hcopy : c.clone? handle copy = some o) :
    o.state.mailbox.Balanced marks accepted delivered := by
  unfold clone? at hcopy
  split at hcopy
  · exact nomatch hcopy
  · obtain rfl := Option.some.inj hcopy
    split
    · exact balanced_release h
    · exact h

/-- What the mailbox answers, in terms of the message instead of its envelope. -/
def unsealed : Except (Refusal (Envelope μ)) Status → Except (Refusal μ) Status
  | .ok status => .ok status
  | .error refusal => .error (refusal.map Envelope.payload)

section Sends

variable {handle : κ} {identity : Option AgentId} {message : μ}

/-- A message that must stay where it is does not reach the mailbox. -/
theorem send?_local (hlive : c.handles.get? handle = some identity)
    (hfit : (Transferable.capability message).isTransferable = false) :
    c.send? handle message = some ⟨c, [], .error (.forbidden message)⟩ := by
  have hsealed : Envelope.trySeal message identity = .error message := by
    simp [Envelope.trySeal, hfit]
  simp only [send?, hlive, hsealed]

/-- Any other goes there in an envelope with the identity of its handle. -/
theorem send?_fit (hlive : c.handles.get? handle = some identity)
    (hfit : (Transferable.capability message).isTransferable = true) :
    c.send? handle message = some (c.settle (reworded unsealed
      (c.mailbox.enqueue ⟨message, Transferable.capability message, identity, 0⟩))) := by
  have hsealed := (Envelope.trySeal_eq_ok_iff message identity _).mpr ⟨hfit, rfl⟩
  simp only [send?, hlive, hsealed]
  rfl

/-- Without a handle there is nobody who could send. -/
theorem send?_gone (hgone : c.handles.get? handle = none) : c.send? handle message = none := by
  simp only [send?, hgone]

end Sends

/-- A send is noted as it was answered: an accepted message is stamped with the identity of its
handle. -/
theorem Sound.send (h : Sound marks l c) (handle : κ) (message : μ) :
    let o := c.serve (.send handle message)
    Sound marks (l.note ⟨.ask (.send handle message), o.effects, .replied o.answer⟩) o.state := by
  simp only [serve]
  cases hlive : c.handles.get? handle with
  | none =>
      rw [send?_gone hlive, Option.map_none, orAbsent, Ledger.note_absent]
      exact h
  | some identity =>
      cases hfit : (Transferable.capability message).isTransferable with
      -- the payload may not leave its owner, and the channel is not touched
      | false =>
          rw [send?_local hlive hfit, Option.map_some, orAbsent, reworded, Ledger.note_refused]
          exact h
      | true =>
          let e : Envelope μ := ⟨message, Transferable.capability message, identity, 0⟩
          have hholder : l.holders handle = some identity := by
            rw [← h.tended.get?_eq, hlive]
          have hmail := h.mail.enqueue e
          have htended := h.tended.settle
            (Mailbox.isClosed_serve h.mail.settled (.enqueue e) (by simp))
          rw [send?_fit hlive hfit]
          simp only [Channel.settle, Option.map_some, orAbsent, reworded]
          -- only the mailbox decides now
          cases hanswer : (c.mailbox.enqueue e).answer with
          | ok status =>
              rw [hanswer] at hmail
              rw [unsealed, Ledger.note_accepted hholder status]
              exact ⟨hmail, htended⟩
          | error refusal =>
              rw [hanswer, Except.toOption, Option.map_none, Option.toList_none,
                List.append_nil] at hmail
              rw [unsealed, Ledger.note_refused]
              exact ⟨hmail, htended⟩

/-- Ledger and channel still tell the same after any demand. -/
theorem Sound.perform (h : Sound marks l c) (demand : Demand κ ω μ) :
    let o := c.perform demand
    Sound marks (l.note ⟨demand, o.effects, o.answer⟩) o.state := by
  -- whom a demand is not for is not there: nothing happens
  have absent : ∀ (demand : Demand κ ω μ) (effects : List (Effect ω)),
      Sound marks (l.note ⟨demand, effects, .replied .absent⟩) c := by
    intro demand effects
    rw [Ledger.note_absent]
    exact h
  have closed : ∀ request : Mailbox.Request ω μ, request ≠ .close →
      Tended l.holders l.receiving { c with mailbox := (c.mailbox.serve request).state } :=
    fun request hrequest => h.tended.settle (Mailbox.isClosed_serve h.mail.settled request hrequest)
  -- every other demand touches the mailbox or the handles, and leaves the other part alone
  cases demand with
  | receiveWithin w allowed started readings =>
      simp only [Channel.perform]
      split
      · rw [receiveWithin_eq]
        simp only [reworded, Ledger.note_receiveWithin]
        -- a wait takes out of the mailbox what one poll does
        exact ⟨h.mail.poll w, closed (.poll w) (by simp)⟩
      · exact absent _ _
  | ask request =>
      simp only [Channel.perform]
      cases request with
      | send handle message => exact h.send handle message
      | clone handle copy =>
          simp only [serve]
          cases hlive : c.handles.get? handle with
          | none =>
              have hnone : c.clone? handle copy = none := by simp only [clone?, hlive]
              rw [hnone]
              exact absent _ _
          | some identity =>
              obtain ⟨o, hcopy⟩ : ∃ o, c.clone? handle copy = some o := by
                simp only [clone?, hlive]
                exact ⟨_, rfl⟩
              simp only [hcopy, Option.map_some, orAbsent, reworded, Ledger.note_clone]
              exact ⟨balanced_clone h.mail hcopy, h.tended.clone hlive hcopy⟩
      | onBehalfOf handle agent =>
          simp only [serve, onBehalfOf?]
          cases hlive : c.handles.get? handle with
          | none => exact absent _ _
          | some identity =>
              simp only [Option.map_some, orAbsent, reworded, Ledger.note_onBehalfOf]
              exact ⟨h.mail, h.tended.onBehalfOf hlive agent⟩
      | dropSender handle =>
          simp only [serve, dropSender?]
          cases hlive : c.handles.get? handle with
          | none => exact absent _ _
          | some identity =>
              simp only [Option.map_some, orAbsent, reworded, Ledger.note_dropSender]
              exact ⟨balanced_release h.mail, h.tended.dropSender hlive⟩
      | dropReceiver =>
          simp only [serve, dropReceiver?]
          cases hthere : c.receiving with
          | false => exact absent _ _
          | true =>
              simp only [if_true, Option.map_some, orAbsent, reworded, Ledger.note_dropReceiver]
              exact ⟨h.mail.close, h.tended.dropReceiver⟩
      | tryReceive =>
          simp only [serve]
          split
          · simp only [reworded, Ledger.note_tryReceive]
            exact ⟨h.mail.dequeue, closed .dequeue (by simp)⟩
          · exact absent _ _
      | poll w =>
          simp only [serve]
          split
          · simp only [reworded, Ledger.note_poll]
            exact ⟨h.mail.poll w, closed (.poll w) (by simp)⟩
          · exact absent _ _

/-! ## Every run -/

/-- Does what is demanded and puts it on record. -/
def Record.next (r : Record κ ω μ) (demand : Demand κ ω μ) : Record κ ω μ :=
  let o := r.channel.perform demand
  ⟨o.state, r.entries ++ [⟨demand, o.effects, o.answer⟩]⟩

/-- The record of a run of demands. -/
def record (c : Channel κ ω μ) (demands : List (Demand κ ω μ)) : Record κ ω μ :=
  demands.foldl Record.next ⟨c, []⟩

/-- The ledger that a record yields. -/
def Record.ledger (first : κ) (r : Record κ ω μ) : Ledger κ μ :=
  r.entries.foldl Ledger.note (.start first)

omit [Transferable μ] in
/-- A channel opens with one handle, which stamps nothing, and with an empty mailbox. -/
theorem sound_start {first : κ} (hopen : open? marks first = .ok c) :
    Sound marks (.start first) c := by
  have hmailbox : ∃ m : Mailbox ω μ, Mailbox.open? marks = .ok m ∧
      c = ⟨m, 1, Table.empty.insert first none, true⟩ := by
    unfold open? at hopen
    split at hopen
    · next m hm => exact ⟨m, hm, (Except.ok.inj hopen).symm⟩
    · exact nomatch hopen
  obtain ⟨m, hm, rfl⟩ := hmailbox
  obtain ⟨-, rfl⟩ := (Mailbox.open?_eq_ok_iff marks m).mp hm
  have hfirst : first ∉ (Table.empty : Table κ (Option AgentId)).keys := List.not_mem_nil
  refine ⟨Mailbox.balanced_ofMarks marks, Table.distinct_empty.insert first none, ?_, ?_, rfl, ?_⟩
  · intro handle
    show (Table.empty.insert first none).get? handle =
      Function.update (fun _ => none) first (some none) handle
    rw [Table.get?_insert, Function.update_apply, Table.get?_empty]
  · exact (Table.size_insert_of_notMem hfirst none).symm
  · simp [Mailbox.ofMarks]

/-- Channel and ledger agree after every record. -/
theorem sound_record {first : κ} (hopen : open? marks first = .ok c)
    (demands : List (Demand κ ω μ)) :
    Sound marks ((record c demands).ledger first) (record c demands).channel := by
  -- by induction on the demands, from any record where they agree
  suffices h : ∀ r : Record κ ω μ, Sound marks (r.ledger first) r.channel →
      let r := demands.foldl Record.next r
      Sound marks (r.ledger first) r.channel from h _ (sound_start hopen)
  induction demands with
  | nil => exact fun r h => h
  | cons demand rest ih =>
      intro r h
      apply ih (r.next demand)
      have hledger : (r.next demand).ledger first = (r.ledger first).note
          ⟨demand, (r.channel.perform demand).effects, (r.channel.perform demand).answer⟩ :=
        List.foldl_concat ..
      rw [hledger]
      exact h.perform demand

/-! ## What is answered next -/

/-- Whoever holds a live handle gets an answer, and nobody else does. -/
theorem isSome_send? (handle : κ) (message : μ) :
    (c.send? handle message).isSome = true ↔ (c.handles.get? handle).isSome = true := by
  cases hlive : c.handles.get? handle with
  | none =>
      rw [send?_gone hlive]
      exact Iff.rfl
  | some identity =>
      cases hfit : (Transferable.capability message).isTransferable with
      | false => exact iff_of_true (by rw [send?_local hlive hfit, Option.isSome_some]) rfl
      | true => exact iff_of_true (by rw [send?_fit hlive hfit, Option.isSome_some]) rfl

/-- What can come of a send through a live handle. -/
inductive Sending (c : Channel κ ω μ) (message : μ) :
    Outcome ω (Channel κ ω μ) (Except (Refusal μ) Status) → Prop where
  | forbidden (hfit : (Transferable.capability message).isTransferable = false) :
      Sending c message ⟨c, [], .error (.forbidden message)⟩
  | closed (hfit : (Transferable.capability message).isTransferable = true)
      (hc : c.mailbox.isClosed = true) : Sending c message ⟨c, [], .error (.closed message)⟩
  | full (hfit : (Transferable.capability message).isTransferable = true)
      (hc : c.mailbox.isClosed = false) (hfull : c.mailbox.length = c.mailbox.marks.capacity) :
      Sending c message ⟨{ c with mailbox := c.mailbox.reject }, [],
        .error (.full message c.mailbox.marks.capacity)⟩
  | accepted (hfit : (Transferable.capability message).isTransferable = true)
      (hc : c.mailbox.isClosed = false) (hroom : c.mailbox.length < c.mailbox.marks.capacity)
      (o : Outcome ω (Channel κ ω μ) (Except (Refusal μ) Status)) (status : Status)
      (hanswer : o.answer = .ok status) : Sending c message o

/-- A send over a live handle comes to one of four ends. -/
theorem sending (hm : c.mailbox.Settled) {handle : κ} {message : μ}
    {o : Outcome ω (Channel κ ω μ) (Except (Refusal μ) Status)}
    (hsend : c.send? handle message = some o) : Sending c message o := by
  obtain ⟨identity, hlive⟩ := Option.isSome_iff_exists.mp
    ((isSome_send? handle message).mp (Option.isSome_iff_exists.mpr ⟨o, hsend⟩))
  cases hfit : (Transferable.capability message).isTransferable with
  | false =>
      obtain rfl := Option.some.inj ((send?_local hlive hfit).symm.trans hsend)
      exact .forbidden hfit
  | true =>
      obtain rfl := Option.some.inj ((send?_fit hlive hfit).symm.trans hsend)
      let e : Envelope μ := ⟨message, Transferable.capability message, identity, 0⟩
      -- the payload may leave: the mailbox has the last word
      rcases Mailbox.enqueue_cases hm e with
        ⟨hc, heq⟩ | ⟨hc, hfull, heq⟩ | ⟨hc, hroom, status, hanswer⟩
      · rw [heq]
        exact .closed hfit hc
      · rw [heq]
        exact .full hfit hc hfull
      · refine .accepted hfit hc hroom _ status ?_
        show unsealed (c.mailbox.enqueue e).answer = .ok status
        rw [hanswer, unsealed]

/-- The channel of a record is a queue between its handles and its receiving end, which lives
as long as both sides do. -/
structure Record.IsLawful (marks : Watermarks) (first : κ) (r : Record κ ω μ) : Prop where
  /-- The count is the number of the live handles. -/
  count_eq : ∃ live : List κ, live.Nodup ∧ live.length = r.channel.count ∧
    ∀ handle, handle ∈ live ↔ ((r.ledger first).holders handle).isSome = true
  /-- No handle is dropped at a count of zero. -/
  count_drop : ∀ handle o, r.channel.dropSender? handle = some o →
    o.state.count + 1 = r.channel.count
  isClosed_iff : r.channel.mailbox.isClosed = true ↔
    r.channel.count = 0 ∨ (r.ledger first).receiving = false
  /-- What was handed out, and then what is queued, is what was accepted, in the order of the
  sends, under the identities of that time. -/
  contents_eq : (r.ledger first).delivered ++ r.channel.mailbox.queue =
    Mailbox.numbered (r.ledger first).accepted
  /-- A queued message is there for all three ways to receive, however short the limit. -/
  head_eq : ∀ e rest, r.channel.mailbox.queue = e :: rest →
    r.channel.tryReceive.answer = some e ∧
      (∀ w, (r.channel.poll w).answer = .ready (some e)) ∧
      ∀ w allowed started readings,
        (r.channel.receiveWithin w allowed started readings).answer = some (.ok e)
  /-- Without one, trying finds nothing. -/
  tryReceive_nil : r.channel.mailbox.queue = [] → r.channel.tryReceive.answer = none
  /-- The end is announced once nothing can come any more. -/
  poll_end_iff : ∀ w, (r.channel.poll w).answer = .ready none ↔
    r.channel.mailbox.isClosed = true ∧ r.channel.mailbox.queue = []
  receiveWithin_end_iff : ∀ w allowed started readings,
    (r.channel.receiveWithin w allowed started readings).answer = some (.error .mailboxClosed) ↔
      r.channel.mailbox.isClosed = true ∧ r.channel.mailbox.queue = []
  /-- Until then a wait lasts until the deadline. -/
  receiveWithin_open : r.channel.mailbox.isClosed = false → r.channel.mailbox.queue = [] →
    ∀ w allowed started readings,
      (r.channel.receiveWithin w allowed started readings).answer =
        if readings.any (deadlineAfter started allowed ≤ ·) then
          some (.error (.awaitTimeout allowed))
        else none
  /-- Whoever holds a handle can send. -/
  send_iff : ∀ handle message, (r.channel.send? handle message).isSome = true ↔
    ((r.ledger first).holders handle).isSome = true
  accepted_iff : ∀ handle message o, r.channel.send? handle message = some o →
    ((∃ status, o.answer = .ok status) ↔
      (Transferable.capability message).isTransferable = true ∧
        r.channel.mailbox.isClosed = false ∧ r.channel.mailbox.length < marks.capacity)
  /-- A refused message comes back, and no more than a count changes. -/
  refused : ∀ handle message o refusal, r.channel.send? handle message = some o →
    o.answer = .error refusal →
      refusal.message = message ∧ o.effects = [] ∧
        o.state = if refusal.isFull then { r.channel with mailbox := r.channel.mailbox.reject }
          else r.channel

/-- A channel is lawful after whatever was done to it, by whomever, one thing after another. -/
theorem record_isLawful {first : κ} (hopen : open? marks first = .ok c)
    (demands : List (Demand κ ω μ)) : (record c demands).IsLawful marks first := by
  obtain ⟨hmail, htended⟩ := sound_record hopen demands
  generalize record c demands = r at hmail htended ⊢
  obtain ⟨c, entries⟩ := r
  have hm : c.mailbox.Settled := hmail.settled
  have hmarks : c.mailbox.marks = marks := hmail.marks_eq
  -- handles first, then what is received, then what becomes of sends
  constructor
  · refine ⟨c.handles.keys, htended.distinct, ?_, ?_⟩
    · rw [Table.length_keys]
      exact htended.count_eq.symm
    · intro handle
      rw [Table.mem_keys_iff, htended.get?_eq]
  · intro handle o hdrop
    have hpos : 0 < c.count := by
      unfold dropSender? at hdrop
      split at hdrop
      · exact nomatch hdrop
      · next identity hlive => exact htended.count_pos hlive
    rw [count_dropSender hdrop]
    exact Nat.sub_add_cancel hpos
  · exact htended.receiving_eq ▸ htended.isClosed_iff
  · exact hmail.contents_eq
  · intro e rest hqueue
    refine ⟨?_, poll_cons hqueue, receiveWithin_cons hqueue⟩
    exact (Mailbox.dequeue_answer c.mailbox).trans (by rw [hqueue, List.head?_cons])
  · intro hqueue
    exact (Mailbox.dequeue_answer c.mailbox).trans (by rw [hqueue, List.head?_nil])
  · exact Mailbox.pollDequeue_end_iff hm
  · intro w allowed started readings
    -- a wait ends at once where a message is queued, and otherwise with the stream or the clock
    cases hqueue : c.mailbox.queue with
    | nil =>
        rw [receiveWithin_nil hqueue, Mailbox.isDrained_of_nil hm hqueue]
        cases hc : c.mailbox.isClosed with
        | true => simp
        | false =>
            by_cases hlate : readings.any (deadlineAfter started allowed ≤ ·) = true
            · simp [hlate]
            · simp [hlate]
    | cons e rest =>
        rw [receiveWithin_cons hqueue]
        simp
  · intro hc hqueue w allowed started readings
    rw [receiveWithin_nil hqueue, Mailbox.isDrained_of_nil hm hqueue, hc]
    rfl
  · intro handle message
    rw [← htended.get?_eq]
    exact isSome_send? handle message
  · intro handle message o hsend
    cases sending hm hsend with
    | forbidden hfit => simp [hfit]
    | closed hfit hc => simp [hc]
    | full hfit hc hfull => simp [hfull, hmarks]
    | accepted hfit hc hroom _ status hanswer =>
        exact iff_of_true ⟨status, hanswer⟩ ⟨hfit, hc, hmarks ▸ hroom⟩
  · intro handle message o refusal hsend hanswer
    cases sending hm hsend with
    | forbidden hfit | closed hfit hc | full hfit hc hfull =>
        obtain rfl := Except.error.inj hanswer
        exact ⟨rfl, rfl, rfl⟩
    | accepted hfit hc hroom _ status hok => exact nomatch hok.symm.trans hanswer

/-- A handle is copied, the copy is lent to an agent; a third message finds no room, a local
value is not sent at all, and after both handles are dropped the end comes behind the two
messages accepted. -/
theorem record_isLawful_lent_copy :
    let c : Channel Nat Unit Payload := ⟨.ofMarks ⟨2, 2, 0⟩, 1, Table.empty.insert 0 none, true⟩
    open? ⟨2, 2, 0⟩ 0 = .ok c ∧
      (record c [.ask (.clone 0 1), .ask (.onBehalfOf 1 ⟨7⟩), .ask (.send 0 .plain),
        .ask (.send 1 .identity), .ask (.send 1 .plain),
        .ask (.send 0 (.tagged .mutableLocal .plain)), .ask (.dropSender 0),
        .ask (.dropSender 1), .ask .tryReceive, .receiveWithin () .zero ⟨5⟩ [],
        .ask (.poll ())]).IsLawful ⟨2, 2, 0⟩ 0 :=
  ⟨rfl, record_isLawful rfl _⟩

/-- Each message shows who its handle stood for when it was sent. -/
example :
    let c : Channel Nat Unit Payload := ⟨.ofMarks ⟨2, 2, 0⟩, 1, Table.empty.insert 0 none, true⟩
    let r := record c [.ask (.clone 0 1), .ask (.onBehalfOf 1 ⟨7⟩), .ask (.send 1 .plain),
      .ask (.onBehalfOf 1 ⟨8⟩), .ask (.send 0 .identity), .ask (.dropSender 0),
      .ask (.dropSender 1), .ask .tryReceive, .receiveWithin () .zero ⟨5⟩ []]
    (r.ledger 0).delivered =
        [⟨.plain, .isolated, some ⟨7⟩, 1⟩, ⟨.identity, .identityOnly, none, 2⟩] ∧
      r.channel.count = 0 ∧ r.channel.mailbox.isClosed = true := by
  cbv

end Runs

end Channel

end Troupe
