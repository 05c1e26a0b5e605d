import Troupe.Mailbox.Stats
import Troupe.Table

/-!
# Channels

A channel is a mailbox that belongs to no agent: any number of sending handles, one
receiving end. Every handle carries the identity that it stamps on what it sends.
The channel counts its handles; dropping the last one closes it, and so does dropping
the receiving end.

* `count_clone`, `count_dropSender` — how the count follows the handles.
-/

namespace Troupe

/-- A mailbox with sending handles, named by `κ`, and a receiving end. -/
structure Channel (κ ω μ : Type) where
  mailbox : Mailbox ω μ
  /-- The number of handles, as the handles themselves count it. -/
  count : Nat
  /-- The identity each live handle stamps on its messages. -/
  handles : Table κ (Option AgentId)
  /-- Whether the receiving end is still there. -/
  receiving : Bool
deriving Repr

namespace Channel

variable {κ ω μ : Type} [DecidableEq κ]

/-- Opens a channel with one anonymous handle. -/
def open? (marks : Watermarks) (first : κ) : Except Fault (Channel κ ω μ) :=
  match Mailbox.open? marks with
  | .ok mailbox => .ok ⟨mailbox, 1, Table.empty.insert first none, true⟩
  | .error f => .error f

/-- Puts the outcome of a mailbox operation back into the channel. -/
def settle {α : Type} (c : Channel κ ω μ) (o : Outcome ω (Mailbox ω μ) α) :
    Outcome ω (Channel κ ω μ) α :=
  ⟨{ c with mailbox := o.state }, o.effects, o.answer⟩

/-- Sends through a live handle; a refused message comes back. -/
def send? [Transferable μ] (c : Channel κ ω μ) (handle : κ) (message : μ) :
    Option (Outcome ω (Channel κ ω μ) (Except (Refusal μ) Status)) :=
  match c.handles.get? handle with
  | none => none
  | some identity =>
    match Envelope.trySeal message identity with
    | .error m => some ⟨c, [], .error (.forbidden m)⟩
    | .ok envelope =>
      let o := c.mailbox.enqueue envelope
      some <| c.settle ⟨o.state, o.effects, match o.answer with
        | .ok status => .ok status
        | .error refusal => .error (refusal.map Envelope.payload)⟩

/-- Counts one handle less; closes the channel with the last. -/
def release (c : Channel κ ω μ) : Outcome ω (Channel κ ω μ) Unit :=
  let left := { c with count := c.count - 1 }
  -- whoever finds the count at one was the last
  if c.count = 1 then left.settle left.mailbox.close else ⟨left, [], ()⟩

/-- Drops a live handle. -/
def dropSender? (c : Channel κ ω μ) (handle : κ) : Option (Outcome ω (Channel κ ω μ) Unit) :=
  match c.handles.get? handle with
  | none => none
  | some _ => some { c with handles := c.handles.erase handle }.release

/-- Copies a live handle under a name; a handle that bore the name is dropped. -/
def clone? (c : Channel κ ω μ) (handle copy : κ) : Option (Outcome ω (Channel κ ω μ) Unit) :=
  match c.handles.get? handle with
  | none => none
  | some identity =>
    let wider := { c with count := c.count + 1, handles := c.handles.insert copy identity }
    -- the copy is there before the handle it replaces goes, so the count stays positive
    some (if c.handles.contains copy then wider.release else ⟨wider, [], ()⟩)

/-- Has a live handle stamp what it sends from now on with an agent's identity. -/
def onBehalfOf? (c : Channel κ ω μ) (handle : κ) (agent : AgentId) : Option (Channel κ ω μ) :=
  match c.handles.get? handle with
  | none => none
  | some _ => some { c with handles := c.handles.insert handle (some agent) }

/-- Drops the receiving end, which closes the channel. -/
def dropReceiver? (c : Channel κ ω μ) : Option (Outcome ω (Channel κ ω μ) Unit) :=
  if c.receiving then
    let left := { c with receiving := false }
    some (left.settle left.mailbox.close)
  else none

/-- Receives without waiting. -/
def tryReceive (c : Channel κ ω μ) : Outcome ω (Channel κ ω μ) (Option (Envelope μ)) :=
  c.settle c.mailbox.dequeue

/-- Receives, or has `w` woken. -/
def poll (c : Channel κ ω μ) (w : ω) :
    Outcome ω (Channel κ ω μ) (Poll (Option (Envelope μ))) :=
  c.settle (c.mailbox.pollDequeue w)

/-- What a receiver that waited for `allowed` answers, given its last poll. -/
def received (allowed : Span) : Poll (Option (Envelope μ)) → Except Fault (Envelope μ)
  | .ready (some e) => .ok e
  | .ready none => .error .mailboxClosed
  | .pending => .error (.awaitTimeout allowed)

theorem count_clone {c : Channel κ ω μ} {handle copy : κ} {o : Outcome ω (Channel κ ω μ) Unit}
    (h : c.clone? handle copy = some o) (hfree : c.handles.contains copy = false) :
    o.state.count = c.count + 1 := by
  unfold clone? at h
  split at h
  · simp at h
  · simp only [hfree, Option.some.injEq] at h
    subst h
    rfl

theorem count_dropSender {c : Channel κ ω μ} {handle : κ} {o : Outcome ω (Channel κ ω μ) Unit}
    (h : c.dropSender? handle = some o) : o.state.count = c.count - 1 := by
  unfold dropSender? at h
  split at h
  · simp at h
  · simp only [Option.some.injEq] at h
    subst h
    unfold release
    split <;> rfl

end Channel

end Troupe
