import Troupe.Channel
import Troupe.Proofs.Mailbox.Run

/-!
# Runs of a channel

One party after the other asks a channel for something. Whatever it is, the mailbox of
the channel is asked for one thing at most, and to take in only what was sealed.

* `mailbox_serve` — what becomes of the mailbox;
* `serveAll_invariant` — what every request keeps holds after every run.
-/

namespace Troupe

namespace Channel

variable {κ ω μ : Type} [DecidableEq κ]

/-- What a channel can be asked for. -/
inductive Request (κ ω μ : Type) where
  | send (handle : κ) (message : μ)
  | clone (handle copy : κ)
  | onBehalfOf (handle : κ) (agent : AgentId)
  | dropSender (handle : κ)
  | dropReceiver
  | tryReceive
  | poll (w : ω)

/-- What a channel replies. -/
inductive Reply (μ : Type) where
  | sent (result : Except (Refusal μ) Status)
  | received (e : Option (Envelope μ))
  | polled (e : Poll (Option (Envelope μ)))
  | done
  /-- The handle or the receiving end that was to do it is gone. -/
  | absent

/-- The same outcome with what it answers put into other words. -/
def reworded {σ α β : Type} (f : α → β) (o : Outcome ω σ α) : Outcome ω σ β :=
  ⟨o.state, o.effects, f o.answer⟩

/-- What comes of asking an end that may be gone. -/
def orAbsent (c : Channel κ ω μ) :
    Option (Outcome ω (Channel κ ω μ) (Reply μ)) → Outcome ω (Channel κ ω μ) (Reply μ)
  | some o => o
  | none => ⟨c, [], .absent⟩

/-- Does what is asked for. -/
def serve [Transferable μ] (c : Channel κ ω μ) :
    Request κ ω μ → Outcome ω (Channel κ ω μ) (Reply μ)
  | .send handle message => c.orAbsent ((c.send? handle message).map (reworded .sent))
  | .clone handle copy => c.orAbsent ((c.clone? handle copy).map (reworded fun _ => .done))
  | .onBehalfOf handle agent =>
      c.orAbsent ((c.onBehalfOf? handle agent).map fun c => ⟨c, [], .done⟩)
  | .dropSender handle => c.orAbsent ((c.dropSender? handle).map (reworded fun _ => .done))
  | .dropReceiver => c.orAbsent (c.dropReceiver?.map (reworded fun _ => .done))
  | .tryReceive =>
      if c.receiving then reworded .received c.tryReceive else ⟨c, [], .absent⟩
  | .poll w => if c.receiving then reworded .polled (c.poll w) else ⟨c, [], .absent⟩

/-- The channel after a run of requests. -/
def serveAll [Transferable μ] (c : Channel κ ω μ) (requests : List (Request κ ω μ)) :
    Channel κ ω μ :=
  requests.foldl (fun c request => (c.serve request).state) c

/-- What every request keeps holds after every run. -/
theorem serveAll_invariant [Transferable μ] {P : Channel κ ω μ → Prop} {c : Channel κ ω μ}
    (hinit : P c) (hserve : ∀ c request, P c → P (c.serve request).state)
    (requests : List (Request κ ω μ)) : P (c.serveAll requests) := by
  unfold serveAll
  induction requests generalizing c with
  | nil => exact hinit
  | cons request rest ih => exact ih (hserve c request hinit)

/-! ## What becomes of the mailbox -/

/-- What can become of the mailbox when a channel serves a request. -/
inductive MailboxServed [Transferable μ] (m : Mailbox ω μ) : Mailbox ω μ → Prop where
  | untouched : MailboxServed m m
  | sent (message : μ) (sender : Option AgentId) (e : Envelope μ)
      (hsealed : Envelope.trySeal message sender = .ok e) :
      MailboxServed m (m.serve (.enqueue e)).state
  | received : MailboxServed m (m.serve .dequeue).state
  | polled (w : ω) : MailboxServed m (m.serve (.poll w)).state
  | closed : MailboxServed m (m.serve .close).state

omit [DecidableEq κ] in
/-- The last handle closes the mailbox when it goes. -/
theorem mailbox_release [Transferable μ] {c : Channel κ ω μ} {m : Mailbox ω μ}
    (hm : c.mailbox = m) : MailboxServed m c.release.state.mailbox := by
  subst hm
  unfold release
  split
  · exact .closed
  · exact .untouched

/-- Only a message that may be sent reaches the mailbox. -/
theorem mailbox_send? [Transferable μ] {c : Channel κ ω μ} {handle : κ} {message : μ}
    {o : Outcome ω (Channel κ ω μ) (Except (Refusal μ) Status)}
    (h : c.send? handle message = some o) : MailboxServed c.mailbox o.state.mailbox := by
  unfold send? at h
  split at h
  · exact nomatch h
  · split at h
    · obtain rfl := Option.some.inj h
      exact .untouched
    · next e hsealed =>
        obtain rfl := Option.some.inj h
        exact .sent message _ e hsealed

/-- Handing out a copy gives a handle up at most. -/
theorem mailbox_clone? [Transferable μ] {c : Channel κ ω μ} {handle copy : κ}
    {o : Outcome ω (Channel κ ω μ) Unit} (h : c.clone? handle copy = some o) :
    MailboxServed c.mailbox o.state.mailbox := by
  unfold clone? at h
  split at h
  · exact nomatch h
  · obtain rfl := Option.some.inj h
    split
    · exact mailbox_release rfl
    · exact .untouched

/-- A channel asks its mailbox for one thing at most, and to take in only what was sealed. -/
theorem mailbox_serve [Transferable μ] (c : Channel κ ω μ) (request : Request κ ω μ) :
    MailboxServed c.mailbox (c.serve request).state.mailbox := by
  -- by whom and for whom a request is comes first; where nobody is there, nothing happens
  cases request with
  | send handle message =>
      simp only [serve]
      cases h : c.send? handle message with
      | none => exact .untouched
      | some o => exact mailbox_send? h
  | clone handle copy =>
      simp only [serve]
      cases h : c.clone? handle copy with
      | none => exact .untouched
      | some o => exact mailbox_clone? h
  | onBehalfOf handle agent =>
      simp only [serve, onBehalfOf?]
      cases c.handles.get? handle with
      | none => exact .untouched
      | some _ => exact .untouched
  | dropSender handle =>
      simp only [serve, dropSender?]
      cases c.handles.get? handle with
      | none => exact .untouched
      | some _ => exact mailbox_release rfl
  | dropReceiver =>
      simp only [serve, dropReceiver?]
      cases c.receiving with
      | false => exact .untouched
      | true => exact .closed
  | tryReceive =>
      simp only [serve]
      split
      · exact .received
      · exact .untouched
  | poll w =>
      simp only [serve]
      split
      · exact .polled w
      · exact .untouched

end Channel

end Troupe
