import Troupe.Payload
import Troupe.Proofs.Channel.Run

/-!
# Which values stay with their agent

A payload may hold a value that is marked as bound to its agent, at any depth. Sealing
looks at the payload from outside: it sees through optional values and through nothing
else, so a marked value is kept back exactly when no other container stands around it.

* `HoldsLocal` — a marked value stands somewhere in the payload;
* `ShowsLocal` — it stands at the top, or under optional values only;
* `queue_isSealed` — what a mailbox or a channel carries was sealed;
* `isConfined_iff_showsLocal` — so a payload never leaves its agent exactly if it shows
  a marked value.
-/

namespace Troupe

/-! ## What was sealed -/

/-- The envelope came out of sealing, whatever number it was given since. -/
def Envelope.IsSealed {μ : Type} [Transferable μ] (e : Envelope μ) : Prop :=
  ∃ e₀ n, trySeal e.payload e.sender = .ok e₀ ∧ e = e₀.stamp n

namespace Envelope

variable {μ : Type} [Transferable μ]

/-- What passes the seal is sealed. -/
theorem isSealed_of_trySeal {message : μ} {sender : Option AgentId} {e : Envelope μ}
    (h : trySeal message sender = .ok e) : e.IsSealed := by
  obtain ⟨-, rfl⟩ := (trySeal_eq_ok_iff message sender e).mp h
  exact ⟨_, 0, h, rfl⟩

theorem IsSealed.stamp {e : Envelope μ} (h : e.IsSealed) (n : Nat) : (e.stamp n).IsSealed := by
  obtain ⟨e₀, k, hsealed, rfl⟩ := h
  exact ⟨e₀, n, hsealed, rfl⟩

theorem IsSealed.isTransferable {e : Envelope μ} (h : e.IsSealed) :
    (Transferable.capability e.payload).isTransferable = true := by
  obtain ⟨e₀, -, hsealed, -⟩ := h
  exact ((trySeal_eq_ok_iff _ _ _).mp hsealed).1

/-- The seal turns a message back exactly if it is local to its thread. -/
theorem trySeal_eq_error_iff (message : μ) (sender : Option AgentId) :
    trySeal message sender = .error message ↔
      Transferable.capability message = .mutableLocal := by
  rw [← Capability.isTransferable_eq_false_iff]
  unfold trySeal
  by_cases h : (Transferable.capability message).isTransferable = true
  · simp [h]
  · simp [h]

/-- What the seal turns back is reported as a violation. -/
theorem ofMessage_eq_violation {message : μ}
    (h : Transferable.capability message = .mutableLocal) (sender : Option AgentId) :
    ofMessage message sender = .error (.violation (.cannotLeave .mutableLocal)) := by
  rw [ofMessage, (trySeal_eq_error_iff message sender).mpr h]
  simp only [h]

end Envelope

namespace Mailbox

variable {ω μ : Type}

/-- A request brings at most its own envelope into the queue. -/
theorem Served.mem_queue {m : Mailbox ω μ} {request : Request ω μ}
    {o : Outcome ω (Mailbox ω μ) (Reply μ)} (h : Served m request o) {e : Envelope μ}
    (he : e ∈ o.state.queue) :
    e ∈ m.queue ∨ ∃ x n, request = .enqueue x ∧ e = x.stamp n := by
  cases h with
  | admitted x hc hroom =>
      have he' : e ∈ ((m.takeIn x).raise (m.reserved + 1)).1.queue := he
      rw [(sameMail_raise _ _).queue, takeIn, List.mem_append, List.mem_singleton] at he'
      exact he'.imp_right fun hnew => ⟨x, m.nextSeq, rfl, hnew⟩
  | taken x rest hq | polled _ x rest hq =>
      rw [(sameMail_lower _ _).queue, dispatch] at he
      rw [hq]
      exact Or.inl (List.mem_cons_of_mem _ he)
  | _ => exact Or.inl he

variable [Transferable μ]

/-- Between two requests, and all that is queued was sealed. -/
structure Carrying (m : Mailbox ω μ) : Prop where
  settled : m.Settled
  isSealed : ∀ e ∈ m.queue, e.IsSealed

theorem carrying_ofMarks (marks : Watermarks) : (ofMarks marks : Mailbox ω μ).Carrying :=
  ⟨settled_ofMarks marks, fun _ he => nomatch he⟩

/-- A mailbox that is given only sealed envelopes carries no others. -/
theorem Carrying.serve {m : Mailbox ω μ} (hm : m.Carrying) {request : Request ω μ}
    (hsealed : ∀ e, request = .enqueue e → e.IsSealed) : (m.serve request).state.Carrying := by
  have hserved := served hm.settled request
  refine ⟨hserved.settled hm.settled, ?_⟩
  intro e he
  rcases hserved.mem_queue he with hold | ⟨x, n, hrequest, rfl⟩
  · exact hm.isSealed e hold
  · exact (hsealed x hrequest).stamp n

/-- A mailbox that is asked to take in sealed envelopes only carries sealed envelopes. -/
theorem queue_isSealed (marks : Watermarks) {requests : List (Request ω μ)}
    (hsealed : ∀ e, .enqueue e ∈ requests → e.IsSealed) :
    ∀ e ∈ (record (ofMarks marks) requests).mailbox.queue, e.IsSealed := by
  suffices h : (record (ofMarks marks) requests).mailbox.Carrying from h.isSealed
  have hstart : (⟨ofMarks marks, []⟩ : Record ω μ).mailbox.Carrying := carrying_ofMarks marks
  unfold record
  generalize (⟨ofMarks marks, []⟩ : Record ω μ) = r at hstart ⊢
  induction requests generalizing r with
  | nil => exact hstart
  | cons request rest ih =>
      refine ih (fun e he => hsealed e (List.mem_cons_of_mem _ he)) _ ?_
      exact hstart.serve fun e he => hsealed e (he ▸ List.mem_cons_self)

end Mailbox

namespace Channel

variable {κ ω μ : Type} [DecidableEq κ] [Transferable μ]

omit [DecidableEq κ] in
/-- The mailbox of a channel that takes in sealed envelopes only carries sealed envelopes. -/
theorem MailboxServed.carrying {m m' : Mailbox ω μ} (h : MailboxServed m m') (hm : m.Carrying) :
    m'.Carrying := by
  cases h with
  | untouched => exact hm
  | sent message sender e hsealed =>
      refine hm.serve ?_
      rintro _ ⟨⟩
      exact Envelope.isSealed_of_trySeal hsealed
  | received => exact hm.serve nofun
  | polled w => exact hm.serve nofun
  | closed => exact hm.serve nofun

/-- A channel carries sealed envelopes only. -/
theorem queue_isSealed {marks : Watermarks} {first : κ} {c : Channel κ ω μ}
    (hopen : open? marks first = .ok c) (requests : List (Request κ ω μ)) :
    ∀ e ∈ (c.serveAll requests).mailbox.queue, e.IsSealed := by
  suffices h : (c.serveAll requests).mailbox.Carrying from h.isSealed
  refine serveAll_invariant (P := fun c => c.mailbox.Carrying) ?_ ?_ requests
  · unfold open? at hopen
    split at hopen
    · next m hm =>
        obtain rfl := Except.ok.inj hopen
        obtain ⟨-, rfl⟩ := (Mailbox.open?_eq_ok_iff marks m).mp hm
        exact Mailbox.carrying_ofMarks marks
    · exact nomatch hopen
  · exact fun c request hc => (mailbox_serve c request).carrying hc

end Channel

/-! ## What sealing sees -/

namespace Payload

/-- A value marked as bound to its agent stands somewhere in the payload. -/
inductive HoldsLocal : Payload → Prop where
  | here (content : Payload) : HoldsLocal (.tagged .mutableLocal content)
  | present {content : Payload} : HoldsLocal content → HoldsLocal (.present content)
  | sequence {items : List Payload} {item : Payload} :
      item ∈ items → HoldsLocal item → HoldsLocal (.sequence items)
  | boxed {content : Payload} : HoldsLocal content → HoldsLocal (.boxed content)
  | first {first second : Payload} : HoldsLocal first → HoldsLocal (.pair first second)
  | second {first second : Payload} : HoldsLocal second → HoldsLocal (.pair first second)
  | isolated {content : Payload} : HoldsLocal content → HoldsLocal (.isolated content)
  | shared {content : Payload} : HoldsLocal content → HoldsLocal (.shared content)
  | tagged {label : Capability} {content : Payload} :
      HoldsLocal content → HoldsLocal (.tagged label content)
  | gossip {content : Payload} : HoldsLocal content → HoldsLocal (.gossip content)

/-- A value marked as bound to its agent stands at the top, or under optional values only. -/
inductive ShowsLocal : Payload → Prop where
  | here (content : Payload) : ShowsLocal (.tagged .mutableLocal content)
  | present {content : Payload} : ShowsLocal content → ShowsLocal (.present content)

theorem ShowsLocal.holdsLocal {p : Payload} (h : p.ShowsLocal) : p.HoldsLocal := by
  induction h with
  | here content => exact .here content
  | present _ ih => exact .present ih

theorem ShowsLocal.capability {p : Payload} (h : p.ShowsLocal) : p.capability = .mutableLocal := by
  induction h with
  | here content => rfl
  | present _ ih => exact ih

/-- What says that it is local shows something local. -/
theorem showsLocal_of_capability : ∀ {p : Payload}, p.capability = .mutableLocal → p.ShowsLocal
  | .present _, h => .present (showsLocal_of_capability h)
  | .tagged .mutableLocal content, _ => .here content

/-- A payload is taken for local exactly if it shows something local. -/
theorem capability_eq_mutableLocal_iff {p : Payload} :
    p.capability = .mutableLocal ↔ p.ShowsLocal :=
  ⟨showsLocal_of_capability, ShowsLocal.capability⟩

/-- The payload never leaves its agent: it cannot be sealed, and nothing carries it. -/
structure IsConfined (p : Payload) : Prop where
  refused : ∀ sender, Envelope.trySeal p sender = .error p
  violation : ∀ sender,
    Envelope.ofMessage p sender = .error (.violation (.cannotLeave .mutableLocal))
  unmailed : ∀ {ω : Type} (marks : Watermarks) (requests : List (Mailbox.Request ω Payload)),
    (∀ e, .enqueue e ∈ requests → e.IsSealed) →
      ∀ e ∈ (Mailbox.record (.ofMarks marks) requests).mailbox.queue, e.payload ≠ p
  unchannelled : ∀ {κ ω : Type} [DecidableEq κ] (marks : Watermarks) (first : κ)
    (c : Channel κ ω Payload), Channel.open? marks first = .ok c →
      ∀ requests, ∀ e ∈ (c.serveAll requests).mailbox.queue, e.payload ≠ p

/-- What was sealed shows no value bound to its agent. -/
theorem not_showsLocal_of_isSealed {e : Envelope Payload} (h : e.IsSealed) :
    ¬ e.payload.ShowsLocal := by
  intro hshows
  have hfree := h.isTransferable
  rw [show Transferable.capability e.payload = .mutableLocal from hshows.capability] at hfree
  exact nomatch hfree

/-- A payload that holds a value bound to its agent is kept back exactly if it shows it. -/
theorem isConfined_iff_showsLocal (p : Payload) : p.IsConfined ↔ p.ShowsLocal := by
  constructor
  · intro h
    exact showsLocal_of_capability ((Envelope.trySeal_eq_error_iff p none).mp (h.refused none))
  · intro h
    have hcapability : Transferable.capability p = .mutableLocal := h.capability
    constructor
    · exact fun sender => (Envelope.trySeal_eq_error_iff p sender).mpr hcapability
    · exact Envelope.ofMessage_eq_violation hcapability
    · rintro ω marks requests hsealed e he rfl
      exact not_showsLocal_of_isSealed (Mailbox.queue_isSealed marks hsealed e he) h
    · rintro κ ω _ marks first c hopen requests e he rfl
      exact not_showsLocal_of_isSealed (Channel.queue_isSealed hopen requests e he) h

/-- A list with a value bound to its agent, on its way through a channel. -/
theorem sequence_smuggles_local :
    let p : Payload := .sequence [.tagged .mutableLocal .plain]
    p.HoldsLocal ∧ ¬ p.IsConfined ∧
      Envelope.trySeal p none = .ok ⟨p, .isolated, none, 0⟩ ∧
      ∃ c : Channel Unit Unit Payload, Channel.open? ⟨1, 1, 0⟩ () = .ok c ∧
        (c.serveAll [.send () p]).mailbox.queue = [⟨p, .isolated, none, 1⟩] := by
  refine ⟨.sequence List.mem_cons_self (.here .plain), ?_, rfl, _, rfl, rfl⟩
  intro h
  exact nomatch h.refused none

end Payload

end Troupe
