import Mathlib.Logic.Relation
import Troupe.Proofs.Node.Seat

/-!
# What anybody does on a node

Messages are sent, agents are woken, spawned and asked to end, and much goes on that has
nothing to do with agents: by whom does not matter, an agent in its turn or somebody outside.
None of it takes an agent off the register, opens its mailbox again, or moves its header
except from waiting to scheduled and from running to notified.

* `deals_errand` — what a node is asked for in one go is made of such dealings;
* `onward_deal` — how a dealing changes each seat.
-/

namespace Troupe

variable {μ ε : Type}

/-! ## Seats -/

namespace Phase

/-- A phase, and what wakes may make of it. -/
def Stirs (p p' : Phase) : Prop :=
  p' = p ∨ p = .idle ∧ p' = .scheduled ∨ p = .running ∧ p' = .notified

theorem Stirs.refl (p : Phase) : p.Stirs p := .inl rfl

theorem Stirs.trans {p p' p'' : Phase} (h : p.Stirs p') (h' : p'.Stirs p'') : p.Stirs p'' := by
  rcases h with rfl | ⟨rfl, rfl⟩ | ⟨rfl, rfl⟩
  · exact h'
  · exact .inr (.inl ⟨rfl, h'.resolve_right (by simp)⟩)
  · exact .inr (.inr ⟨rfl, h'.resolve_right (by simp)⟩)

/-- A wake at most stirs the header. -/
theorem stirs_wake (h : Header Task) : h.phase.Stirs h.wake.1.phase := by
  unfold Header.wake
  split
  · next hphase => exact .inr (.inl ⟨hphase, rfl⟩)
  · next hphase => exact .inr (.inr ⟨hphase, rfl⟩)
  · exact .refl _

end Phase

namespace Seat

/-- Nobody but the agent itself is woken by the next message. -/
def IsOwn (id : AgentId) (seat : Seat μ ε) : Prop :=
  seat.mailbox.receiver = none ∨ seat.mailbox.receiver = some (.agent id)

/-- What becomes of the seat of an agent by what anybody may do. -/
structure Onward (id : AgentId) (seat seat' : Seat μ ε) : Prop where
  register : seat'.isRegistered = seat.isRegistered
  closed : seat.mailbox.isClosed = true → seat'.mailbox.isClosed = true
  asked : seat.header.isTerminating = true → seat'.header.isTerminating = true
  phase : seat.header.phase.Stirs seat'.header.phase
  own : seat.IsOwn id → seat'.IsOwn id

variable {id : AgentId} {seat seat' seat'' : Seat μ ε}

theorem Onward.refl (id : AgentId) (seat : Seat μ ε) : seat.Onward id seat :=
  ⟨rfl, fun hclosed => hclosed, fun hasked => hasked, .refl _, fun hown => hown⟩

theorem Onward.trans (h : seat.Onward id seat') (h' : seat'.Onward id seat'') :
    seat.Onward id seat'' :=
  ⟨h'.register.trans h.register, h'.closed ∘ h.closed, h'.asked ∘ h.asked, h.phase.trans h'.phase,
    h'.own ∘ h.own⟩

/-- A mailbox is put back. -/
theorem onward_mailbox {m : Mailbox Waker μ}
    (hclosed : seat.mailbox.isClosed = true → m.isClosed = true)
    (hreceiver : m.receiver = none ∨ m.receiver = some (.agent id) ∨
      m.receiver = seat.mailbox.receiver) : seat.Onward id { seat with mailbox := m } := by
  refine ⟨rfl, hclosed, fun hasked => hasked, .refl _, fun hown => ?_⟩
  rcases hreceiver with hnone | hself | hsame
  · exact .inl hnone
  · exact .inr hself
  · exact hown.imp hsame.trans hsame.trans

/-- A header is put back. -/
theorem onward_header {header : Header Task}
    (hasked : seat.header.isTerminating = true → header.isTerminating = true)
    (hphase : seat.header.phase.Stirs header.phase) : seat.Onward id { seat with header } :=
  ⟨rfl, fun hclosed => hclosed, hasked, hphase, fun hown => hown⟩

/-- What becomes of an agent's place on a node: nothing, or somebody new has it. -/
inductive Becomes (id : AgentId) : Option (Seat μ ε) → Option (Seat μ ε) → Prop where
  | absent : Becomes id none none
  | newcomer (seat : Seat μ ε) (hregister : seat.isRegistered = true)
      (hphase : seat.header.phase = .scheduled) (hown : seat.IsOwn id) : Becomes id none (some seat)
  | onward {seat seat' : Seat μ ε} (h : seat.Onward id seat') :
      Becomes id (some seat) (some seat')

theorem Becomes.refl (id : AgentId) (place : Option (Seat μ ε)) : Becomes id place place := by
  cases place with
  | none => exact .absent
  | some seat => exact .onward (.refl id seat)

theorem Becomes.trans {p p' p'' : Option (Seat μ ε)} (h : Becomes id p p')
    (h' : Becomes id p' p'') : Becomes id p p'' := by
  cases h with
  | absent => exact h'
  | newcomer seat hregister hphase hown =>
      cases h' with
      | onward h' =>
          refine .newcomer _ (h'.register.trans hregister) ?_ (h'.own hown)
          exact (h'.phase.resolve_right (by simp [hphase])).trans hphase
  | onward h =>
      cases h' with
      | onward h' => exact .onward (h.trans h')

end Seat

namespace Mailbox

/-- A send leaves a closed mailbox closed, and nobody new is woken by the next message. -/
theorem enqueue_waits (m : Mailbox Waker μ) (e : Envelope μ) :
    (m.enqueue e).state.isClosed = m.isClosed ∧
      ((m.enqueue e).state.receiver = none ∨ (m.enqueue e).state.receiver = m.receiver) := by
  by_cases hc : m.isClosed = true
  · rw [enqueue_closed m e hc]
    exact ⟨rfl, .inr rfl⟩
  · rw [enqueue, if_neg hc]
    -- full, closed or accepted: only an accepted envelope takes the waiting receiver
    by_cases hroom : m.reserved < m.marks.capacity
    · simp only [reserve?, hroom, if_true, stamp, push?]
      by_cases hslot : m.queue.length < m.marks.capacity
      · simp only [hslot, if_true, wake, true_or, and_true]
        exact (sameMail_raise _ _).isClosed
      · simp only [hslot, if_false]
        exact ⟨rfl, .inr rfl⟩
    · simp only [reserve?, hroom, if_false]
      exact ⟨rfl, .inr rfl⟩

/-- A receive neither closes the mailbox nor registers anyone. -/
theorem dequeue_waits (m : Mailbox Waker μ) :
    m.dequeue.state.isClosed = m.isClosed ∧ m.dequeue.state.receiver = m.receiver := by
  cases hq : m.queue with
  | nil =>
      rw [dequeue_nil hq]
      exact ⟨rfl, rfl⟩
  | cons e rest =>
      have hsame := sameMail_lower (m.dispatch rest) (m.reserved - 1)
      rw [dequeue_cons hq]
      exact ⟨hsame.isClosed, hsame.receiver⟩

end Mailbox

namespace Node

/-! ## Dealings -/

/-- Changes the application, the pool, the timer, the time and what is counted of messages and
of the pool. -/
def beside (n : Node μ ε) (f : Node μ ε → Node μ ε) : Node μ ε :=
  { n with
    pool := (f n).pool
    metrics := { (f n).metrics with terminated := n.metrics.terminated }
    timer := (f n).timer
    now := (f n).now
    app := (f n).app }

/-- The first half of a request to end: the agent is told, if it is on the register. -/
def tell (n : Node μ ε) (id : AgentId) : Node μ ε :=
  match n.seat? id with
  | none => n
  | some seat =>
    if seat.isRegistered = false then n
    else n.alterSeat id fun s => { s with header := seat.header.requestEnd.1 }

/-- What anybody may do on a node. -/
inductive Dealing (μ ε : Type) where
  | send (target : AgentId) (message : μ) (sender : Option AgentId)
  | wake (id : AgentId)
  | tell (id : AgentId)
  | closeMailbox (id : AgentId)
  | spawn (options : SpawnOptions ε)
  /-- Something that has nothing to do with agents. -/
  | beside (f : Node μ ε → Node μ ε)

variable [Transferable μ]

def deal (n : Node μ ε) : Dealing μ ε → Node μ ε
  | .send target message sender => (n.send target message sender).1
  | .wake id => n.wake id
  | .tell id => n.tell id
  | .closeMailbox id => n.closeMailbox id
  | .spawn options => (n.spawn options).1
  | .beside f => n.beside f

/-- One node becomes another by dealings. -/
def Deals : Node μ ε → Node μ ε → Prop := Relation.ReflTransGen fun n n' => ∃ d, n.deal d = n'

theorem deals_deal (n : Node μ ε) (d : Dealing μ ε) : Deals n (n.deal d) := .single ⟨d, rfl⟩

/-- A request to end is made in three dealings, between which others may act. -/
theorem deals_terminate (n : Node μ ε) (id : AgentId) : Deals n (n.terminate id).1 := by
  have htold : n.deal (.tell id) = n.tell id := rfl
  unfold terminate
  unfold tell at htold
  cases hseat : n.seat? id with
  | none => exact .refl
  | some seat =>
      simp only [hseat] at htold
      dsimp only
      -- off the register nobody is told; on it, only the first request also closes and wakes
      by_cases hr : seat.isRegistered = false
      · rw [if_pos hr]
        exact .refl
      · rw [if_neg hr] at htold ⊢
        rw [← htold]
        split
        · exact ((deals_deal n (.tell id)).trans (deals_deal _ (.closeMailbox id))).trans
            (deals_deal _ (.wake id))
        · exact deals_deal n (.tell id)

/-- Effects that only wake are dealings. -/
theorem deals_fireAll (n : Node μ ε) (effects : List (Effect Waker)) :
    Deals n (n.fireAll effects) := by
  induction effects generalizing n with
  | nil => exact .refl
  | cons effect rest ih =>
      cases effect with
      | wake w =>
          cases w with
          | agent id => exact (deals_deal n (.wake id)).trans (ih _)
          | outsider => exact ih n
      | pressure event => exact ih n

/-- A change that has nothing to do with agents. -/
theorem deals_beside {n : Node μ ε} {f : Node μ ε → Node μ ε} (h : n.beside f = f n) :
    Deals n (f n) := h ▸ deals_deal n (.beside f)

theorem deals_alterApp (n : Node μ ε) (f : ε → ε) : Deals n (n.alterApp f) :=
  deals_beside (f := fun n => n.alterApp f) rfl

/-- Setting a timer is a dealing. -/
theorem deals_wakeAt (n : Node μ ε) (id : AgentId) (deadline : Instant) :
    Deals n (n.wakeAt id deadline) := by
  let booked : Node μ ε := { n with timer := (n.timer.register n.now deadline (.agent id)).state }
  have hbooked : Deals n booked := deals_beside (f := fun _ => booked) rfl
  exact hbooked.trans (deals_fireAll booked _)

/-- Time passes, and what is due is fired on nobody's behalf. -/
theorem deals_advanceTo (n : Node μ ε) (t : Instant) : Deals n (n.advanceTo t) := by
  let passed : Node μ ε :=
    { n with now := t, timer := (n.timer.pass t).state, pool := { n.pool with current := none } }
  let restored (after : Node μ ε) : Node μ ε :=
    { after with pool := { after.pool with current := n.pool.current } }
  have hpassed : Deals n passed := deals_beside (f := fun _ => passed) rfl
  have hfired := deals_fireAll passed (n.timer.pass t).effects
  exact (hpassed.trans hfired).trans (deals_beside (f := restored) rfl)

/-- What a node is asked for in one go, by an agent in its turn or by somebody outside. -/
inductive Errand (μ ε : Type) where
  | send (target : AgentId) (message : μ) (sender : Option AgentId)
  | spawn (options : SpawnOptions ε)
  | terminate (id : AgentId)
  | wakeAt (id : AgentId) (deadline : Instant)
  | advanceTo (t : Instant)
  | alterApp (f : ε → ε)

def runErrand (n : Node μ ε) : Errand μ ε → Node μ ε
  | .send target message sender => (n.send target message sender).1
  | .spawn options => (n.spawn options).1
  | .terminate id => (n.terminate id).1
  | .wakeAt id deadline => n.wakeAt id deadline
  | .advanceTo t => n.advanceTo t
  | .alterApp f => n.alterApp f

/-- So others may act in the middle of it. -/
theorem deals_errand (n : Node μ ε) (errand : Errand μ ε) : Deals n (n.runErrand errand) := by
  cases errand with
  | send target message sender => exact n.deals_deal (.send target message sender)
  | spawn options => exact n.deals_deal (.spawn options)
  | terminate id => exact n.deals_terminate id
  | wakeAt id deadline => exact n.deals_wakeAt id deadline
  | advanceTo t => exact n.deals_advanceTo t
  | alterApp f => exact n.deals_alterApp f

/-! ## What dealings leave as it is -/

/-- No agent has an identity that has not been minted yet. -/
def Minted (n : Node μ ε) : Prop := ∀ id, n.nextId.raw ≤ id.raw → n.seat? id = none

/-- What becomes of a node by what anybody may do. -/
structure Onward (n n' : Node μ ε) : Prop where
  minted : n.Minted → n'.Minted
  seats : n.Minted → ∀ id, Seat.Becomes id (n.seat? id) (n'.seat? id)
  failures : n'.failures = n.failures
  terminated : n'.metrics.terminated = n.metrics.terminated

variable {n n' n'' : Node μ ε}

omit [Transferable μ]

/-- What does not concern agents. -/
theorem Onward.of_eq (hnext : n'.nextId = n.nextId) (hseats : n'.seats = n.seats)
    (hfailures : n'.failures = n.failures)
    (hterminated : n'.metrics.terminated = n.metrics.terminated) : n.Onward n' := by
  have hseat : ∀ id, n'.seat? id = n.seat? id := fun id => congrArg (·.get? id) hseats
  refine ⟨fun hminted id hid => ?_, fun _ id => ?_, hfailures, hterminated⟩
  · rw [hseat]
    exact hminted id (hnext ▸ hid)
  · rw [hseat]
    exact .refl id _

theorem Onward.refl (n : Node μ ε) : n.Onward n := .of_eq rfl rfl rfl rfl

theorem Onward.trans (h : n.Onward n') (h' : n'.Onward n'') : n.Onward n'' where
  minted := h'.minted ∘ h.minted
  seats hminted id := (h.seats hminted id).trans (h'.seats (h.minted hminted) id)
  failures := h'.failures.trans h.failures
  terminated := h'.terminated.trans h.terminated

/-- An agent with a seat still has one. -/
theorem Onward.seat (h : n.Onward n') (hminted : n.Minted) {id : AgentId} {seat : Seat μ ε}
    (hseat : n.seat? id = some seat) :
    ∃ seat', n'.seat? id = some seat' ∧ seat.Onward id seat' := by
  have hplace := h.seats hminted id
  rw [hseat] at hplace
  generalize n'.seat? id = place at hplace
  cases hplace with
  | onward hseat' => exact ⟨_, rfl, hseat'⟩

/-- What does not concern agents, after what does. -/
theorem Onward.congr (h : n.Onward n') (hnext : n''.nextId = n'.nextId)
    (hseats : n''.seats = n'.seats) (hfailures : n''.failures = n'.failures)
    (hterminated : n''.metrics.terminated = n'.metrics.terminated) : n.Onward n'' :=
  h.trans (.of_eq hnext hseats hfailures hterminated)

/-- A change to a seat. -/
theorem onward_alterSeat {id : AgentId} {f : Seat μ ε → Seat μ ε}
    (hf : ∀ seat, n.seat? id = some seat → seat.Onward id (f seat)) :
    n.Onward (n.alterSeat id f) := by
  refine ⟨fun hminted other hother => ?_, fun _ other => ?_, rfl, rfl⟩
  · rw [seat?_alterSeat]
    -- the agent's own seat follows from the change, every other seat is what it was
    split
    · next hsame => rw [← hsame, hminted other hother, Option.map_none]
    · exact hminted other hother
  · rw [seat?_alterSeat]
    split
    · next hsame =>
        subst hsame
        cases hseat : n.seat? other with
        | none => exact .absent
        | some seat => exact .onward (hf seat hseat)
    · exact .refl other _

/-- A change to a seat that is known. -/
theorem onward_put {id : AgentId} {seat : Seat μ ε} (hseat : n.seat? id = some seat)
    {f : Seat μ ε → Seat μ ε} (hf : seat.Onward id (f seat)) : n.Onward (n.alterSeat id f) := by
  refine onward_alterSeat fun seat' hseat' => ?_
  obtain rfl := Option.some.inj (hseat.symm.trans hseat')
  exact hf

/-- Waking an agent leads onward. -/
theorem onward_wake (n : Node μ ε) (id : AgentId) : n.Onward (n.wake id) := by
  refine wake_invariant (P := n.Onward) (.refl n) ?_ fun n' pool hn' => hn'.congr rfl rfl rfl rfl
  intro seat hseat
  exact onward_put hseat
    (Seat.onward_header seat.header.isTerminating_wake.trans (Phase.stirs_wake _))

theorem Onward.perform (h : n.Onward n') (owner : AgentId) (effects : List (Effect Waker)) :
    n.Onward (n'.perform owner effects) :=
  perform_invariant (P := n.Onward) h (fun n'' other _ hn'' => hn''.trans (onward_wake n'' other))
    fun _ _ _ _ hn'' => hn''.congr rfl rfl rfl rfl

/-- Closing a mailbox leads onward. -/
theorem onward_closeMailbox (n : Node μ ε) (id : AgentId) : n.Onward (n.closeMailbox id) := by
  unfold closeMailbox
  cases hseat : n.seat? id with
  | none => exact .refl n
  | some seat =>
      have hshut : n.Onward
          (n.alterSeat id fun s => { s with mailbox := seat.mailbox.close.state }) :=
        onward_put hseat (Seat.onward_mailbox (fun _ => rfl) (.inl rfl))
      exact hshut.perform id _

/-- Receiving leads onward. -/
theorem onward_receive (n : Node μ ε) (id : AgentId) : n.Onward (n.receive id).1 := by
  unfold receive
  cases hseat : n.seat? id with
  | none => exact .refl n
  | some seat =>
      have hwaits := seat.mailbox.dequeue_waits
      have hstored : n.Onward (n.alterSeat id fun s =>
          { s with mailbox := seat.mailbox.dequeue.state }) :=
        onward_put hseat (Seat.onward_mailbox hwaits.1.trans (.inr (.inr hwaits.2)))
      refine Onward.perform ?_ id _
      refine hstored.congr rfl rfl rfl ?_
      cases seat.mailbox.dequeue.answer <;> rfl

theorem onward_register (n : Node μ ε) (id : AgentId) :
    n.Onward ((Node.around id : Surroundings (Node μ ε) μ).register n) :=
  onward_alterSeat fun _ _ => Seat.onward_mailbox (fun hclosed => hclosed) (.inr (.inl rfl))

/-- Telling an agent to terminate leads onward. -/
theorem onward_tell (n : Node μ ε) (id : AgentId) : n.Onward (n.tell id) := by
  unfold tell
  cases hseat : n.seat? id with
  | none => exact .refl n
  | some seat =>
      dsimp only
      split
      · exact .refl n
      · exact onward_put hseat (Seat.onward_header (fun _ => rfl) (.refl _))

/-- A newcomer has an identity that nobody has had. -/
theorem onward_enroll (n : Node μ ε) (m : Mailbox Waker μ) (hreceiver : m.receiver = none)
    (capability : Capability) (options : SpawnOptions ε) :
    n.Onward (n.enroll m capability options).1 := by
  refine ⟨fun hminted id hid => ?_, fun hminted id => ?_, rfl, rfl⟩
  · have hnext : n.nextId.raw + 1 ≤ id.raw := hid
    have hother : id ≠ n.nextId := by
      rintro rfl
      omega
    exact (n.seats.get?_insert_ne hother _).trans (hminted id (by omega))
  -- the newcomer takes the next identity, which was free because identities only grow
  · by_cases hid : id = n.nextId
    · subst hid
      have hseat : (n.enroll m capability options).1.seat? n.nextId =
          some ⟨.fresh, m, capability, true, options.observer⟩ := n.seats.get?_insert_self _ _
      rw [hminted n.nextId (Nat.le_refl _), hseat]
      exact .newcomer _ rfl rfl (.inl hreceiver)
    · have hseat : (n.enroll m capability options).1.seat? id = n.seat? id :=
        n.seats.get?_insert_ne hid _
      rw [hseat]
      exact .refl id _

/-- Spawning leads onward. -/
theorem onward_spawn (n : Node μ ε) (options : SpawnOptions ε) : n.Onward (n.spawn options).1 := by
  unfold spawn
  split
  · exact .refl n
  · dsimp only
    split
    · exact .refl n
    · split
      · exact .refl n
      · next mailbox hopen =>
          obtain ⟨-, rfl⟩ := (Mailbox.open?_eq_ok_iff _ mailbox).mp hopen
          exact onward_enroll n _ rfl _ options

variable [Transferable μ]

/-- Sending leads onward. -/
theorem onward_send (n : Node μ ε) (target : AgentId) (message : μ) (sender : Option AgentId) :
    n.Onward (n.send target message sender).1 := by
  unfold send
  cases Envelope.trySeal message sender with
  | error m => exact .refl n
  | ok e =>
      dsimp only
      cases hseat : n.seat? target with
      | none => exact .refl n
      | some seat =>
          have hwaits := seat.mailbox.enqueue_waits e
          have hstored : n.Onward (n.alterSeat target fun s =>
              { s with mailbox := (seat.mailbox.enqueue e).state }) :=
            onward_put hseat (Seat.onward_mailbox hwaits.1.trans (hwaits.2.imp_right .inr))
          refine Onward.perform ?_ target _
          refine hstored.congr rfl rfl rfl ?_
          cases (seat.mailbox.enqueue e).answer with
          | ok status => rfl
          | error refusal => cases refusal <;> rfl

/-- How a dealing changes each seat. -/
theorem onward_deal (n : Node μ ε) (d : Dealing μ ε) : n.Onward (n.deal d) := by
  cases d with
  | send target message sender => exact onward_send n target message sender
  | wake id => exact onward_wake n id
  | tell id => exact onward_tell n id
  | closeMailbox id => exact onward_closeMailbox n id
  | spawn options => exact onward_spawn n options
  | beside f => exact .of_eq rfl rfl rfl rfl

/-- A sequence of dealings leads onward. -/
theorem Deals.onward (h : Deals n n') : n.Onward n' := by
  induction h with
  | refl => exact .refl n
  | tail _ hlast ih =>
      obtain ⟨d, rfl⟩ := hlast
      exact ih.trans (onward_deal _ d)

end Node

end Troupe
