import Troupe.Proofs.Node.Dealings

/-!
# What concerns one agent only

An agent's turn, its failures and its end are its own: the node writes into the agent's seat,
files the agent's report and keeps the agent's profile. The other agents are its neighbours;
they are as they were, for the mailbox of an agent wakes nobody but the agent.

* `apart_receive`, `apart_complete`, `apart_recordTurn` — what an agent's turn does;
* `complete_seat` — what completing an agent does to its own seat;
* `Neighbourly` — what becomes of the neighbours, also by what anybody may do.
-/

namespace Troupe

variable {μ ε : Type}

namespace Node

/-- Two nodes that are alike in all that concerns the neighbours of an agent: their entries in
the register, headers and mailboxes, their reports and their profiles. Nobody has come. -/
structure Apart (id : AgentId) (n n' : Node μ ε) : Prop where
  nextId : n'.nextId = n.nextId
  absent : n.seat? id = none → n'.seat? id = none
  seats : ∀ other, other ≠ id → n'.seat? other = n.seat? other
  failures : ∀ other, other ≠ id → n'.failures.get? other = n.failures.get? other
  profiles : ∀ other, other ≠ id → n'.profiles.get? other = n.profiles.get? other

variable {n n' n'' : Node μ ε} {id : AgentId}

/-- What concerns no agent at all. -/
theorem Apart.of_eq (hnext : n'.nextId = n.nextId) (hseats : n'.seats = n.seats)
    (hfailures : n'.failures = n.failures) (hprofiles : n'.profiles = n.profiles) :
    Apart id n n' := by
  have hseat : ∀ other, n'.seat? other = n.seat? other := fun other =>
    congrArg (·.get? other) hseats
  refine ⟨hnext, (hseat id).trans, fun other _ => hseat other, fun other _ => ?_, fun other _ => ?_⟩
  · rw [hfailures]
  · rw [hprofiles]

theorem Apart.refl (id : AgentId) (n : Node μ ε) : Apart id n n := .of_eq rfl rfl rfl rfl

/-- Two steps that touch one agent only, in sequence. -/
theorem Apart.trans (h : Apart id n n') (h' : Apart id n' n'') : Apart id n n'' where
  nextId := h'.nextId.trans h.nextId
  absent := h'.absent ∘ h.absent
  seats other hother := (h'.seats other hother).trans (h.seats other hother)
  failures other hother := (h'.failures other hother).trans (h.failures other hother)
  profiles other hother := (h'.profiles other hother).trans (h.profiles other hother)

theorem Apart.congr (h : Apart id n n') (hnext : n''.nextId = n'.nextId)
    (hseats : n''.seats = n'.seats) (hfailures : n''.failures = n'.failures)
    (hprofiles : n''.profiles = n'.profiles) : Apart id n n'' :=
  h.trans (.of_eq hnext hseats hfailures hprofiles)

/-! ## An agent's own turn -/

theorem seat?_alterSeat_self {seat : Seat μ ε} (hseat : n.seat? id = some seat)
    (f : Seat μ ε → Seat μ ε) : (n.alterSeat id f).seat? id = some (f seat) := by
  rw [seat?_alterSeat, if_pos rfl, hseat, Option.map_some]

/-- A change to the agent's seat touches that agent only. -/
theorem apart_alterSeat (n : Node μ ε) (id : AgentId) (f : Seat μ ε → Seat μ ε) :
    Apart id n (n.alterSeat id f) := by
  refine ⟨rfl, fun habsent => ?_, fun other hother => ?_, fun _ _ => rfl, fun _ _ => rfl⟩
  · rw [seat?_alterSeat, if_pos rfl, habsent, Option.map_none]
  · rw [seat?_alterSeat, if_neg hother]

theorem apart_wake (n : Node μ ε) (id : AgentId) : Apart id n (n.wake id) :=
  wake_invariant (P := Apart id n) (.refl id n) (fun _ _ => apart_alterSeat n id _)
    fun _ _ hn' => hn'.congr rfl rfl rfl rfl

/-- Effects that wake nobody but the agent. -/
theorem Apart.perform (h : Apart id n n') {effects : List (Effect Waker)}
    (hown : ∀ w, .wake w ∈ effects → w = .agent id) : Apart id n (n'.perform id effects) := by
  refine perform_invariant (P := Apart id n) h ?_ fun _ _ _ _ hn'' => hn''.congr rfl rfl rfl rfl
  intro n'' other hother hn''
  obtain rfl : other = id := Waker.agent.inj (hown _ hother)
  exact hn''.trans (apart_wake n'' other)

/-- A receive touches the agent only: the effects of its mailbox wake nobody. -/
theorem apart_receive (n : Node μ ε) (id : AgentId) : Apart id n (n.receive id).1 := by
  unfold receive
  cases hseat : n.seat? id with
  | none => exact .refl id n
  | some seat =>
      -- a receive may clear backpressure, but wakes nobody
      have hquiet : ∀ w, .wake w ∉ seat.mailbox.dequeue.effects := by
        cases hq : seat.mailbox.queue with
        | nil => simp [Mailbox.dequeue_nil hq]
        | cons e rest =>
            rw [Mailbox.dequeue_cons hq]
            intro w
            cases ((seat.mailbox.dispatch rest).lower (seat.mailbox.reserved - 1)).2 <;>
              simp [Effect.pressures]
      refine Apart.perform ?_ fun w hw => absurd hw (hquiet w)
      exact (apart_alterSeat n id _).congr rfl rfl rfl rfl

/-- The report of an agent is kept under its own identity. -/
theorem apart_keepReport (n : Node μ ε) {report : FailureReport} (hagent : report.agent = id) :
    Apart id n ((Node.around id : Surroundings (Node μ ε) μ).keepReport report n) := by
  subst hagent
  exact ⟨rfl, fun habsent => habsent, fun _ _ => rfl,
    fun other hother => n.failures.get?_insert_ne hother report, fun _ _ => rfl⟩

/-- What is recorded of a turn concerns the agent only. -/
theorem apart_recordTurn (n : Node μ ε) (index : Nat) (id : AgentId) (started : Instant)
    (ending : TurnEnd) (messages : Nat) :
    Apart id n (n.recordTurn index id started ending messages) :=
  ⟨rfl, fun habsent => habsent, fun _ _ => rfl, fun _ _ => rfl,
    fun _ hother => n.profiles.profiles.get?_insert_ne hother _⟩

/-- Closing a mailbox wakes at most the agent that waits at it, the owner. -/
theorem apart_closeMailbox {seat : Seat μ ε} (hseat : n.seat? id = some seat)
    (hown : seat.IsOwn id) : Apart id n (n.closeMailbox id) := by
  simp only [closeMailbox, hseat]
  refine Apart.perform (apart_alterSeat n id _) fun w hw => ?_
  have hwaker : .wake w ∈ Effect.wakes seat.mailbox.receiver := hw
  rcases hown with hnone | hself
  · simp [hnone, Effect.wakes] at hwaker
  · simpa [hself, Effect.wakes] using hwaker

/-- Leaving the register touches the agent only. -/
theorem apart_deregister (n : Node μ ε) (id : AgentId) : Apart id n (n.deregister id) := by
  unfold deregister
  cases hseat : n.seat? id with
  | none => exact .refl id n
  | some seat =>
      dsimp only
      split
      · exact (apart_alterSeat n id _).congr rfl rfl rfl rfl
      · exact .refl id n

theorem apart_complete {seat : Seat μ ε} (hseat : n.seat? id = some seat) (hown : seat.IsOwn id) :
    Apart id n ((Node.around id : Surroundings (Node μ ε) μ).complete n) :=
  (apart_closeMailbox hseat hown).trans (apart_deregister _ id)

/-! ## The end of an agent -/

/-- A closed mailbox is closed at the agent's seat, which is otherwise led onward. -/
theorem closeMailbox_seat (hminted : n.Minted) {seat : Seat μ ε} (hseat : n.seat? id = some seat) :
    ∃ seat', (n.closeMailbox id).seat? id = some seat' ∧ seat.Onward id seat' ∧
      seat'.mailbox.isClosed = true := by
  let shut := n.alterSeat id fun s => { s with mailbox := seat.mailbox.close.state }
  have hshut : n.Onward shut :=
    onward_put hseat (Seat.onward_mailbox (fun _ => rfl) (.inl rfl))
  have hclosing : n.closeMailbox id = shut.perform id seat.mailbox.close.effects := by
    simp only [closeMailbox, hseat]
    rfl
  obtain ⟨seat', hseat', honward⟩ := (onward_closeMailbox n id).seat hminted hseat
  -- the agent may be woken after its mailbox is closed, which does not open it again
  obtain ⟨woken, hwoken, hlater⟩ := ((Onward.refl shut).perform id seat.mailbox.close.effects).seat
    (hshut.minted hminted) (seat?_alterSeat_self hseat _)
  rw [hclosing] at hseat'
  obtain rfl := Option.some.inj (hwoken.symm.trans hseat')
  exact ⟨woken, hclosing ▸ hwoken, honward, hlater.closed rfl⟩

/-- An agent on the register that is completed has left it, and its mailbox is closed. -/
theorem complete_seat (hminted : n.Minted) {seat : Seat μ ε} (hseat : n.seat? id = some seat)
    (hregister : seat.isRegistered = true) :
    let n' := (Node.around id : Surroundings (Node μ ε) μ).complete n
    (∃ seat', n'.seat? id = some seat' ∧ seat'.isRegistered = false ∧
      seat'.mailbox.isClosed = true ∧ seat.header.phase.Stirs seat'.header.phase ∧
      (seat.header.isTerminating = true → seat'.header.isTerminating = true)) ∧
    n'.failures = n.failures ∧ n'.metrics.terminated = n.metrics.terminated + 1 := by
  intro n'
  obtain ⟨shut, hshut, honward, hclosed⟩ := closeMailbox_seat hminted hseat
  have hkept := onward_closeMailbox n id
  -- the agent is still registered when its mailbox is closed, so its departure counts
  have hn' : n' = { (n.closeMailbox id).alterSeat id fun s => { s with isRegistered := false } with
      metrics := { (n.closeMailbox id).metrics with
        terminated := (n.closeMailbox id).metrics.terminated + 1 } } := by
    have hon : shut.isRegistered = true := honward.register.trans hregister
    show (n.closeMailbox id).deregister id = _
    simp only [deregister, hshut, hon, if_true]
  refine ⟨⟨{ shut with isRegistered := false }, ?_, rfl, hclosed, honward.phase, honward.asked⟩,
    ?_, ?_⟩
  · rw [hn']
    exact seat?_alterSeat_self hshut _
  · rw [hn']
    exact hkept.failures
  · rw [hn']
    exact congrArg (· + 1) hkept.terminated

/-! ## Neighbours -/

/-- What becomes of the neighbours of an agent: what anybody may do to them, at most. -/
structure Neighbourly (id : AgentId) (n n' : Node μ ε) : Prop where
  minted : n.Minted → n'.Minted
  seats : n.Minted → ∀ other, other ≠ id → Seat.Becomes other (n.seat? other) (n'.seat? other)
  failures : ∀ other, other ≠ id → n'.failures.get? other = n.failures.get? other

/-- Two neighbourly steps in sequence. -/
theorem Neighbourly.trans (h : Neighbourly id n n') (h' : Neighbourly id n' n'') :
    Neighbourly id n n'' where
  minted := h'.minted ∘ h.minted
  seats hminted other hother :=
    (h.seats hminted other hother).trans (h'.seats (h.minted hminted) other hother)
  failures other hother := (h'.failures other hother).trans (h.failures other hother)

theorem Onward.neighbourly (h : n.Onward n') (id : AgentId) : Neighbourly id n n' where
  minted := h.minted
  seats hminted other _ := h.seats hminted other
  failures other _ := by rw [h.failures]

/-- What touches one agent only is neighbourly of it. -/
theorem Apart.neighbourly (h : Apart id n n') : Neighbourly id n n' := by
  refine ⟨fun hminted other hother => ?_, fun _ other hother => ?_, h.failures⟩
  · have habsent := hminted other (h.nextId ▸ hother)
    by_cases hsame : other = id
    · subst hsame
      exact h.absent habsent
    · exact (h.seats other hsame).trans habsent
  · rw [h.seats other hother]
    exact .refl other _

end Node

end Troupe
