import Troupe.Proofs.Agent.Budget
import Troupe.Proofs.Agent.Keeping
import Troupe.Proofs.Node.Dealings

/-!
# What a node knows of failures

A node counts the failures of its agents and keeps a report of each failure that stopped an agent.
It does so in the turns of the agents and nowhere else. Beside it, an agent that takes notes
(`Resident.noted`) writes down what it goes through. Count and reports of the node say the same as
these notes, and so the node can be asked whether an agent keeps to its restart budget.

* `spares_deal` — dealings with agents leave count and reports alone;
* `Chronicle.Tells` — what a step adds to the notes it adds to count and reports;
* `tells_advance`, `isReported_run` — one step of an agent on its node, and a run.
-/

namespace Troupe

variable {μ ε : Type}

namespace Node

/-! ## What leaves the failures alone -/

/-- Nothing was counted as a failure, and nothing was reported. -/
structure Spares (n n' : Node μ ε) : Prop where
  failed : n'.metrics.failed = n.metrics.failed
  failures : n'.failures = n.failures

variable {n n' n'' : Node μ ε}

theorem Spares.refl (n : Node μ ε) : n.Spares n := ⟨rfl, rfl⟩

theorem Spares.trans (h : n.Spares n') (h' : n'.Spares n'') : n.Spares n'' :=
  ⟨h'.failed.trans h.failed, h'.failures.trans h.failures⟩

theorem spares_wake (n : Node μ ε) (id : AgentId) : n.Spares (n.wake id) :=
  wake_invariant (P := n.Spares) (.refl n) (fun _ _ => ⟨rfl, rfl⟩) fun _ _ h =>
    ⟨h.failed, h.failures⟩

theorem Spares.perform (h : n.Spares n') (owner : AgentId) (effects : List (Effect Waker)) :
    n.Spares (n'.perform owner effects) :=
  perform_invariant (P := n.Spares) h (fun n'' other _ h'' => h''.trans (n''.spares_wake other))
    fun _ _ _ _ h'' => ⟨h''.failed, h''.failures⟩

/-- A mailbox is put back, messages are counted, and effects are carried out. -/
theorem spares_stored (n : Node μ ε) (id : AgentId) (f : Seat μ ε → Seat μ ε) (metrics : Metrics)
    (hfailed : metrics.failed = n.metrics.failed) (effects : List (Effect Waker)) :
    n.Spares ({ n.alterSeat id f with metrics }.perform id effects) := by
  have hstored : n.Spares { n.alterSeat id f with metrics } := ⟨hfailed, rfl⟩
  exact hstored.perform id effects

/-- Closing a mailbox spares. -/
theorem spares_closeMailbox (n : Node μ ε) (id : AgentId) : n.Spares (n.closeMailbox id) := by
  unfold closeMailbox
  split
  · exact .refl n
  · exact n.spares_stored id _ n.metrics rfl _

/-- What is received is counted, but not as a failure. -/
theorem spares_receive (n : Node μ ε) (id : AgentId) : n.Spares (n.receive id).1 := by
  unfold receive
  cases n.seat? id with
  | none => exact .refl n
  | some seat =>
      refine n.spares_stored id _ _ ?_ _
      cases seat.mailbox.dequeue.answer <;> rfl

/-- Leaving the register spares: a departure is no failure. -/
theorem spares_deregister (n : Node μ ε) (id : AgentId) : n.Spares (n.deregister id) := by
  unfold deregister
  split
  · exact .refl n
  · split
    · exact ⟨rfl, rfl⟩
    · exact .refl n

theorem spares_complete (n : Node μ ε) (id : AgentId) :
    n.Spares ((Node.around id : Surroundings (Node μ ε) μ).complete n) :=
  (n.spares_closeMailbox id).trans (spares_deregister _ id)

/-- Spawning spares. -/
theorem spares_spawn (n : Node μ ε) (options : SpawnOptions ε) : n.Spares (n.spawn options).1 := by
  unfold spawn
  split
  · exact .refl n
  · dsimp only
    split
    · exact .refl n
    · split
      · exact .refl n
      · exact ⟨rfl, rfl⟩

/-- Telling an agent to terminate spares. -/
theorem spares_tell (n : Node μ ε) (id : AgentId) : n.Spares (n.tell id) := by
  unfold tell
  split
  · exact .refl n
  · split
    · exact .refl n
    · exact ⟨rfl, rfl⟩

variable [Transferable μ]

/-- A send that is refused is counted as a rejection. -/
theorem spares_send (n : Node μ ε) (target : AgentId) (message : μ) (sender : Option AgentId) :
    n.Spares (n.send target message sender).1 := by
  unfold send
  cases Envelope.trySeal message sender with
  | error m => exact .refl n
  | ok e =>
      dsimp only
      cases n.seat? target with
      | none => exact .refl n
      | some seat =>
          refine n.spares_stored target _ _ ?_ _
          -- a send counts as sent or as rejected, never as failed
          cases (seat.mailbox.enqueue e).answer with
          | ok status => rfl
          | error refusal => cases refusal <;> rfl

/-- Whoever deals with agents leaves count and reports alone. -/
theorem spares_deal (n : Node μ ε) (d : Dealing μ ε) (hagents : ∀ f, d ≠ .beside f) :
    n.Spares (n.deal d) := by
  cases d with
  | send target message sender => exact n.spares_send target message sender
  | wake id => exact n.spares_wake id
  | tell id => exact n.spares_tell id
  | closeMailbox id => exact n.spares_closeMailbox id
  | spawn options => exact n.spares_spawn options
  | beside f => exact absurd rfl (hagents f)

end Node

/-! ## Notes and the node -/

/-- A node with notes comes to another: as many failures are noted as the node counts, and a report
that is noted is the one in the table. -/
structure Chronicle.Tells (l l' : Chronicle (Node μ ε)) : Prop where
  failed : l'.world.metrics.failed + l.failed = l.world.metrics.failed + l'.failed
  report : l'.report = l.report ∧ l'.world.failures = l.world.failures ∨
    ∃ report, l'.report = some report ∧ l'.world.failures.get? report.agent = some report

namespace Chronicle.Tells

variable {l l' l'' : Chronicle (Node μ ε)}

theorem of_spares (h : l.world.Spares l'.world) (hfailed : l'.failed = l.failed)
    (hreport : l'.report = l.report) : l.Tells l' :=
  ⟨by rw [h.failed, hfailed], .inl ⟨hreport, h.failures⟩⟩

/-- A chronicle tells its own failures. -/
theorem refl (l : Chronicle (Node μ ε)) : l.Tells l := of_spares (.refl l.world) rfl rfl

/-- Telling composes: of two reports the later one stands. -/
theorem trans (h : l.Tells l') (h' : l'.Tells l'') : l.Tells l'' := by
  refine ⟨?_, ?_⟩
  · have hfirst := h.failed
    have hsecond := h'.failed
    omega
  · -- the last report that was kept is still in the table
    rcases h'.report with ⟨hreport, hfailures⟩ | hkept
    · rw [hreport, hfailures]
      exact h.report
    · exact .inr hkept

end Chronicle.Tells

/-- A program whose changes are of one kind is so with notes, which it leaves alone. -/
theorem Program.Within.noted {σ α : Type} {R : σ → σ → Prop}
    {R' : Chronicle σ → Chronicle σ → Prop} {p : Program σ μ α} (h : p.Within R)
    (hle : ∀ l s, R l.world s → R' l { l with world := s }) : p.noted.Within R' := by
  induction p with
  | answer a => trivial
  | change f next ih => exact ⟨fun l => hle l _ (h.1 l.world), fun l => ih l.world (h.2 l.world)⟩
  | receive next ih => exact fun e => ih e (h e)

/-- Two programs in sequence stay within a relation both stay within. -/
theorem Program.Within.bind {σ α β : Type} {R : σ → σ → Prop} {p : Program σ μ α}
    {k : α → Program σ μ β} (h : p.Within R) (hk : ∀ a, (k a).Within R) :
    (p.bind k).Within R := by
  induction p with
  | answer a => exact hk a
  | change f next ih => exact ⟨h.1, fun s => ih s (h.2 s)⟩
  | receive next ih => exact fun e => ih e (h e)

/-- A report is about the agent that was stopped. -/
theorem Life.report_agent {σ : Type} {most : Nat} {id : AgentId} {c : Pace (Chronicle σ) μ}
    (h : Life most id c) {report : FailureReport} (hreport : c.world.report = some report) :
    report.agent = id := by
  cases h with
  | past h books restarts history =>
      cases h with
      | stopped s h reason wasAsked hwhy => exact (congrArg (·.agent) (Option.some.inj hreport)).symm
      | broken s h hleft reason why => exact (congrArg (·.agent) (Option.some.inj hreport)).symm
      | finished s h => exact nomatch hreport
      | spoken s h => exact nomatch hreport
  | going s h books hpoint history => exact nomatch hreport
  | failing s h books hpoint history => exact nomatch hreport
  | speaking s h books p history => exact nomatch hreport

/-- An agent on its node, which leaves count and reports alone. -/
structure Lodger (μ ε : Type) where
  behavior : Behavior (Node μ ε) μ
  policy : Policy
  id : AgentId
  quantum : Nat
  spares : behavior.Within Node.Spares

namespace Lodger

/-- Who deals with other agents and does nothing else is one. -/
def ofDealer [Transferable μ] (behavior : Behavior (Node μ ε) μ)
    (hdeals : behavior.Within fun n n' =>
      ∃ d : Node.Dealing μ ε, (∀ f, d ≠ .beside f) ∧ n.deal d = n')
    (policy : Policy) (id : AgentId) (quantum : Nat) : Lodger μ ε where
  behavior := behavior
  policy := policy
  id := id
  quantum := quantum
  spares := hdeals.mono fun n _ ⟨d, hagents, hdealt⟩ => hdealt ▸ n.spares_deal d hagents

/-- What is around it is the node. -/
def resident (a : Lodger μ ε) : Resident (Node μ ε) μ :=
  ⟨a.behavior, Node.around a.id, a.policy, a.id, a.quantum⟩

/-- The node counts a failure where the agent notes one, and keeps the report that it notes. -/
theorem within_tells (a : Lodger μ ε) : a.resident.noted.Within Chronicle.Tells where
  refl := .refl
  trans := .trans
  behavior := by
    -- the behaviour spares the failures, and a note alone does not touch the node
    have hworld : ∀ (l : Chronicle (Node μ ε)) s, l.world.Spares s →
        l.Tells { l with world := s } := fun l s h => .of_spares h rfl rfl
    have hnote : ∀ (x : Note) (l : Chronicle (Node μ ε)), l.Tells (l.note x) := fun x l =>
      .of_spares (.refl _) rfl rfl
    refine ⟨?_, ?_, fun l => .of_spares (a.spares.onRestart l.world) rfl rfl⟩
    · exact (a.spares.resume.noted hworld).bind fun answer => ⟨hnote _, fun _ => trivial⟩
    · exact ⟨hnote _, fun _ => a.spares.onStop.noted hworld⟩
  meanwhile _ := rfl
  dequeue l := .of_spares (l.world.spares_receive a.id) rfl rfl
  register _ := .of_spares ⟨rfl, rfl⟩ rfl rfl
  countFailure _ := ⟨by simp only [Resident.noted, Surroundings.noted, resident, Node.around]; omega,
    .inl ⟨rfl, rfl⟩⟩
  keepReport report l := ⟨rfl, .inr ⟨report, rfl, l.world.failures.get?_insert_self _ _⟩⟩
  complete l := .of_spares (l.world.spares_complete a.id) rfl rfl

variable {a : Lodger μ ε} {c c' : Pace (Chronicle (Node μ ε)) μ}

/-- One step of an agent on its node, whatever others have done before. -/
theorem tells_advance (a : Lodger μ ε) (hpoint : c.point.Within Chronicle.Tells) :
    c.world.Tells (a.resident.noted.advance c).world ∧
      (a.resident.noted.advance c).point.Within Chronicle.Tells :=
  a.within_tells.advance hpoint

/-! ## Runs -/

/-- The others do what they like, but do not fail. -/
def Sparing (c c' : Pace (Chronicle (Node μ ε)) μ) : Prop :=
  Bystanders c c' ∧ c.world.world.Spares c'.world.world

/-- Along a run the chronicle tells the node's failures. -/
theorem tells_run {n : Node μ ε} (hrun : a.resident.noted.Runs Sparing (.fresh n) c) :
    (Chronicle.start n).Tells c.world ∧ c.point.Within Chronicle.Tells := by
  induction hrun with
  | refl => exact ⟨.refl _, trivial⟩
  | tail _ hstep ih =>
      obtain ⟨htold, hpoint⟩ := ih
      rcases hstep with ⟨⟨s, history, rfl⟩, hspares⟩ | rfl
      · exact ⟨htold.trans (.of_spares hspares rfl rfl), hpoint⟩
      · obtain ⟨hstepped, hpoint'⟩ := a.tells_advance hpoint
        exact ⟨htold.trans hstepped, hpoint'⟩

/-- What the node says of the failures of an agent since it was `n`. -/
structure IsReported (n : Node μ ε) (id : AgentId) (c : Pace (Chronicle (Node μ ε)) μ) : Prop where
  /-- Each failure is counted once. -/
  counted : c.world.world.metrics.failed = n.metrics.failed + c.world.notes.countP Note.isFailure
  /-- Between turns that is once for each resume that failed. -/
  settled : ∀ ending, c.point = .ended ending →
    c.world.world.metrics.failed = n.metrics.failed + c.world.notes.countP Note.isFailedResume
  /-- Of an agent that was stopped by a failure the table holds the report. -/
  kept : ∀ report, c.world.report = some report → report.agent = id ∧
    c.world.world.failures.get? id = some report
  /-- Of another there is none, unless there was one before. -/
  spared : c.world.report = none → c.world.world.failures = n.failures

/-- Whatever others do but fail, count and reports of the node are those of the agent's notes: its
restarts are bounded by its policy, and each of its failures is counted and reported. -/
theorem isReported_run {n : Node μ ε} (hrun : a.resident.noted.Runs Sparing (.fresh n) c) :
    IsBudgeted a.policy.budget a.id c ∧ IsReported n a.id c := by
  obtain ⟨htold, -⟩ := tells_run hrun
  -- the run with its neighbours is one of a turn among bystanders, so its life is known
  have hbystanders : a.resident.noted.Runs Bystanders (.fresh n) c :=
    Relation.ReflTransGen.mono (fun _ _ => Or.imp_left And.left) _ _ hrun
  have hlife : Life a.policy.budget a.id c := life_run a.resident hbystanders
  have hbudgeted := hlife.isBudgeted
  obtain ⟨hnoted, hresumed⟩ := hbudgeted.counted
  have hfailed : c.world.world.metrics.failed = n.metrics.failed + c.world.failed := htold.failed
  refine ⟨hbudgeted, ?_, ?_, ?_, ?_⟩
  · rw [hnoted]
    exact hfailed
  · -- a failed resume that is still to be met is met before the turn is over
    intro ending hended
    have hmet : c.world.notes.countP Note.isFailedResume = c.world.failed := by
      refine hresumed.resolve_right ?_
      rintro ⟨-, reason, hfailing⟩
      rw [hended] at hfailing
      cases hfailing
    rw [hmet]
    exact hfailed
  · intro report hreport
    have hagent := hlife.report_agent hreport
    refine ⟨hagent, ?_⟩
    rcases htold.report with ⟨hnone, -⟩ | ⟨kept, hkept, htable⟩
    · exact nomatch hnone.symm.trans hreport
    · obtain rfl := Option.some.inj (hkept.symm.trans hreport)
      rwa [hagent] at htable
  · intro hnone
    rcases htold.report with ⟨-, hfailures⟩ | ⟨kept, hkept, -⟩
    · exact hfailures
    · exact nomatch hkept.symm.trans hnone

end Lodger

end Troupe
