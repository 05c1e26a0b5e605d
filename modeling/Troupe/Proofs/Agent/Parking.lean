import Troupe.Proofs.Agent.Steps
import Troupe.Proofs.Agent.Stirring
import Troupe.Proofs.Mailbox.Closing
import Troupe.Proofs.Mailbox.Run

/-!
# Parking

An agent that has read its mailbox out leaves its waker there and is parked. What gets in
before the waker is in place wakes nobody, so the agent looks once more afterwards: but only
if a receive has found the mailbox empty. An agent that ran out of budget looks before it
leaves its waker, and not again. What gets in between is overlooked, and nobody wakes the
agent for it.

Here the steps of the agent's turn mix with those of any number of sends at its mailbox and
of wakes at its header, and with those of the worker that has its task.

* `IsWatched.deliver` — once its waker is in place, an agent is woken for what gets in;
* `Kept.turn` — what a turn of an agent that reads its mailbox out can do;
* `isEmpty_iff_not_overlooked` — a parked agent has messages left exactly if some were
  overlooked.
-/

namespace Troupe

open Header.Traffic (replace mem_replace mem_replace_some mem_replace_of_ne sum_replace)

/-! ## An agent at its berth -/

/-- What an agent lives in: its mailbox with the sends at it, its header with the calls at
it, and what else it knows. -/
structure Berth (μ ε : Type) where
  mailbox : Mailbox Unit μ
  sends : List (Mailbox.SendCall μ)
  traffic : Header.Traffic Unit
  own : ε

variable {μ ε : Type}

namespace Berth

/-- What the turn of an agent finds around it. Nobody keeps books on failures here: an agent
that only reads and waits has none. -/
def around : Surroundings (Berth μ ε) μ where
  isTerminating p := p.traffic.header.isTerminating
  isEmpty p := p.mailbox.isEmpty
  dequeue p := ({ p with mailbox := p.mailbox.dequeue.state }, p.mailbox.dequeue.answer)
  register p := { p with mailbox := p.mailbox.register () }
  meanwhile p := p
  countFailure p := p
  keepReport _ p := p
  complete p := { p with mailbox := p.mailbox.close.state }

/-- An agent at this berth; its waker is the only one in its mailbox. -/
def resident (behavior : Behavior (Berth μ ε) μ) (policy : Policy) (id : AgentId) (quantum : Nat) :
    Resident (Berth μ ε) μ :=
  ⟨behavior, around, policy, id, quantum⟩

/-- A wake is a call at the header. -/
def rouse (t : Header.Traffic Unit) : Effect Unit → Header.Traffic Unit
  | .wake _ => t.next .callWake
  | .pressure _ => t

end Berth

/-- An agent and its berth, in the middle of a turn or between two. -/
structure Vigil (μ ε : Type) where
  pace : Pace (Berth μ ε) μ
  /-- What has got in between the agent's last look for more messages and its waker. -/
  overlooked : List (Envelope μ)

namespace Vigil

def berth (s : Vigil μ ε) : Berth μ ε := s.pace.world

def mailbox (s : Vigil μ ε) : Mailbox Unit μ := s.berth.mailbox

def traffic (s : Vigil μ ε) : Header.Traffic Unit := s.berth.traffic

/-- A new agent with an empty mailbox, whose task is queued. -/
def start (marks : Watermarks) (own : ε) : Vigil μ ε :=
  ⟨⟨⟨.ofMarks marks, [], .start (), own⟩, .opened 0, 0, .ended .yield, []⟩, []⟩

/-- What can happen next. A call in progress is named by its place among its like. -/
inductive Action (μ : Type) where
  | callSend (e : Envelope μ)
  | send (index : Nat)
  | callWake
  | wake (index : Nat)
  /-- A worker takes the task out of a run queue. -/
  | pick
  /-- The worker that has the task makes a step. -/
  | work

/-- Something happens at the header. -/
def relay (s : Vigil μ ε) (action : Header.Traffic.Action) : Vigil μ ε :=
  { s with pace := { s.pace with world := { s.berth with traffic := s.traffic.next action } } }

/-- The agent makes a step of its turn. If it is about to leave its waker, it has just looked
for more messages. -/
def turn (a : Resident (Berth μ ε) μ) (s : Vigil μ ε) : Vigil μ ε :=
  { pace := a.step s.pace
    overlooked := match s.pace.point with
      | .waiting _ => []
      | _ => s.overlooked }

/-- A send makes a step. -/
def deliver (s : Vigil μ ε) (index : Nat) (call : Mailbox.SendCall μ) : Vigil μ ε :=
  let o := call.step s.mailbox
  { pace := { s.pace with
      world := { s.berth with
        mailbox := o.state
        sends := replace s.berth.sends index o.answer.getLeft?
        traffic := o.effects.foldl Berth.rouse s.traffic } }
    overlooked := match s.pace.point with
      | .enlisting _ => s.overlooked ++ (call.entering? s.mailbox).toList
      | _ => s.overlooked }

def next (a : Resident (Berth μ ε) μ) (s : Vigil μ ε) : Action μ → Vigil μ ε
  | .callSend e =>
    { s with pace := { s.pace with
      world := { s.berth with sends := s.berth.sends ++ [.checking e] } } }
  | .send index =>
    match s.berth.sends[index]? with
    | none => s
    | some call => s.deliver index call
  | .callWake => s.relay .callWake
  | .wake index => s.relay (.wake index)
  | .pick => s.relay .pick
  | .work =>
    match s.traffic.runner with
    | .running _ =>
      match s.pace.point with
      | .ended ending => s.relay (.run ending)
      | _ => s.turn a
    | .picked _ =>
      -- a turn begins, unless the agent is done
      let begun := s.relay (.run .yield)
      if s.traffic.header.beginRun.2 then
        { begun with pace := { begun.pace with
          books := .opened a.quantum
          point := .resuming a.quantum } }
      else begun
    | _ => s.relay (.run .yield)

/-- What comes of actions one after another. -/
def run (a : Resident (Berth μ ε) μ) (s : Vigil μ ε) (actions : List (Action μ)) : Vigil μ ε :=
  actions.foldl (next a) s

/-! ## Agents that read their mailbox out -/

/-- A change that concerns the agent alone. -/
def Minds (f : Berth μ ε → Berth μ ε) : Prop := ∀ p, ∃ own, f p = { p with own := own }

/-- The program comes to wait, without another receive. -/
inductive Waits : Program (Berth μ ε) μ (Except String Step) → Prop where
  | answer : Waits (.answer (.ok .wait))
  | change {f : Berth μ ε → Berth μ ε}
      {next : Berth μ ε → Program (Berth μ ε) μ (Except String Step)}
      (hf : Minds f) (hnext : ∀ p, Waits (next p)) : Waits (.change f next)

/-- The program receives until nothing comes and then waits; what it does after so many
receives does not matter. -/
inductive Reads : Nat → Program (Berth μ ε) μ (Except String Step) → Prop where
  | beyond {p : Program (Berth μ ε) μ (Except String Step)} : Reads 0 p
  | change {k : Nat} {f : Berth μ ε → Berth μ ε}
      {next : Berth μ ε → Program (Berth μ ε) μ (Except String Step)}
      (hf : Minds f) (hnext : ∀ p, Reads k (next p)) : Reads k (.change f next)
  | receive {k : Nat} {next : Option (Envelope μ) → Program (Berth μ ε) μ (Except String Step)}
      (hnone : Waits (next none)) (hsome : ∀ e, Reads k (next (some e))) :
      Reads (k + 1) (.receive next)

/-- Receives so many messages, or fewer if nothing more comes, and waits. -/
def reading : Nat → Program (Berth μ ε) μ (Except String Step)
  | 0 => .answer (.ok .wait)
  | k + 1 => .receive fun e => match e with
    | none => .answer (.ok .wait)
    | some _ => reading k

theorem reads_reading (k : Nat) :
    Reads k (reading k : Program (Berth μ ε) μ (Except String Step)) := by
  induction k with
  | zero => exact .beyond
  | succ k ih => exact .receive .answer fun _ => ih

/-- An agent that does nothing but read. -/
def reader (k quantum : Nat) : Resident (Berth Unit Unit) Unit :=
  Berth.resident ⟨reading k, .answer (.ok ()), fun p => (p, .ok ())⟩ .stopOnFailure ⟨1⟩ quantum

/-- A receive has found the mailbox empty, or was refused for lack of budget. -/
def Told (t : TurnBooks) : Prop := t.drained = true ∨ t.exhausted = true

/-- Where an agent that reads its mailbox out can be. -/
inductive Fit (t : TurnBooks) : Point (Berth μ ε) μ → Prop where
  | away {ending : TurnEnd} (h : ending ≠ .done) : Fit t (.ended ending)
  | resuming {left : Nat} : Fit t (.resuming left)
  | reading {left k : Nat} {p : Program (Berth μ ε) μ (Except String Step)} (hp : Reads k p)
      (hk : t.budget < k) : Fit t (.running left p)
  | told {left : Nat} {p : Program (Berth μ ε) μ (Except String Step)} (hp : Waits p)
      (ht : Told t) : Fit t (.running left p)
  | answered {left : Nat} (ht : Told t) : Fit t (.answered left (.ok .wait))
  | waiting {left : Nat} (ht : Told t) : Fit t (.waiting left)
  | enlisting {left : Nat} (ht : Told t) : Fit t (.enlisting left)
  | enlisted {left : Nat} (ht : Told t) : Fit t (.enlisted left)

/-! ## Whether the agent will be woken -/

/-- The agent will look at its mailbox again: a wake is on its way to it, or its waker is in
place and nothing has got in behind its back whose send is over, unless it looks anyway. -/
def IsWatched (s : Vigil μ ε) (looks : Prop) : Prop :=
  s.traffic.IsStirred ∨
    s.mailbox.receiver = some () ∧
      (looks ∨ s.mailbox.queue = s.overlooked ∨ ∃ call ∈ s.berth.sends, call.pushed?.isSome = true)

/-- What is known at the places of a turn where it matters what gets in. -/
def Alert (s : Vigil μ ε) : Prop :=
  match s.pace.point with
  | .enlisting _ =>
    (s.pace.books.drained = true ∨ s.mailbox.queue = s.overlooked) ∧
      s.overlooked.length ≤ s.mailbox.queue.length
  | .enlisted _ =>
    s.IsWatched (s.pace.books.drained = true) ∧ s.overlooked.length ≤ s.mailbox.queue.length
  | .ended .wait => s.IsWatched False ∧ (s.pace.books.drained = true → s.overlooked = [])
  | _ => True

/-- The agent and its berth are as the calls there know them to be; `k` bounds what the agent
receives. -/
structure Kept (k : Nat) (s : Vigil μ ε) : Prop where
  isLive : s.traffic.IsLive
  reserved : s.mailbox.reserved =
    s.mailbox.queue.length + (s.berth.sends.map Mailbox.SendCall.places).sum
  budget_lt : s.pace.books.budget < k
  fit : Fit s.pace.books s.pace.point
  putAway : s.traffic.IsPutAway → s.pace.point = .ended .wait
  alert : s.Alert

variable {s : Vigil μ ε} {k : Nat}

/-- A new agent is queued, with nothing in its mailbox. -/
theorem kept_start (hk : 0 < k) (marks : Watermarks) (own : ε) :
    (start marks own : Vigil μ ε).Kept k := by
  refine ⟨Header.Traffic.isLive_start (), rfl, hk, .away nofun, ?_, trivial⟩
  rintro (hleaving | hidle)
  · exact nomatch hleaving
  · exact nomatch hidle

/-! ## Sends -/

/-- A send that gets its message in goes on. -/
theorem entering_step {m : Mailbox Unit μ} {call : Mailbox.SendCall μ} {e : Envelope μ}
    (h : call.entering? m = some e) :
    ∃ after, (call.step m).answer = .inl after ∧ after.pushed? = some e := by
  obtain ⟨length, rfl⟩ := Mailbox.SendCall.entering?_eq_some h
  -- it gets in, so there was a slot for it
  have hslot : m.queue.length < m.marks.capacity := by
    by_contra hfull
    simp [Mailbox.SendCall.entering?, hfull] at h
  exact ⟨.counting e length, by simp [Mailbox.SendCall.step, Mailbox.push?, hslot], rfl⟩

/-- A send takes the waker out and calls it, or leaves it where it is; then it still has to
come to that. -/
theorem waker_step (t : Header.Traffic Unit) (m : Mailbox Unit μ) (call : Mailbox.SendCall μ) :
    (call.step m).effects.foldl Berth.rouse t = t.next .callWake ∨
      (call.step m).effects.foldl Berth.rouse t = t ∧
        (call.step m).state.receiver = m.receiver ∧
        (m.receiver = some () → call.pushed?.isSome = true →
          ∃ after, (call.step m).answer = .inl after) := by
  cases call with
  | waking e status =>
      -- whoever finds the waker calls it
      cases hreceiver : m.receiver with
      | none => exact .inr ⟨by simp [Mailbox.SendCall.step, Mailbox.wake, hreceiver, Effect.wakes],
          rfl, fun h => by cases h⟩
      | some w => exact .inl (by simp [Mailbox.SendCall.step, Mailbox.wake, hreceiver,
          Effect.wakes, Berth.rouse])
  | engaging e length =>
      by_cases hraise : m.marks.high ≤ length ∧ m.isEngaged = false
      · simp [Mailbox.SendCall.step, Mailbox.raise, hraise, Effect.pressures, Berth.rouse]
      · simp [Mailbox.SendCall.step, hraise]
  | reserving e =>
      -- these steps come before the waker, and leave it for later
      by_cases hroom : m.reserved < m.marks.capacity
      · simp [Mailbox.SendCall.step, Mailbox.reserve?, hroom]
      · simp [Mailbox.SendCall.step, Mailbox.reserve?, hroom]
  | pushing e length =>
      by_cases hslot : m.queue.length < m.marks.capacity
      · simp [Mailbox.SendCall.step, Mailbox.push?, hslot]
      · simp [Mailbox.SendCall.step, Mailbox.push?, hslot]
  | counting e length | looking e => exact .inr ⟨rfl, rfl, fun _ _ => ⟨_, rfl⟩⟩
  | checking e | rejecting e | stamping e length | unreserving e =>
      exact .inr ⟨rfl, rfl, fun _ h => by cases h⟩

theorem isLive_rouse {t : Header.Traffic Unit} (ht : t.IsLive) (m : Mailbox Unit μ)
    (call : Mailbox.SendCall μ) : ((call.step m).effects.foldl Berth.rouse t).IsLive := by
  rcases waker_step t m call with hcalled | ⟨hsame, -⟩
  · rw [hcalled]
    exact ht.callWake
  · rw [hsame]
    exact ht

/-- A send that gets in behind the back of an agent whose waker is in place will call it. -/
theorem IsWatched.deliver {looks : Prop} (h : s.IsWatched looks) {index : Nat}
    {call : Mailbox.SendCall μ} (hcall : s.berth.sends[index]? = some call)
    (hoverlooked : (s.deliver index call).overlooked = s.overlooked) :
    (s.deliver index call).IsWatched looks := by
  have hmove := call.step_move s.mailbox
  rcases waker_step s.traffic s.mailbox call with hcalled | ⟨hsame, hreceiver, hgoes⟩
  · have htraffic : (s.deliver index call).traffic = s.traffic.next .callWake := hcalled
    exact .inl (htraffic ▸ s.traffic.isStirred_callWake)
  · have htraffic : (s.deliver index call).traffic = s.traffic := hsame
    rcases h with hstirred | ⟨hplaced, hwhy⟩
    · exact .inl (htraffic ▸ hstirred)
    · refine .inr ⟨hreceiver.trans hplaced, ?_⟩
      rw [hoverlooked]
      -- a send that goes on is still among those at the mailbox
      have hback : ∀ after, (call.step s.mailbox).answer = .inl after →
          after ∈ (s.deliver index call).berth.sends := by
        intro after hanswer
        show after ∈ replace s.berth.sends index (call.step s.mailbox).answer.getLeft?
        rw [hanswer]
        exact mem_replace_some _ _ after
      rcases hwhy with hlooks | hqueue | ⟨other, hother, hpushed⟩
      · exact .inl hlooks
      -- nothing got in and the queue is as it was, or this send got in and is not over
      · cases hentering : call.entering? s.mailbox with
        | none =>
            refine .inr (.inl ?_)
            show (call.step s.mailbox).state.queue = s.overlooked
            rw [hmove.queue, hentering, Option.toList_none, List.append_nil, hqueue]
        | some e =>
            obtain ⟨after, hanswer, hafter⟩ := entering_step hentering
            exact .inr (.inr ⟨after, hback after hanswer, by rw [hafter]; rfl⟩)
      · refine .inr (.inr ?_)
        -- the send with the pushed message goes on itself, or another one makes the step
        by_cases hsender : other = call
        · subst hsender
          obtain ⟨after, hanswer⟩ := hgoes hplaced hpushed
          refine ⟨after, hback after hanswer, ?_⟩
          rw [hmove.pushed after hanswer, Option.isSome_or, hpushed, Bool.true_or]
        · exact ⟨other, mem_replace_of_ne hcall hother hsender _, hpushed⟩

/-- A send that gets in leaves the agent as alert as it was. -/
theorem Alert.deliver (h : s.Alert) {index : Nat} {call : Mailbox.SendCall μ}
    (hcall : s.berth.sends[index]? = some call) : (s.deliver index call).Alert := by
  have hqueue : (s.deliver index call).mailbox.queue =
      s.mailbox.queue ++ (call.entering? s.mailbox).toList := (call.step_move s.mailbox).queue
  have hpoint : (s.deliver index call).pace.point = s.pace.point := rfl
  unfold Alert at h ⊢
  rw [hpoint]
  -- only where it matters what gets in is anything known of it
  cases hat : s.pace.point with
  | enlisting left =>
      rw [hat] at h
      have hoverlooked : (s.deliver index call).overlooked =
          s.overlooked ++ (call.entering? s.mailbox).toList := by
        simp only [Vigil.deliver, hat]
      rw [hqueue, hoverlooked, List.length_append, List.length_append]
      exact ⟨h.1.imp_right fun hsame => by rw [hsame], Nat.add_le_add_right h.2 _⟩
  | enlisted left =>
      rw [hat] at h
      have hoverlooked : (s.deliver index call).overlooked = s.overlooked := by
        simp only [Vigil.deliver, hat]
      refine ⟨h.1.deliver hcall hoverlooked, ?_⟩
      rw [hqueue, hoverlooked, List.length_append]
      exact Nat.le_add_right_of_le h.2
  | ended ending =>
      rw [hat] at h
      have hoverlooked : (s.deliver index call).overlooked = s.overlooked := by
        simp only [Vigil.deliver, hat]
      cases ending with
      | wait => exact ⟨h.1.deliver hcall hoverlooked, hoverlooked ▸ h.2⟩
      | _ => trivial
  | _ => trivial

/-- A step of a send keeps all that is known at the berth. -/
theorem Kept.send (hs : s.Kept k) {index : Nat} {call : Mailbox.SendCall μ}
    (hcall : s.berth.sends[index]? = some call) : (s.deliver index call).Kept k := by
  refine ⟨isLive_rouse hs.isLive _ _, ?_, hs.budget_lt, hs.fit, ?_, hs.alert.deliver hcall⟩
  · obtain ⟨rest, hplaces, hplaces'⟩ := sum_replace Mailbox.SendCall.places hcall
    have hreserved := hs.reserved
    have hbalance := (call.step_move s.mailbox).places (by omega)
    show (call.step s.mailbox).state.reserved = (call.step s.mailbox).state.queue.length +
      ((replace s.berth.sends index _).map Mailbox.SendCall.places).sum
    rw [hplaces']
    omega
  · intro hput
    refine hs.putAway ?_
    rcases waker_step s.traffic s.mailbox call with hcalled | ⟨hsame, -⟩
    · have htraffic : (s.deliver index call).traffic = s.traffic.next .callWake := hcalled
      rw [htraffic] at hput
      exact hput
    · have htraffic : (s.deliver index call).traffic = s.traffic := hsame
      rw [htraffic] at hput
      exact hput

/-! ## What happens at the header -/

/-- What happens behind the mailbox leaves the agent as alert as it was. -/
theorem Alert.of_watched (h : s.Alert) {s' : Vigil μ ε} (hpoint : s'.pace.point = s.pace.point)
    (hbooks : s'.pace.books = s.pace.books) (hqueue : s'.mailbox.queue = s.mailbox.queue)
    (hoverlooked : s'.overlooked = s.overlooked)
    (hwatched : ∀ looks, s.IsWatched looks → s'.IsWatched looks) : s'.Alert := by
  unfold Alert at h ⊢
  rw [hpoint, hbooks, hqueue, hoverlooked]
  cases hat : s.pace.point with
  | enlisting left =>
      rw [hat] at h
      exact h
  | enlisted left =>
      rw [hat] at h
      exact ⟨hwatched _ h.1, h.2⟩
  | ended ending =>
      rw [hat] at h
      cases ending with
      | wait => exact ⟨hwatched _ h.1, h.2⟩
      | _ => trivial
  | _ => trivial

theorem Kept.relay (hs : s.Kept k) {action : Header.Traffic.Action}
    (hlive : (s.traffic.next action).IsLive)
    (hstirred : s.traffic.IsStirred → (s.traffic.next action).IsStirred)
    (hput : (s.traffic.next action).IsPutAway → s.pace.point = .ended .wait) :
    (s.relay action).Kept k :=
  ⟨hlive, hs.reserved, hs.budget_lt, hs.fit, hput,
    hs.alert.of_watched rfl rfl rfl rfl fun _ h => h.imp_left hstirred⟩

theorem Kept.callWake (hs : s.Kept k) : (s.relay .callWake).Kept k :=
  hs.relay hs.isLive.callWake (fun _ => s.traffic.isStirred_callWake) hs.putAway

/-- A wake makes an agent run, and never puts one away. -/
theorem Kept.wake (hs : s.Kept k) (index : Nat) : (s.relay (.wake index)).Kept k := by
  refine hs.relay (hs.isLive.wake index) (fun h => h.wake hs.isLive index) fun hput => ?_
  cases hcall : s.traffic.wakes[index]? with
  | none =>
      rw [Header.Traffic.next_wake_none hcall] at hput
      exact hs.putAway hput
  | some call =>
      rw [Header.Traffic.next_wake hcall, hs.isLive.isUp] at hput
      refine hs.putAway (hput.imp_right fun hidle => ?_)
      rcases call.phase_cases s.traffic.header with hsame | hscheduled | hnotified
      · exact hsame.symm.trans hidle
      · exact nomatch hscheduled.symm.trans hidle
      · exact nomatch hnotified.symm.trans hidle

/-- A worker that picks up a task has put nothing away yet. -/
theorem Kept.pick (hs : s.Kept k) : (s.relay .pick).Kept k := by
  refine hs.relay hs.isLive.pick (fun h => h.pick) fun hput => hs.putAway ?_
  simp only [Header.Traffic.next] at hput
  split at hput
  · exact .inr (hput.resolve_left Bool.false_ne_true)
  · exact hput

/-- The worker makes a step between two turns. -/
theorem Kept.between (hs : s.Kept k) (hpicked : ∀ task, s.traffic.runner ≠ .picked task)
    (hrunning : ∀ task, s.traffic.runner ≠ .running task) : (s.relay (.run .yield)).Kept k := by
  refine hs.relay (hs.isLive.run fun _ => nofun) (fun h => h.run hs.isLive .yield hpicked) ?_
  -- a task is put away only from a turn, and there is none
  rintro (hleaving | hidle)
  · have hnext : (s.traffic.runner.step s.traffic.header .yield).next.isLeaving = true := hleaving
    rcases s.traffic.runner.next_cases s.traffic.header .yield with
      ⟨task, hrunner⟩ | ⟨-, hnot | hbefore⟩
    · exact absurd hrunner (hrunning task)
    · exact absurd (hnot.symm.trans hnext) Bool.false_ne_true
    · exact hs.putAway (.inl hbefore)
  · rcases s.traffic.runner.phase_cases s.traffic.header .yield hs.isLive.isClosing with
      hsame | hscheduled | ⟨task, hrunner, -⟩ | ⟨hsealing, -, -⟩
    · exact hs.putAway (.inr (hsame.symm.trans hidle))
    · exact nomatch hscheduled.symm.trans hidle
    · exact absurd hrunner (hpicked task)
    · exact hs.putAway (.inl (by rw [hsealing]; rfl))

/-- The turn is over. -/
theorem Kept.leave (hs : s.Kept k) {ending : TurnEnd} (hat : s.pace.point = .ended ending)
    {task : Unit} (hrunner : s.traffic.runner = .running task) :
    (s.relay (.run ending)).Kept k := by
  have hne : ending ≠ .done := by
    have hfit := hs.fit
    rw [hat] at hfit
    cases hfit with
    | away h => exact h
  refine hs.relay (hs.isLive.run fun _ => hne) (fun h => h.run hs.isLive ending ?_) ?_
  · intro other hpicked
    exact nomatch hrunner.symm.trans hpicked
  · rintro (hleaving | hidle)
    · have hnext : (s.traffic.runner.step s.traffic.header ending).next.isLeaving = true := hleaving
      rw [hrunner] at hnext
      -- a turn that ends waiting puts the agent away, and it is there that it stands
      cases ending with
      | wait => exact hat
      | _ => exact nomatch hnext
    · have hphase : (s.traffic.runner.step s.traffic.header ending).header.phase = .idle := hidle
      rw [hrunner] at hphase
      exact hs.putAway (.inr hphase)

/-- An agent in its turn is not put away. -/
theorem Kept.not_isPutAway (hs : s.Kept k) {task : Unit}
    (hrunner : s.traffic.runner = .running task) : ¬ s.traffic.IsPutAway := by
  have hstanding := hs.isLive.kept.standing
  unfold Header.Traffic.IsPutAway
  rw [hrunner] at hstanding ⊢
  rintro (hleaving | hidle)
  · exact nomatch hleaving
  · exact hstanding.of_running hidle

/-- A task that was picked up is that of an agent that is due. -/
theorem Kept.phase_picked (hs : s.Kept k) {task : Unit}
    (hrunner : s.traffic.runner = .picked task) : s.traffic.header.phase = .scheduled := by
  have hstanding := hs.isLive.kept.standing
  rw [hrunner] at hstanding
  exact hstanding.of_picked.resolve_right hs.isLive.phase_ne

/-- A turn begins. -/
theorem Kept.begin (hs : s.Kept k) {task : Unit} (hrunner : s.traffic.runner = .picked task)
    {quantum : Nat} (hk : quantum < k) :
    ({ s.relay (.run .yield) with pace := { (s.relay (.run .yield)).pace with
      books := .opened quantum, point := .resuming quantum } } : Vigil μ ε).Kept k := by
  have hphase := hs.phase_picked hrunner
  refine ⟨hs.isLive.run fun _ => nofun, hs.reserved, hk, .resuming, ?_, trivial⟩
  have hstep : s.traffic.runner.step s.traffic.header .yield =
      { header := { s.traffic.header with phase := .running }, next := .running task } := by
    rw [hrunner]
    simp only [Header.Runner.step, if_pos hphase]
  rintro (hleaving | hidle)
  · have hnext : (s.traffic.runner.step s.traffic.header .yield).next.isLeaving = true := hleaving
    rw [hstep] at hnext
    cases hnext
  · have hafter : (s.traffic.runner.step s.traffic.header .yield).header.phase = .idle := hidle
    rw [hstep] at hafter
    cases hafter

/-! ## The turn -/

/-- A receive gives back the place of the message it takes. -/
theorem balance_dequeue {m : Mailbox Unit μ} (hle : m.queue.length ≤ m.reserved) :
    m.dequeue.state.reserved + m.queue.length = m.reserved + m.dequeue.state.queue.length := by
  cases hq : m.queue with
  | nil => rw [Mailbox.dequeue_nil hq, hq]
  | cons e rest =>
      have hsame := Mailbox.sameMail_lower (m.dispatch rest) (m.reserved - 1)
      rw [Mailbox.dequeue_cons hq, hsame.reserved, hsame.queue]
      simp only [Mailbox.dispatch, hq, List.length_cons] at hle ⊢
      omega

section Turn

variable {p : Berth μ ε} {t t' : TurnBooks} {restarts restarts' : Nat}
  {point point' : Point (Berth μ ε) μ} {history history' : List (Event μ)}
  {overlooked overlooked' : List (Envelope μ)}

/-- The agent goes on and does no more to its berth than to receive. -/
theorem Kept.move (hs : (⟨⟨p, t, restarts, point, history⟩, overlooked⟩ : Vigil μ ε).Kept k)
    (hput : ¬ p.traffic.IsPutAway) {mailbox : Mailbox Unit μ} {own : ε}
    (hbalance : mailbox.reserved + p.mailbox.queue.length =
      p.mailbox.reserved + mailbox.queue.length)
    (hbudget : t'.budget ≤ t.budget) (hfit : Fit t' point')
    (halert : (⟨⟨{ p with mailbox, own }, t', restarts', point', history'⟩, overlooked'⟩ :
      Vigil μ ε).Alert) :
    (⟨⟨{ p with mailbox, own }, t', restarts', point', history'⟩, overlooked'⟩ :
      Vigil μ ε).Kept k := by
  refine ⟨hs.isLive, ?_, Nat.lt_of_le_of_lt hbudget hs.budget_lt, hfit,
    fun hput' => absurd hput' hput, halert⟩
  have hreserved : p.mailbox.reserved =
    p.mailbox.queue.length + (p.sends.map Mailbox.SendCall.places).sum := hs.reserved
  show mailbox.reserved = mailbox.queue.length + (p.sends.map Mailbox.SendCall.places).sum
  omega

/-- The agent goes on and leaves its berth alone. -/
theorem Kept.stay (hs : (⟨⟨p, t, restarts, point, history⟩, overlooked⟩ : Vigil μ ε).Kept k)
    (hput : ¬ p.traffic.IsPutAway) {own : ε} (hbudget : t'.budget = t.budget)
    (hfit : Fit t' point')
    (halert : (⟨⟨{ p with own }, t', restarts', point', history'⟩, overlooked'⟩ :
      Vigil μ ε).Alert) :
    (⟨⟨{ p with own }, t', restarts', point', history'⟩, overlooked'⟩ : Vigil μ ε).Kept k :=
  hs.move hput rfl hbudget.le hfit halert

/-- The agent receives, or is told that nothing comes. -/
theorem Kept.receive (hs : (⟨⟨p, t, restarts, point, history⟩, overlooked⟩ : Vigil μ ε).Kept k)
    (hput : ¬ p.traffic.IsPutAway) {behavior : Behavior (Berth μ ε) μ} {policy : Policy}
    {id : AgentId} {quantum left : Nat}
    {next : Option (Envelope μ) → Program (Berth μ ε) μ (Except String Step)}
    (hnone : Waits (next none)) {n : Nat} (hsome : ∀ e, Reads n (next (some e)))
    (hbudget : t.budget < n + 1) :
    (⟨(Berth.resident behavior policy id quantum).receive ⟨p, t, restarts, point, history⟩
      fun e => .running left (next e), overlooked⟩ : Vigil μ ε).Kept k := by
  unfold Resident.receive
  -- the budget is below the number of receives after which the program may do as it likes
  by_cases hzero : t.budget = 0
  · rw [if_pos hzero]
    exact hs.stay hput (by rfl) (.told hnone (.inr (by rfl))) (by trivial)
  · rw [if_neg hzero]
    have hle : p.mailbox.queue.length ≤ p.mailbox.reserved := by
      have hreserved : p.mailbox.reserved = p.mailbox.queue.length + _ := hs.reserved
      omega
    have hbalance := balance_dequeue hle
    cases hanswer : p.mailbox.dequeue.answer with
    | none =>
        simp only [Berth.resident, Berth.around, hanswer]
        exact hs.move hput hbalance (by rfl) (.told hnone (.inl (by rfl))) (by trivial)
    | some e =>
        simp only [Berth.resident, Berth.around, hanswer]
        refine hs.move hput hbalance (Nat.sub_le _ _) (.reading (hsome e) ?_) (by trivial)
        show t.budget - 1 < n
        omega

/-- The agent looks whether there are more messages, before its waker is in place. -/
theorem Kept.look {left : Nat}
    (hs : (⟨⟨p, t, restarts, .waiting left, history⟩, overlooked⟩ : Vigil μ ε).Kept k)
    (hput : ¬ p.traffic.IsPutAway) (ht : Told t)
    (hempty : p.mailbox.isEmpty = true → p.mailbox.queue = [])
    (behavior : Behavior (Berth μ ε) μ) (policy : Policy) (id : AgentId) (quantum : Nat) :
    ((⟨⟨p, t, restarts, .waiting left, history⟩, overlooked⟩ : Vigil μ ε).turn
      (Berth.resident behavior policy id quantum)).Kept k := by
  -- with messages left and no budget the turn ends; otherwise the waker is next
  by_cases hmore : (t.exhausted && !p.mailbox.isEmpty) = true
  · have hstep : (Berth.resident behavior policy id quantum).step
        ⟨p, t, restarts, .waiting left, history⟩ = ⟨p, t, restarts, .ended .yield, history⟩ :=
      if_pos hmore
    simp only [Vigil.turn, hstep]
    exact hs.stay hput rfl (.away (by decide)) (by trivial)
  · have hstep : (Berth.resident behavior policy id quantum).step
        ⟨p, t, restarts, .waiting left, history⟩ = ⟨p, t, restarts, .enlisting left, history⟩ :=
      if_neg hmore
    simp only [Vigil.turn, hstep]
    refine hs.stay hput rfl (.enlisting ht) ⟨?_, Nat.zero_le _⟩
    refine ht.imp_right fun hexhausted => hempty ?_
    simpa [hexhausted] using hmore

/-- The agent puts its waker into its mailbox. -/
theorem Kept.enlist {left : Nat}
    (hs : (⟨⟨p, t, restarts, .enlisting left, history⟩, overlooked⟩ : Vigil μ ε).Kept k)
    (hput : ¬ p.traffic.IsPutAway) (ht : Told t) :
    (⟨⟨{ p with mailbox := p.mailbox.register () }, t, restarts, .enlisted left, history⟩,
      overlooked⟩ : Vigil μ ε).Kept k := by
  obtain ⟨hwhy, hle⟩ := hs.alert
  exact hs.move hput (by rfl) (by rfl) (.enlisted ht)
    ⟨.inr ⟨rfl, hwhy.imp_right .inl⟩, hle⟩

/-- With its waker in place the agent looks once more, if a receive has found nothing. -/
theorem Kept.lookAgain {left : Nat}
    (hs : (⟨⟨p, t, restarts, .enlisted left, history⟩, overlooked⟩ : Vigil μ ε).Kept k)
    (hput : ¬ p.traffic.IsPutAway) (hempty : p.mailbox.isEmpty = true → p.mailbox.queue = [])
    (behavior : Behavior (Berth μ ε) μ) (policy : Policy) (id : AgentId) (quantum : Nat) :
    ((⟨⟨p, t, restarts, .enlisted left, history⟩, overlooked⟩ : Vigil μ ε).turn
      (Berth.resident behavior policy id quantum)).Kept k := by
  -- it sees a message and is resumed, or it goes away watched
  by_cases hagain : (t.drained && !p.mailbox.isEmpty) = true
  · have hstep : (Berth.resident behavior policy id quantum).step
        ⟨p, t, restarts, .enlisted left, history⟩ = ⟨p, t, restarts, .resuming left, history⟩ :=
      if_pos hagain
    simp only [Vigil.turn, hstep]
    exact hs.stay hput rfl .resuming (by trivial)
  · have hstep : (Berth.resident behavior policy id quantum).step
        ⟨p, t, restarts, .enlisted left, history⟩ = ⟨p, t, restarts, .ended .wait, history⟩ :=
      if_neg hagain
    simp only [Vigil.turn, hstep]
    obtain ⟨hwatched, hle⟩ := hs.alert
    -- what a receive has not found before is not there now either
    have hfound : t.drained = true → p.mailbox.queue = [] ∧ overlooked = [] := by
      intro hdrained
      have hqueue : p.mailbox.queue = [] := hempty (by simpa [hdrained] using hagain)
      have hle : overlooked.length ≤ p.mailbox.queue.length := hle
      rw [hqueue] at hle
      exact ⟨hqueue, List.eq_nil_of_length_eq_zero (Nat.le_zero.mp hle)⟩
    refine hs.stay hput rfl (.away (by decide)) ⟨?_, fun hdrained => (hfound hdrained).2⟩
    refine hwatched.imp_right fun ⟨hplaced, hwhy⟩ => ⟨hplaced, .inr ?_⟩
    rcases hwhy with hdrained | hqueue
    · obtain ⟨hqueue, hnone⟩ := hfound hdrained
      exact .inl (hqueue.trans hnone.symm)
    · exact hqueue

/-- The agent makes a step of its turn. -/
theorem Kept.turn (hs : s.Kept k) {behavior : Behavior (Berth μ ε) μ}
    (hreads : Reads k behavior.resume) (policy : Policy) (id : AgentId) (quantum : Nat)
    {task : Unit} (hrunner : s.traffic.runner = .running task)
    (hon : ∀ ending, s.pace.point ≠ .ended ending) :
    (s.turn (Berth.resident behavior policy id quantum)).Kept k := by
  have hput := hs.not_isPutAway hrunner
  obtain ⟨⟨p, t, restarts, point, history⟩, overlooked⟩ := s
  have hasked : p.traffic.header.isTerminating = false := hs.isLive.isTerminating
  -- an empty mailbox has no places taken, and so no messages
  have hempty : p.mailbox.isEmpty = true → p.mailbox.queue = [] := by
    intro h
    have hzero : p.mailbox.reserved = 0 := by simpa [Mailbox.isEmpty, Mailbox.length] using h
    have hreserved : p.mailbox.reserved = p.mailbox.queue.length + _ := hs.reserved
    rw [← List.length_eq_zero_iff]
    omega
  have hfit : Fit t point := hs.fit
  -- by where an agent that reads its mailbox out can be
  cases hfit with
  | away _ => exact absurd rfl (hon _)
  | @resuming left =>
      cases left with
      | zero => exact hs.stay hput rfl (.away (by decide)) (by trivial)
      | succ left =>
          have hnot : ¬ (p.traffic.header.isTerminating && p.mailbox.isEmpty) = true := by
            simp [hasked]
          have hstep : (Berth.resident behavior policy id quantum).step
              ⟨p, t, restarts, .resuming (left + 1), history⟩ =
                ⟨p, { t with drained := false }, restarts, .running left behavior.resume,
                  history⟩ :=
            if_neg hnot
          simp only [Vigil.turn, hstep]
          exact hs.stay hput (by rfl) (.reading hreads hs.budget_lt) (by trivial)
  | @reading left n program hp hn =>
      cases hp with
      | beyond => exact absurd hn (Nat.not_lt_zero _)
      | receive hnone hsome => exact hs.receive hput hnone hsome hn
      | @change _ f next hf hnext =>
          have hstep : (Berth.resident behavior policy id quantum).step
              ⟨p, t, restarts, .running left (.change f next), history⟩ =
                ⟨f p, t, restarts, .running left (next (f p)), history⟩ := rfl
          obtain ⟨own, hown⟩ := hf p
          simp only [Vigil.turn, hstep]
          rw [hown]
          exact hs.stay hput rfl (.reading (hnext _) hn) (by trivial)
  | @told left program hp ht =>
      cases hp with
      | answer => exact hs.stay hput rfl (.answered ht) (by trivial)
      | @change f next hf hnext =>
          have hstep : (Berth.resident behavior policy id quantum).step
              ⟨p, t, restarts, .running left (.change f next), history⟩ =
                ⟨f p, t, restarts, .running left (next (f p)), history⟩ := rfl
          obtain ⟨own, hown⟩ := hf p
          simp only [Vigil.turn, hstep]
          rw [hown]
          exact hs.stay hput rfl (.told (hnext _) ht) (by trivial)
  | @answered left ht =>
      have hnot : ¬ p.traffic.header.isTerminating = true := by simp [hasked]
      have hstep : (Berth.resident behavior policy id quantum).step
          ⟨p, t, restarts, .answered left (.ok .wait), history⟩ =
            ⟨p, t, restarts, .waiting left, history⟩ :=
        if_neg hnot
      simp only [Vigil.turn, hstep]
      exact hs.stay hput rfl (.waiting ht) (by trivial)
  | waiting ht => exact hs.look hput ht hempty behavior policy id quantum
  | enlisting ht => exact hs.enlist hput ht
  | enlisted ht => exact hs.lookAgain hput hempty behavior policy id quantum

end Turn

variable {behavior : Behavior (Berth μ ε) μ}

/-! ## Runs -/

/-- A send begins. -/
theorem Kept.callSend (hs : s.Kept k) (e : Envelope μ) (a : Resident (Berth μ ε) μ) :
    (s.next a (.callSend e)).Kept k := by
  refine ⟨hs.isLive, ?_, hs.budget_lt, hs.fit, hs.putAway, ?_⟩
  · have hreserved := hs.reserved
    show s.mailbox.reserved = s.mailbox.queue.length +
      ((s.berth.sends ++ [Mailbox.SendCall.checking e]).map Mailbox.SendCall.places).sum
    rw [List.map_append, List.sum_append]
    exact hreserved
  · refine hs.alert.of_watched rfl rfl rfl rfl fun looks h => ?_
    refine h.imp_right fun ⟨hplaced, hwhy⟩ => ⟨hplaced, hwhy.imp_right (Or.imp_right ?_)⟩
    rintro ⟨call, hcall, hpushed⟩
    exact ⟨call, List.mem_append_left _ hcall, hpushed⟩

/-- Whatever happens, the calls know how the agent and its berth are. -/
theorem Kept.next (hs : s.Kept k) (hreads : Reads k behavior.resume) (policy : Policy)
    (id : AgentId) {quantum : Nat} (hk : quantum < k) (action : Action μ) :
    (s.next (Berth.resident behavior policy id quantum) action).Kept k := by
  cases action with
  | callSend e => exact hs.callSend e _
  | callWake => exact hs.callWake
  | wake index => exact hs.wake index
  | pick => exact hs.pick
  | send index =>
      simp only [Vigil.next]
      split
      · exact hs
      · next call hcall => exact hs.send hcall
  | work =>
      simp only [Vigil.next]
      split
      · next hrunner =>
          split
          · next ending hat => exact hs.leave hat hrunner
          · next hon => exact hs.turn hreads policy id quantum hrunner hon
      · next hrunner =>
          have hbegins : s.traffic.header.beginRun.2 = true := by
            simp [Header.beginRun, hs.phase_picked hrunner]
          rw [if_pos hbegins]
          exact hs.begin hrunner hk
      · next hrunning hpicked => exact hs.between hpicked hrunning

theorem kept_run (hreads : Reads k behavior.resume) (policy : Policy) (id : AgentId)
    {quantum : Nat} (hk : quantum < k) (marks : Watermarks) (own : ε) (actions : List (Action μ)) :
    ((start marks own).run (Berth.resident behavior policy id quantum) actions).Kept k := by
  -- step by step, with the bound on the receives the same throughout
  induction actions using List.reverseRecOn with
  | nil => exact kept_start (Nat.zero_lt_of_lt hk) marks own
  | append_singleton before action ih =>
      rw [run, List.foldl_append]
      exact ih.next hreads policy id hk action

/-! ## Parked agents -/

/-- The agent waits to be woken. -/
def IsParked (s : Vigil μ ε) : Prop := s.traffic.header.state = .waiting

/-- All sends and all wakes have returned. -/
def IsQuiet (s : Vigil μ ε) : Prop := s.berth.sends = [] ∧ s.traffic.wakes = []

/-- However sends, wakes and the turns of an agent that reads its mailbox out mix their steps:
when the agent is parked and all is quiet, what is left in its mailbox is what got in between
its last look for more messages and its waker. So the mailbox is empty exactly if nothing did,
and always if the agent's last receive found it empty. -/
theorem isEmpty_iff_not_overlooked (hreads : Reads k behavior.resume) (policy : Policy)
    (id : AgentId) {quantum : Nat} (hk : quantum < k) (marks : Watermarks) (own : ε)
    (actions : List (Action μ))
    (hrun : (start marks own).run (Berth.resident behavior policy id quantum) actions = s)
    (hparked : s.IsParked) (hquiet : s.IsQuiet) :
    s.mailbox.queue = s.overlooked ∧
      (s.mailbox.isEmpty = true ↔ s.overlooked = []) ∧
      (s.pace.books.drained = true → s.mailbox.isEmpty = true) := by
  have hs : s.Kept k := hrun ▸ kept_run hreads policy id hk marks own actions
  obtain ⟨hsends, hwakes⟩ := hquiet
  -- parked means idle, and an idle agent's turn ended waiting
  have hidle : s.traffic.header.phase = .idle := by
    have hstate : s.traffic.header.phase.state = .waiting := hparked
    cases hphase : s.traffic.header.phase with
    | idle => rfl
    | _ => exact nomatch hphase ▸ hstate
  have halert := hs.alert
  unfold Alert at halert
  rw [hs.putAway (.inr hidle)] at halert
  obtain ⟨hwatched, hdrained⟩ := halert
  -- nobody is on the way, so what is known is the queue
  have hleft : s.mailbox.queue = s.overlooked := by
    rcases hwatched with (hnotified | hscheduled | ⟨call, hcall, -⟩) | ⟨-, hwhy⟩
    · exact nomatch hidle.symm.trans hnotified
    · exact nomatch hidle.symm.trans hscheduled
    · rw [hwakes] at hcall
      exact nomatch hcall
    · rcases hwhy with hfalse | hqueue | ⟨call, hcall, -⟩
      · exact hfalse.elim
      · exact hqueue
      · rw [hsends] at hcall
        exact nomatch hcall
  have hempty : s.mailbox.isEmpty = true ↔ s.overlooked = [] := by
    have hreserved : s.mailbox.reserved = s.overlooked.length := by
      rw [hs.reserved, hsends, hleft]
      rfl
    rw [Mailbox.isEmpty, Mailbox.length, hreserved, beq_iff_eq, List.length_eq_zero_iff]
  exact ⟨hleft, hempty, fun h => hempty.mpr (hdrained h)⟩

/-- A message gets in after the agent's last receive and before its waker is in place. The
agent looks once more, reads it, and is parked with an empty mailbox. -/
theorem isEmpty_after_second_look :
    let e : Envelope Unit := ⟨(), .isolated, none, 0⟩
    let send : List (Action Unit) := .callSend e :: List.replicate 8 (.send 0)
    let actions := send ++ .pick :: List.replicate 7 .work ++ send ++ List.replicate 13 .work
    let s := (start ⟨2, 2, 0⟩ ()).run (reader 4 3) actions
    s.IsParked ∧ s.IsQuiet ∧ s.mailbox.isEmpty = true ∧
      History.received s.pace.history = [e.stamp 1, e.stamp 2] := by
  intro e send actions s
  have hparked : s.IsParked := by
    unfold IsParked
    subst s actions send e
    cbv
  have hquiet : s.IsQuiet := by
    unfold IsQuiet
    subst s actions send e
    cbv
  have hdrained : s.pace.books.drained = true := by
    subst s actions send e
    cbv
  have hread : History.received s.pace.history = [e.stamp 1, e.stamp 2] := by
    subst s actions send e
    cbv
  obtain ⟨-, -, hempty⟩ := isEmpty_iff_not_overlooked (reads_reading 4) .stopOnFailure ⟨1⟩
    (by decide : 3 < 4) ⟨2, 2, 0⟩ () actions (Eq.refl s) hparked hquiet
  exact ⟨hparked, hquiet, hempty hdrained, hread⟩

/-- An agent that may receive one message a turn has received one, is refused another, and
finds its mailbox empty. A second message gets in before its waker is in place: the agent is
parked with it, and nobody is left to wake it. -/
theorem overlooked_before_waker :
    let e : Envelope Unit := ⟨(), .isolated, none, 0⟩
    let send : List (Action Unit) := .callSend e :: List.replicate 8 (.send 0)
    let actions := send ++ .pick :: List.replicate 7 .work ++ send ++ List.replicate 5 .work
    let s := (start ⟨2, 2, 0⟩ ()).run (reader 2 1) actions
    Reads 2 (reader 2 1).behavior.resume ∧ s.IsParked ∧ s.IsQuiet ∧
      s.mailbox.isEmpty = false ∧ s.mailbox.queue = [e.stamp 2] := by
  intro e send actions s
  have hparked : s.IsParked := by
    unfold IsParked
    subst s actions send e
    cbv
  have hquiet : s.IsQuiet := by
    unfold IsQuiet
    subst s actions send e
    cbv
  subst s actions send e
  exact ⟨reads_reading 2, hparked, hquiet, by cbv, by cbv⟩

end Vigil

end Troupe
